import PlugTaxonomy.Text.Blank
import Mathlib.Data.List.DropRight

/-!
# Blanks around a text

* `IsSolid` — a text without blanks in it;
* `trim_padded` — blanks around a solid text are left aside;
* `trim_eq_nil_iff` — only blanks are trimmed to nothing;
* `IsTrimmed`, `isTrimmed_trim` — blanks are left aside at both ends, and nothing else.
-/

namespace PlugTaxonomy.Text

/-- A text with something in it, and no blank. -/
structure IsSolid (cs : List Char) : Prop where
  ne_nil : cs ≠ []
  not_blank : ∀ c ∈ cs, isBlank c = false

theorem trimStart_blanks_append {blanks : List Char} (h : ∀ c ∈ blanks, isBlank c = true)
    (cs : List Char) : trimStart (blanks ++ cs) = trimStart cs :=
  List.dropWhile_append_of_pos h

theorem IsSolid.reverse {cs : List Char} (h : IsSolid cs) : IsSolid cs.reverse :=
  ⟨fun hnil => h.ne_nil (List.reverse_eq_nil_iff.mp hnil),
    fun c hc => h.not_blank c (List.mem_reverse.mp hc)⟩

theorem IsSolid.trimStart_append {cs : List Char} (h : IsSolid cs) (ds : List Char) :
    trimStart (cs ++ ds) = cs ++ ds := by
  cases cs with
  | nil => exact absurd rfl h.ne_nil
  | cons c cs =>
    have hc : ¬isBlank c = true := by
      rw [h.not_blank c List.mem_cons_self]
      exact Bool.false_ne_true
    exact List.dropWhile_cons_of_neg hc

/-- Blanks around a solid text are left aside. -/
theorem IsSolid.trim_padded {cs front back : List Char} (h : IsSolid cs)
    (hfront : ∀ c ∈ front, isBlank c = true) (hback : ∀ c ∈ back, isBlank c = true) :
    trim (front ++ cs ++ back) = cs := by
  have hback' : ∀ c ∈ back.reverse, isBlank c = true :=
    fun c hc => hback c (List.mem_reverse.mp hc)
  have hend := h.reverse.trimStart_append []
  rw [List.append_nil] at hend
  rw [trim, List.append_assoc, trimStart_blanks_append hfront, h.trimStart_append, trimEnd,
    List.reverse_append, trimStart_blanks_append hback', hend, List.reverse_reverse]

/-- There is nothing to leave aside at the ends of a solid text. -/
theorem IsSolid.trim_eq {cs : List Char} (h : IsSolid cs) : trim cs = cs := by
  have hpadded := h.trim_padded (List.forall_mem_nil _) (List.forall_mem_nil _)
  rwa [List.nil_append, List.append_nil] at hpadded

/-- Only blanks are trimmed to nothing. -/
theorem trim_eq_nil_iff {cs : List Char} : trim cs = [] ↔ ∀ c ∈ cs, isBlank c = true := by
  have hstart : ∀ ds : List Char, trimStart ds = [] ↔ ∀ c ∈ ds, isBlank c = true :=
    fun ds => List.dropWhile_eq_nil_iff
  rw [trim, trimEnd, List.reverse_eq_nil_iff, hstart]
  simp only [List.mem_reverse]
  rw [← hstart, trimStart, trimStart, List.dropWhile_idempotent]
  exact hstart cs

/-! ### Nothing but blanks is left aside -/

/-- A text without the blanks at its two ends: nothing else is missing, and no blank is left at
either end. -/
structure IsTrimmed (cs trimmed : List Char) : Prop where
  padded : ∃ front back, cs = front ++ trimmed ++ back ∧ (∀ c ∈ front, isBlank c = true) ∧
    ∀ c ∈ back, isBlank c = true
  head : ∀ c ∈ trimmed.head?, isBlank c = false
  last : ∀ c ∈ trimmed.getLast?, isBlank c = false

/-- What is left of a text without its leading blanks, and those blanks. -/
theorem exists_eq_append_trimStart (cs : List Char) :
    ∃ front, cs = front ++ trimStart cs ∧ ∀ c ∈ front, isBlank c = true :=
  ⟨cs.takeWhile isBlank, List.takeWhile_append_dropWhile.symm,
    fun _ => List.mem_takeWhile_imp⟩

theorem not_blank_head_trimStart (cs : List Char) :
    ∀ c ∈ (trimStart cs).head?, isBlank c = false := by
  intro c hc
  have hhead := List.head?_dropWhile_not isBlank cs
  rwa [show (cs.dropWhile isBlank).head? = some c from hc] at hhead

theorem isTrimmed_trim (cs : List Char) : IsTrimmed cs (trim cs) := by
  obtain ⟨front, hfront, hfront_blank⟩ := exists_eq_append_trimStart cs
  obtain ⟨back, hback, hback_blank⟩ := exists_eq_append_trimStart (trimStart cs).reverse
  have hend : trimStart cs = trim cs ++ back.reverse := by
    rw [← List.reverse_reverse (trimStart cs), hback, List.reverse_append]
    rfl
  refine ⟨⟨front, back.reverse, ?_, hfront_blank,
    fun c hc => hback_blank c (List.mem_reverse.mp hc)⟩, fun c hc => ?_, fun c hc => ?_⟩
  · rw [List.append_assoc, ← hend]
    exact hfront
  · refine not_blank_head_trimStart cs c ?_
    rw [hend]
    exact List.mem_head?_append_of_mem_head? hc
  · refine not_blank_head_trimStart (trimStart cs).reverse c ?_
    rwa [trim, trimEnd, List.getLast?_reverse] at hc

end PlugTaxonomy.Text
