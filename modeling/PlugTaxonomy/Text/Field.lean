/-!
# Separated fields

Texts that hold several entries — flag sets, dotted paths, lists of log directives, the lines
of a file — keep them apart by one character.

* `fields` — all entries between the separators, empty ones included.
-/

namespace PlugTaxonomy.Text

/-- The entries of a text between the occurrences of a separator.  There is always one more
entry than there are separators. -/
def fields {α : Type} [DecidableEq α] (separator : α) : List α → List (List α)
  | [] => [[]]
  | c :: cs =>
    if c = separator then [] :: fields separator cs
    else
      match fields separator cs with
      | [] => [[c]]
      | entry :: entries => (c :: entry) :: entries

theorem fields_ne_nil {α : Type} [DecidableEq α] (separator : α) (cs : List α) :
    fields separator cs ≠ [] := by
  cases cs with
  | nil => simp [fields]
  | cons c cs =>
    simp only [fields]
    split
    · simp
    · split <;> simp

/-- A text without the separator is a single entry. -/
theorem fields_of_not_mem {α : Type} [DecidableEq α] {separator : α} {cs : List α}
    (h : separator ∉ cs) : fields separator cs = [cs] := by
  induction cs with
  | nil => rfl
  | cons c cs ih =>
    obtain ⟨hc, hcs⟩ := List.ne_and_not_mem_of_not_mem_cons h
    simp only [fields, if_neg (Ne.symm hc), ih hcs]

/-- A separator divides the entries into those in front of it and those behind it. -/
theorem fields_append_cons {α : Type} [DecidableEq α] (separator : α) (cs ds : List α) :
    fields separator (cs ++ separator :: ds) = fields separator cs ++ fields separator ds := by
  induction cs with
  | nil => simp only [List.nil_append, fields, if_true, List.singleton_append]
  | cons c cs ih =>
    rw [List.cons_append, fields, fields, ih]
    by_cases hc : c = separator
    · rw [if_pos hc, if_pos hc, List.cons_append]
    · rw [if_neg hc, if_neg hc]
      cases hcs : fields separator cs with
      | nil => exact absurd hcs (fields_ne_nil separator cs)
      | cons entry entries => rfl

end PlugTaxonomy.Text
