import PlugTaxonomy.Flags
import PlugTaxonomy.Proofs.Text.Blank
import PlugTaxonomy.Proofs.Text.Numeral
import Mathlib.Data.List.Forall2

/-!
# Sets of flags are read back

The written form of a set of flags has an entry for each of its parts: the flags that have a name,
and what is left.  Each entry is read as its part, and the parts together are the set.

* `Flags.parts`, `foldl_union_parts` — the parts of a set, which make it up;
* `forall₂_entries_parts` — each entry of the written form is read as its part;
* `read_text` — the written form is read as the set.
-/

namespace PlugTaxonomy.Flags

/-! ### Parts -/

/-- The flags that have no name. -/
def nameless (s : Flags) : Flags :=
  s.without (command.union (toggle.union compatible))

/-- The flags of a set one by one, and what has no name all together. -/
def parts (s : Flags) : List Flags :=
  (named.filter fun (_, flag) => s.contains flag).map (·.2) ++
    if s.nameless = none then [] else [s.nameless]

/-- The parts of a set make it up. -/
theorem foldl_union_parts (s : Flags) : s.parts.foldl union none = s := by
  have hall : ∀ bits : BitVec 8, (parts ⟨bits⟩).foldl union none = ⟨bits⟩ := by decide +kernel
  exact hall s.bits

/-! ### Entries -/

/-- An entry that is read as a flag, also with blanks around it. -/
structure Denotes (entry : String) (flag : Flags) : Prop where
  solid : Text.IsSolid entry.toList
  no_bar : '|' ∉ entry.toList
  read : readEntry entry.toList = .ok flag

theorem denotes_named : ∀ entry ∈ named, Denotes entry.1 entry.2 := by
  have hnamed : ∀ entry ∈ named, entry.1.toList ≠ [] ∧
      (entry.1.toList.all fun c => !Text.isBlank c) = true ∧ '|' ∉ entry.1.toList ∧
        readEntry entry.1.toList = .ok entry.2 := by
    decide +kernel
  intro entry hentry
  obtain ⟨hne, hblank, hbar, hread⟩ := hnamed entry hentry
  have hsolid : ∀ c ∈ entry.1.toList, Text.isBlank c = false := fun c hc => by
    simpa using List.all_eq_true.mp hblank c hc
  exact ⟨⟨hne, hsolid⟩, hbar, hread⟩

/-- A hexadecimal numeral behind its mark denotes the set with these bits. -/
theorem denotes_hex (s : Flags) :
    Denotes (String.ofList ('0' :: 'x' :: Text.hex s.bits.toNat)) s := by
  have hplain : ∀ d < 16, Text.isBlank (Nat.digitChar d) = false ∧ Nat.digitChar d ≠ '|' := by
    decide
  have hchars : ∀ c ∈ '0' :: 'x' :: Text.hex s.bits.toNat, Text.isBlank c = false ∧ c ≠ '|' := by
    intro c hc
    rcases List.mem_cons.mp hc with rfl | hc
    · decide
    · rcases List.mem_cons.mp hc with rfl | hc
      · decide
      · obtain ⟨d, hd, rfl⟩ := Text.mem_toDigits (by omega) hc
        exact hplain d hd
  have hpadded : Text.hexPadded 0 s.bits.toNat = Text.hex s.bits.toNat := by
    rw [Text.hexPadded, Text.zeroPadded, Nat.zero_sub]
    rfl
  have hbits := Text.readUnsigned?_hexPadded 0 s.bits.isLt
  rw [hpadded] at hbits
  have htext := String.toList_ofList (l := '0' :: 'x' :: Text.hex s.bits.toNat)
  refine ⟨⟨?_, fun c hc => (hchars c (htext ▸ hc)).1⟩,
    fun hbar => (hchars _ (htext ▸ hbar)).2 rfl, ?_⟩
  · rw [htext]
    exact List.cons_ne_nil _ _
  · rw [htext]
    simp only [readEntry]
    rw [show (256 : Nat) = 2 ^ 8 from rfl, hbits]
    show Except.ok (Flags.mk (BitVec.ofNat 8 s.bits.toNat)) = .ok s
    rw [BitVec.ofNat_toNat, BitVec.setWidth_eq]

/-- Each entry of the written form is read as its part. -/
theorem forall₂_entries_parts (s : Flags) : List.Forall₂ Denotes s.entries s.parts := by
  have hnames : List.Forall₂ Denotes ((named.filter fun (_, flag) => s.contains flag).map (·.1))
      ((named.filter fun (_, flag) => s.contains flag).map (·.2)) := by
    rw [List.forall₂_map_left_iff, List.forall₂_map_right_iff, List.forall₂_same]
    exact fun entry hentry => denotes_named entry (List.mem_filter.mp hentry).1
  rw [entries, parts, nameless]
  dsimp only
  split
  · rwa [List.append_nil]
  · exact List.rel_append hnames (.cons (denotes_hex _) .nil)

/-! ### Texts -/

theorem isBlank_space : Text.isBlank ' ' = true := by
  decide

/-- Entries between bars are read one after the other, blanks around them left aside. -/
theorem readEntries_intercalate {entries : List String} {flags : List Flags}
    (h : List.Forall₂ Denotes entries flags) (hne : entries ≠ []) (read : Flags) {front : List Char}
    (hfront : ∀ c ∈ front, Text.isBlank c = true ∧ c ≠ '|') :
    readEntries read (Text.fields '|' (front ++ (String.intercalate " | " entries).toList)) =
      .ok (flags.foldl union read) := by
  induction h generalizing read front with
  | nil => exact absurd rfl hne
  | @cons entry flag entries flags hentry hentries ih =>
    have hfront' : '|' ∉ front := fun hbar => (hfront _ hbar).2 rfl
    cases entries with
    | nil =>
      cases hentries
      have htrim := hentry.solid.trim_padded (fun c hc => (hfront c hc).1)
        (List.forall_mem_nil fun c => Text.isBlank c = true)
      rw [List.append_nil] at htrim
      rw [String.intercalate_singleton, Text.fields_of_not_mem (by simp [hfront', hentry.no_bar]),
        readEntries, htrim, hentry.read]
      rfl
    | cons next entries =>
      have hbar : " | ".toList = [' '] ++ '|' :: [' '] := rfl
      have htrim := hentry.solid.trim_padded (fun c hc => (hfront c hc).1)
        (List.forall_mem_singleton.mpr isBlank_space)
      have hspace : ∀ c ∈ [' '], Text.isBlank c = true ∧ c ≠ '|' :=
        List.forall_mem_singleton.mpr ⟨isBlank_space, by decide⟩
      have hrest := ih (List.cons_ne_nil _ _) (read.union flag) hspace
      have hsplit : front ++ (String.intercalate " | " (entry :: next :: entries)).toList =
          (front ++ entry.toList ++ [' ']) ++
            '|' :: ([' '] ++ (String.intercalate " | " (next :: entries)).toList) := by
        rw [String.intercalate_cons_cons, String.toList_append, String.toList_append, hbar]
        simp only [List.append_assoc, List.cons_append, List.nil_append]
      rw [hsplit, Text.fields_append_cons,
        Text.fields_of_not_mem (by simp [hfront', hentry.no_bar]), List.singleton_append,
        readEntries, htrim, hentry.read]
      exact hrest

/-- **Sets of flags are read back.**  The written form of a set of flags, bits without a name
included, is read as that set. -/
theorem read_text (s : Flags) : read s.text = .ok s := by
  have hparts := forall₂_entries_parts s
  rw [read, text]
  by_cases hnil : s.entries = []
  · have hset := foldl_union_parts s
    rw [hnil, List.forall₂_nil_left_iff] at hparts
    rw [hparts] at hset
    rw [hnil, ← hset]
    rfl
  · have hread := readEntries_intercalate hparts hnil none (List.forall_mem_nil _)
    rw [foldl_union_parts, List.nil_append] at hread
    rw [hread, if_neg]
    rw [List.isEmpty_iff, Text.trim_eq_nil_iff]
    intro hblank
    -- The first entry is not blank.
    obtain ⟨entry, entries, hentries⟩ := List.exists_cons_of_ne_nil hnil
    rw [hentries] at hparts hblank
    obtain ⟨flag, flags, hentry, -, -⟩ := List.forall₂_cons_left_iff.mp hparts
    obtain ⟨c, hc⟩ := List.exists_mem_of_ne_nil _ hentry.solid.ne_nil
    have hmem : c ∈ (String.intercalate " | " (entry :: entries)).toList := by
      cases entries with
      | nil => rwa [String.intercalate_singleton]
      | cons next entries =>
        rw [String.intercalate_cons_cons, String.toList_append, String.toList_append]
        exact List.mem_append_left _ (List.mem_append_left _ hc)
    have hsolid := hentry.solid.not_blank c hc
    rw [hblank c hmem] at hsolid
    cases hsolid

end PlugTaxonomy.Flags
