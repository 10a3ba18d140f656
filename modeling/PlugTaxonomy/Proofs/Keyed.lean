import Mathlib.Data.List.Nodup

/-!
# Lists with keys

Where the keys of a list differ, a key stands for one entry, and the order of the list is no matter
to what is found by it.

* `find?_key_eq`, `filter_key_eq` — an entry is the first one with its key, and the only one;
* `find?_key_eq_some_iff` — what is found by a key;
* `find?_key_perm` — a list in another order has the same entry for a key.
-/

namespace PlugTaxonomy

section Keyed

variable {α β : Type} [DecidableEq β] {key : α → β} {items : List α}

/-- In a list whose entries differ in a key, an entry is the first one with its key. -/
theorem find?_key_eq {item : α} (hnodup : (items.map key).Nodup) (hitem : item ∈ items) :
    items.find? (fun other => key other = key item) = some item := by
  have hsome : (items.find? fun other => key other = key item).isSome := by
    rw [List.find?_isSome]
    exact ⟨item, hitem, decide_eq_true rfl⟩
  obtain ⟨found, hfound⟩ := Option.isSome_iff_exists.mp hsome
  have hkey := List.find?_some hfound
  rw [hfound, List.inj_on_of_nodup_map hnodup (List.mem_of_find?_eq_some hfound) hitem
    (of_decide_eq_true hkey)]

/-- In a list whose entries differ in a key, no other entry has the key of an entry. -/
theorem filter_key_eq {item : α} (hnodup : (items.map key).Nodup) (hitem : item ∈ items) :
    items.filter (fun other => key other = key item) = [item] := by
  obtain ⟨before, after, rfl⟩ := List.append_of_mem hitem
  rw [List.map_append, List.map_cons, List.nodup_middle, List.nodup_cons,
    ← List.map_append] at hnodup
  have hothers : ∀ other ∈ before ++ after, ¬decide (key other = key item) = true := by
    intro other hmem hkey
    refine hnodup.1 ?_
    rw [← of_decide_eq_true hkey]
    exact List.mem_map_of_mem hmem
  obtain ⟨hbefore, hafter⟩ := List.forall_mem_append.mp hothers
  rw [List.filter_append, List.filter_cons, if_pos (decide_eq_true rfl),
    List.filter_eq_nil_iff.mpr hbefore, List.filter_eq_nil_iff.mpr hafter]
  rfl

/-- In a list whose entries differ in a key, what is found by a key is the entry that has it. -/
theorem find?_key_eq_some_iff (hnodup : (items.map key).Nodup) {k : β} {item : α} :
    items.find? (fun other => key other = k) = some item ↔ item ∈ items ∧ key item = k := by
  constructor
  · intro hfind
    have hkey := List.find?_some hfind
    exact ⟨List.mem_of_find?_eq_some hfind, of_decide_eq_true hkey⟩
  · rintro ⟨hitem, rfl⟩
    exact find?_key_eq hnodup hitem

/-- Entries that differ in a key are found by it in whatever order they stand. -/
theorem find?_key_perm {others : List α} (hnodup : (items.map key).Nodup)
    (hperm : items.Perm others) (k : β) :
    items.find? (fun item => key item = k) = others.find? (fun item => key item = k) := by
  have hnodup' : (others.map key).Nodup := (hperm.map key).nodup_iff.mp hnodup
  apply Option.ext
  intro item
  rw [find?_key_eq_some_iff hnodup, find?_key_eq_some_iff hnodup', hperm.mem_iff]

end Keyed

end PlugTaxonomy
