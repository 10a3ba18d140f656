import PlugTaxonomy.Files.Transaction

/-!
# Paths of the entries of a directory

A name without slashes, put behind a directory, gives the path of an entry right in that directory,
whether the directory is written with a slash at its end, without one, or not at all.

* `IsEntryName` — the names that entries can have;
* `Path.ofText_join` — the path of an entry has one name more than that of its directory;
* `Transaction.hiddenName` — the names of the hidden files beside a target.
-/

namespace PlugTaxonomy

/-- A name of an entry of a directory: not empty, no dots that lead elsewhere, and no slash. -/
def IsEntryName (name : String) : Prop :=
  name ≠ "" ∧ name ≠ "." ∧ name ≠ ".." ∧ '/' ∉ name.toList

instance (name : String) : Decidable (IsEntryName name) :=
  inferInstanceAs (Decidable (_ ∧ _))

theorem IsEntryName.toList_ne_nil {name : String} (h : IsEntryName name) : name.toList ≠ [] := by
  intro hnil
  exact h.1 (String.toList_eq_nil_iff.mp hnil)

namespace Path

/-- The names between the slashes of a text. -/
def namesOf (cs : List Char) : List String :=
  ((Text.fields '/' cs).filter (!·.isEmpty)).map String.ofList

theorem names_ofText (text : String) : (ofText text).names = namesOf text.toList :=
  rfl

theorem namesOf_nil : namesOf [] = [] :=
  rfl

theorem namesOf_append_slash (cs ds : List Char) :
    namesOf (cs ++ '/' :: ds) = namesOf cs ++ namesOf ds := by
  rw [namesOf, Text.fields_append_cons, List.filter_append, List.map_append]
  rfl

theorem namesOf_name {name : String} (h : IsEntryName name) : namesOf name.toList = [name] := by
  have hne : name.toList ≠ [] := h.toList_ne_nil
  rw [namesOf, Text.fields_of_not_mem h.2.2.2]
  simp [hne]

/-- What stands between a directory and a name in the path of an entry. -/
def separator (directory : String) : List Char :=
  if directory.isEmpty ∨ directory.toList.getLast? = some '/' then [] else ['/']

theorem toList_join {name : String} (directory : String) (h : IsEntryName name) :
    (join directory name).toList = directory.toList ++ (separator directory ++ name.toList) := by
  have hhead : ¬name.toList.head? = some '/' := by
    intro hhead
    exact h.2.2.2 (List.mem_of_head? hhead)
  rw [join, separator, if_neg hhead]
  by_cases hjoined : directory.isEmpty ∨ directory.toList.getLast? = some '/'
  · rw [if_pos hjoined, if_pos hjoined, String.toList_append, List.nil_append]
  · rw [if_neg hjoined, if_neg hjoined, String.toList_append, String.toList_append,
      List.append_assoc]
    rfl

/-- Different names have different paths in a directory. -/
theorem join_injective {directory name other : String} (hname : IsEntryName name)
    (hother : IsEntryName other) (h : join directory name = join directory other) :
    name = other := by
  have htext := congrArg String.toList h
  rw [toList_join directory hname, toList_join directory hother] at htext
  exact String.toList_injective (List.append_cancel_left (List.append_cancel_left htext))

theorem namesOf_join {name : String} (directory : String) (h : IsEntryName name) :
    namesOf (directory.toList ++ (separator directory ++ name.toList)) =
      namesOf directory.toList ++ [name] := by
  rw [separator]
  by_cases hjoined : directory.isEmpty ∨ directory.toList.getLast? = some '/'
  · rw [if_pos hjoined, List.nil_append]
    rcases hjoined with hempty | hlast
    · rw [String.isEmpty_iff.mp hempty]
      exact namesOf_name h
    · obtain ⟨cs, hcs⟩ := List.getLast?_eq_some_iff.mp hlast
      rw [hcs, List.append_assoc, List.singleton_append, namesOf_append_slash,
        namesOf_append_slash, namesOf_nil, List.append_nil, namesOf_name h]
  · rw [if_neg hjoined, List.singleton_append, namesOf_append_slash, namesOf_name h]

/-- A path is absolute if its directory is.  Without a directory it is not. -/
theorem head?_join {name : String} (directory : String) (h : IsEntryName name) :
    (join directory name).toList.head? = some '/' ↔ directory.toList.head? = some '/' := by
  rw [toList_join directory h, List.head?_append]
  cases hhead : directory.toList.head? with
  | some c => rfl
  | none =>
    have hempty : directory = "" := String.toList_eq_nil_iff.mp (List.head?_eq_none_iff.mp hhead)
    have hname : name.toList.head? ≠ some '/' := by
      intro hslash
      exact h.2.2.2 (List.mem_of_head? hslash)
    subst hempty
    simpa [separator] using hname

/-- The path of an entry has one name more than that of its directory, and no slash behind it. -/
theorem ofText_join {name : String} (directory : String) (h : IsEntryName name) :
    ofText (join directory name) =
      { absolute := (ofText directory).absolute
        names := (ofText directory).names ++ [name]
        slash := false } := by
  have habsolute : (ofText (join directory name)).absolute = (ofText directory).absolute :=
    decide_eq_decide.mpr (head?_join directory h)
  have hnames : (ofText (join directory name)).names = (ofText directory).names ++ [name] := by
    rw [names_ofText, names_ofText, toList_join directory h, namesOf_join directory h]
  have hslash : (ofText (join directory name)).slash = false := by
    refine decide_eq_false ?_
    rw [toList_join directory h, List.getLast?_append, List.getLast?_append,
      List.getLast?_eq_some_getLast h.toList_ne_nil, Option.some_or, Option.some_or,
      Option.some.injEq]
    intro hlast
    exact h.2.2.2 (hlast ▸ List.getLast_mem h.toList_ne_nil)
  rw [← habsolute, ← hnames, ← hslash]

end Path

namespace Transaction

/-- The name of a hidden file beside the target of a name. -/
def hiddenName (name extension : String) : String :=
  "." ++ name ++ "." ++ extension

theorem toList_hiddenName (name extension : String) :
    (hiddenName name extension).toList = '.' :: (name.toList ++ '.' :: extension.toList) := by
  simp [hiddenName]

theorem isEntryName_hiddenName {name extension : String} (h : IsEntryName name)
    (hextension : '/' ∉ extension.toList) : IsEntryName (hiddenName name extension) := by
  have htext := toList_hiddenName name extension
  have hne := h.toList_ne_nil
  refine ⟨?_, ?_, ?_, ?_⟩
  · intro hname
    rw [hname] at htext
    simp at htext
  · intro hname
    rw [hname] at htext
    simp at htext
  · intro hname
    rw [hname] at htext
    have hlength := congrArg List.length htext
    have hpos := List.length_pos_iff.mpr hne
    simp at hlength
    omega
  · rw [htext]
    simp [h.2.2.2, hextension]

end Transaction

end PlugTaxonomy
