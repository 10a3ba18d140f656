import PlugTaxonomy.Json.Error
import PlugTaxonomy.Proofs.Outcome
import Mathlib.Data.List.Basic
import Mathlib.Logic.Equiv.Defs
import Mathlib.Logic.Function.Basic

/-!
# Objects with fields

What is read of an object does not depend on the order of its members, only on the values at each
key.

* `JsonValue.valuesAt` — the values at a key;
* `ReadOnce` — at most one value is read for a field;
* `ObjectShape`, `ObjectShape.Adds` — the fields of an object with their keys, and what has been
  read of them before and after some members;
* `Adds.perm`, `Adds.insert`, `not_adds_unknown`, `not_adds_repeated`, `Adds.member` — what becomes
  of it when members change their order, are added, or have another value;
* `ObjectReader.foldlM_eq_ok_iff` — a reader that goes from member to member reads each field once.
-/

namespace PlugTaxonomy

variable {members members' front back : List (String × JsonValue)} {key : String}
  {value : JsonValue}

namespace JsonValue

/-! ### Values at a key -/

/-- The values of the members with a key. -/
def valuesAt (key : String) (members : List (String × JsonValue)) : List JsonValue :=
  (members.filter (·.1 = key)).map (·.2)

theorem valuesAt_cons (key : String) (member : String × JsonValue)
    (members : List (String × JsonValue)) :
    valuesAt key (member :: members) =
      if member.1 = key then member.2 :: valuesAt key members else valuesAt key members := by
  by_cases h : member.1 = key <;> simp [valuesAt, h]

theorem valuesAt_append (key : String) (front back : List (String × JsonValue)) :
    valuesAt key (front ++ back) = valuesAt key front ++ valuesAt key back := by
  simp [valuesAt]

theorem valuesAt_perm (h : members.Perm members') (key : String) :
    (valuesAt key members).Perm (valuesAt key members') :=
  (h.filter _).map _

/-- A member does not change the values at other keys. -/
theorem valuesAt_insert_ne {other : String} (h : key ≠ other) (value : JsonValue)
    (front back : List (String × JsonValue)) :
    valuesAt other (front ++ (key, value) :: back) = valuesAt other (front ++ back) := by
  rw [valuesAt_append, valuesAt_append, valuesAt_cons, if_neg h]

theorem valuesAt_insert_self (key : String) (value : JsonValue)
    (front back : List (String × JsonValue)) :
    valuesAt key (front ++ (key, value) :: back) =
      valuesAt key front ++ value :: valuesAt key back := by
  rw [valuesAt_append, valuesAt_cons, if_pos rfl]

theorem valuesAt_eq_nil_iff : valuesAt key members = [] ↔ ∀ member ∈ members, member.1 ≠ key := by
  simp [valuesAt]

theorem lookup_eq_head?_valuesAt (key : String) (members : List (String × JsonValue)) :
    members.lookup key = (valuesAt key members).head? := by
  induction members with
  | nil => rfl
  | cons member members ih =>
    rw [List.lookup_cons, valuesAt_cons, ih]
    by_cases h : member.1 = key
    · rw [if_pos h, beq_iff_eq.mpr h.symm]
      rfl
    · rw [if_neg h, beq_eq_false_iff_ne.mpr (Ne.symm h)]

theorem valuesAt_ne_nil (h : key ∈ members.map (·.1)) : valuesAt key members ≠ [] := by
  obtain ⟨member, hmember, hkey⟩ := List.mem_map.mp h
  exact fun hnil => valuesAt_eq_nil_iff.mp hnil member hmember hkey

end JsonValue

open JsonValue

/-! ### Fields that are read once -/

/-- One value is read for a field of which nothing has been read, or there is none to read. -/
def ReadOnce {α : Type} (read : JsonValue → Except Mismatch α) (before : Option α)
    (values : List JsonValue) (after : Option α) : Prop :=
  match values with
  | [] => after = before
  | [value] => before = none ∧ ∃ content, read value = .ok content ∧ after = some content
  | _ => False

namespace ReadOnce

variable {α : Type} {read : JsonValue → Except Mismatch α} {before after : Option α}
  {values values' : List JsonValue}

theorem perm (h : ReadOnce read before values after) (hperm : values.Perm values') :
    ReadOnce read before values' after := by
  match values, h with
  | [], h =>
    obtain rfl := hperm.nil_eq
    exact h
  | [value], h =>
    obtain rfl := hperm.singleton_eq
    exact h

/-- Of some values, the first one is read, and there are no others. -/
theorem of_cons (h : ReadOnce read before (value :: values) after) :
    values = [] ∧ before = none ∧ ∃ content, read value = .ok content ∧ after = some content := by
  match values, h with
  | [], h => exact ⟨rfl, h⟩

/-- A value that stands among others is the only one. -/
theorem of_append {others : List JsonValue}
    (h : ReadOnce read before (values ++ value :: others) after) : values = [] ∧ others = [] := by
  match values, others, h with
  | [], [], _ => exact ⟨rfl, rfl⟩
  | [], _ :: _, h => exact h.elim
  | [_], _, h => exact h.elim
  | _ :: _ :: _, _, h => exact h.elim

/-- The one value of a field is read. -/
theorem some_iff {content : α} :
    ReadOnce read none values (some content) ↔
      ∃ value, values = [value] ∧ read value = .ok content := by
  constructor
  · intro h
    match values, h with
    | [value], h =>
      obtain ⟨-, other, hread, hcontent⟩ := h
      rw [Option.some.inj hcontent]
      exact ⟨value, rfl, hread⟩
  · rintro ⟨value, rfl, hread⟩
    exact ⟨rfl, content, hread, rfl⟩

end ReadOnce

/-- The fields of an object: their keys, how their values are read, and whether members with other
keys are left aside. -/
structure ObjectShape where
  Field : Type
  [decEq : DecidableEq Field]
  Content : Field → Type
  key : Field → String
  key_injective : Function.Injective key
  read : (field : Field) → JsonValue → Except Mismatch (Content field)
  isOpen : Prop

namespace ObjectShape

attribute [instance] decEq

variable {shape : ObjectShape}

/-- What has been read of each field. -/
abbrev Found (shape : ObjectShape) : Type :=
  (field : shape.Field) → Option (shape.Content field)

/-- Nothing has been read. -/
def nothing : shape.Found :=
  fun _ => none

variable {before middle after : shape.Found}

/-- One more member has been read, or left aside. -/
def Step (shape : ObjectShape) (before : shape.Found) (member : String × JsonValue)
    (after : shape.Found) : Prop :=
  (∃ field, shape.key field = member.1 ∧ before field = none ∧
      ∃ content, shape.read field member.2 = .ok content ∧
        after = Function.update before field (some content)) ∨
    shape.isOpen ∧ (∀ field, shape.key field ≠ member.1) ∧ after = before

/-- Some members have been read, each field at most once. -/
def Adds (shape : ObjectShape) (before : shape.Found) (members : List (String × JsonValue))
    (after : shape.Found) : Prop :=
  (shape.isOpen ∨ ∀ key ∈ members.map (·.1), ∃ field, shape.key field = key) ∧
    ∀ field, ReadOnce (shape.read field) (before field) (valuesAt (shape.key field) members)
      (after field)

/-! ### From member to member -/

theorem adds_nil : shape.Adds before [] after ↔ after = before := by
  constructor
  · rintro ⟨-, hfields⟩
    exact funext hfields
  · rintro rfl
    exact ⟨Or.inr (List.forall_mem_nil _), fun _ => rfl⟩

theorem Adds.of_step {member : String × JsonValue} (hstep : shape.Step before member middle)
    (h : shape.Adds middle members after) : shape.Adds before (member :: members) after := by
  obtain ⟨hknown, hfields⟩ := h
  rcases hstep with ⟨field, hkey, hbefore, content, hread, rfl⟩ | ⟨hopen, hkeys, rfl⟩
  · refine ⟨hknown.imp_right fun hknown => List.forall_mem_cons.mpr ⟨⟨field, hkey⟩, hknown⟩,
      fun other => ?_⟩
    have hother := hfields other
    by_cases heq : other = field
    · subst heq
      rw [valuesAt_cons, if_pos hkey.symm]
      -- What has been read of the field is not read again.
      cases hvalues : valuesAt (shape.key other) members with
      | nil =>
        rw [hvalues, Function.update_self] at hother
        exact ⟨hbefore, content, hread, hother⟩
      | cons value values =>
        rw [hvalues, Function.update_self] at hother
        exact absurd hother.of_cons.2.1 (Option.some_ne_none content)
    · have hne : member.1 ≠ shape.key other := fun h =>
        heq (shape.key_injective (h.symm.trans hkey.symm))
      rw [Function.update_of_ne heq] at hother
      rwa [valuesAt_cons, if_neg hne]
  · refine ⟨Or.inl hopen, fun other => ?_⟩
    rw [valuesAt_cons, if_neg (hkeys other).symm]
    exact hfields other

theorem Adds.exists_step {member : String × JsonValue}
    (h : shape.Adds before (member :: members) after) :
    ∃ middle, shape.Step before member middle ∧ shape.Adds middle members after := by
  obtain ⟨hknown, hfields⟩ := h
  rw [List.map_cons] at hknown
  have hrest : shape.isOpen ∨ ∀ key ∈ members.map (·.1), ∃ field, shape.key field = key :=
    hknown.imp_right fun hknown => (List.forall_mem_cons.mp hknown).2
  by_cases hkey : ∃ field, shape.key field = member.1
  · obtain ⟨field, hkey⟩ := hkey
    have hfield := hfields field
    rw [valuesAt_cons, if_pos hkey.symm] at hfield
    obtain ⟨hvalues, hbefore, content, hread, hafter⟩ := hfield.of_cons
    refine ⟨_, Or.inl ⟨field, hkey, hbefore, content, hread, rfl⟩, hrest, fun other => ?_⟩
    by_cases heq : other = field
    · subst heq
      rw [hvalues, Function.update_self]
      exact hafter
    · have hne : member.1 ≠ shape.key other := fun h =>
        heq (shape.key_injective (h.symm.trans hkey.symm))
      have hother := hfields other
      rwa [valuesAt_cons, if_neg hne, ← Function.update_of_ne heq (some content) before] at hother
  · have hopen : shape.isOpen := by
      rcases hknown with hopen | hknown
      · exact hopen
      · exact absurd (hknown member.1 List.mem_cons_self) hkey
    have hkeys : ∀ field, shape.key field ≠ member.1 := not_exists.mp hkey
    refine ⟨before, Or.inr ⟨hopen, hkeys, rfl⟩, hrest, fun other => ?_⟩
    have hother := hfields other
    rwa [valuesAt_cons, if_neg (hkeys other).symm] at hother

/-! ### Other members -/

/-- **The order of members does not matter.** -/
theorem Adds.perm (h : shape.Adds before members after) (hperm : members.Perm members') :
    shape.Adds before members' after :=
  ⟨h.1.imp_right fun hknown key hkey => hknown key ((hperm.map _).mem_iff.mpr hkey),
    fun field => (h.2 field).perm (valuesAt_perm hperm _)⟩

/-- A member with another key is left aside, where members are. -/
theorem Adds.insert (h : shape.Adds before (front ++ back) after) (hopen : shape.isOpen)
    (hkey : ∀ field, shape.key field ≠ key) (value : JsonValue) :
    shape.Adds before (front ++ (key, value) :: back) after := by
  refine ⟨Or.inl hopen, fun field => ?_⟩
  rw [valuesAt_insert_ne (hkey field).symm]
  exact h.2 field

theorem not_adds_unknown (hclosed : ¬shape.isOpen) (hkey : ∀ field, shape.key field ≠ key) :
    ¬shape.Adds before (front ++ (key, value) :: back) after := by
  rintro ⟨hopen | hknown, -⟩
  · exact hclosed hopen
  · obtain ⟨field, hfield⟩ := hknown key (by simp)
    exact hkey field hfield

/-- No field is read twice. -/
theorem not_adds_repeated (field : shape.Field)
    (hkey : shape.key field ∈ (front ++ back).map (·.1)) :
    ¬shape.Adds before (front ++ (shape.key field, value) :: back) after := by
  rintro ⟨-, hfields⟩
  have hfield := hfields field
  rw [valuesAt_insert_self] at hfield
  obtain ⟨hfront, hback⟩ := hfield.of_append
  refine valuesAt_ne_nil hkey ?_
  rw [valuesAt_append, hfront, hback, List.append_nil]

/-- **A member counts for what is read of it.**  What was read of a field is read of any other
value that leads to the same. -/
theorem Adds.member {field : shape.Field}
    (h : shape.Adds before (front ++ (shape.key field, value) :: back) after) :
    ∃ content, shape.read field value = .ok content ∧
      ∀ value', shape.read field value' = .ok content →
        shape.Adds before (front ++ (shape.key field, value') :: back) after := by
  obtain ⟨hknown, hfields⟩ := h
  have hfield := hfields field
  rw [valuesAt_insert_self] at hfield
  obtain ⟨hfront, hback⟩ := hfield.of_append
  rw [hfront, hback, List.nil_append] at hfield
  obtain ⟨-, hbefore, content, hread, hafter⟩ := hfield.of_cons
  refine ⟨content, hread, fun value' hvalue' => ⟨by simpa using hknown, fun other => ?_⟩⟩
  by_cases heq : other = field
  · subst heq
    rw [valuesAt_insert_self, hfront, hback]
    exact ⟨hbefore, content, hvalue', hafter⟩
  · have hne : shape.key field ≠ shape.key other := fun h => heq (shape.key_injective h.symm)
    have hother := hfields other
    rwa [valuesAt_insert_ne hne] at hother ⊢

/-- A member that is left aside may have any value. -/
theorem Adds.aside (h : shape.Adds before (front ++ (key, value) :: back) after)
    (hkey : ∀ field, shape.key field ≠ key) (value' : JsonValue) :
    shape.Adds before (front ++ (key, value') :: back) after := by
  obtain ⟨hknown, hfields⟩ := h
  refine ⟨by simpa using hknown, fun field => ?_⟩
  have hfield := hfields field
  rwa [valuesAt_insert_ne (hkey field).symm] at hfield ⊢

end ObjectShape

/-! ### Readers -/

/-- A reader of objects that goes from member to member.  A field that has been read is not read
again. -/
structure ObjectReader (shape : ObjectShape) (σ : Type) where
  found : σ ≃ shape.Found
  step : σ → String × JsonValue → Except Mismatch σ
  step_field (state : σ) (field : shape.Field) (value : JsonValue) :
    step state (shape.key field, value) =
      if (found state field).isSome then .error (.duplicateField (shape.key field))
      else (shape.read field value).map fun content =>
        found.symm (Function.update (found state) field (some content))
  step_other (state : σ) (member : String × JsonValue) (next : σ)
    (hkeys : ∀ field, shape.key field ≠ member.1) :
    step state member = .ok next ↔ shape.isOpen ∧ next = state

namespace ObjectReader

variable {shape : ObjectShape} {σ : Type}

theorem step_eq_ok_iff (reader : ObjectReader shape σ) {state next : σ}
    {member : String × JsonValue} :
    reader.step state member = .ok next ↔
      shape.Step (reader.found state) member (reader.found next) := by
  obtain ⟨key, value⟩ := member
  constructor
  · intro h
    by_cases hkey : ∃ field, shape.key field = key
    · obtain ⟨field, rfl⟩ := hkey
      rw [reader.step_field] at h
      split at h
      · cases h
      · rename_i hnone
        cases hread : shape.read field value with
        | error error =>
          rw [hread] at h
          cases h
        | ok content =>
          rw [hread] at h
          rw [← Except.ok.inj h, Equiv.apply_symm_apply]
          exact Or.inl ⟨field, rfl, Option.not_isSome_iff_eq_none.mp hnone, content, hread, rfl⟩
    · obtain ⟨hopen, rfl⟩ := (reader.step_other _ _ _ (not_exists.mp hkey)).mp h
      exact Or.inr ⟨hopen, not_exists.mp hkey, rfl⟩
  · rintro (⟨field, rfl, hnone, content, hread, hnext⟩ | ⟨hopen, hkeys, hnext⟩)
    · rw [reader.step_field, hnone, hread, ← Equiv.symm_apply_apply reader.found next, hnext]
      rfl
    · exact (reader.step_other _ _ _ hkeys).mpr ⟨hopen, reader.found.injective hnext⟩

/-- **Each field is read once.**  A reader that goes from member to member has read the values at
the keys of its fields in the end. -/
theorem foldlM_eq_ok_iff (reader : ObjectReader shape σ) {state last : σ} :
    members.foldlM reader.step state = .ok last ↔
      shape.Adds (reader.found state) members (reader.found last) := by
  induction members generalizing state with
  | nil =>
    rw [ObjectShape.adds_nil, reader.found.apply_eq_iff_eq]
    exact ⟨fun h => (Except.ok.inj h).symm, fun h => congrArg Except.ok h.symm⟩
  | cons member members ih =>
    rw [List.foldlM_cons]
    constructor
    · intro h
      obtain ⟨next, hnext, h⟩ := ok_of_bind h
      exact .of_step (reader.step_eq_ok_iff.mp hnext) (ih.mp h)
    · intro h
      obtain ⟨middle, hmiddle, h⟩ := h.exists_step
      obtain ⟨next, rfl⟩ := reader.found.surjective middle
      rw [reader.step_eq_ok_iff.mpr hmiddle]
      exact ih.mpr h

end ObjectReader

end PlugTaxonomy
