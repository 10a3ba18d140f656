import PlugTaxonomy.Code.Basic
import Mathlib.Algebra.Ring.Nat

/-!
# Masks and selectors

A code word is read from the top of its type field downwards.  The mask of a level keeps the
bits from the level's offset up to the top, so a mask of a level further down keeps more, and
what it keeps determines what the masks above keep.

* `bit` — the bits of a code, with one lemma for each operation;
* `masked_masked_of_le` — masks at two offsets: the higher offset decides;
* `selector` — the number that stands between an offset and a width;
* `masked_place`, `masked_place_owner` — a selector value put below an owner's code: the mask of
  the level keeps the whole code, the mask above it gives the owner back;
* `selector_place`, `selector_owner` — the selector value is read back from the code, and it is
  zero in the owner's code;
* `toNat_lt_of_masked`, `toNat_mod_of_masked` — a code that a mask keeps, as a number.
-/

namespace PlugTaxonomy.Code

/-! ### Bits -/

/-- The bit of a code at a position, `false` beyond the word. -/
def bit (c : Code) (i : Nat) : Bool :=
  c.bits.getLsbD i

theorem eq_of_bit_eq {c d : Code} (h : ∀ i, c.bit i = d.bit i) : c = d := by
  cases c with
  | mk x =>
    cases d with
    | mk y =>
      have hxy : x = y := BitVec.eq_of_getLsbD_eq fun i _ => h i
      rw [hxy]

@[simp] theorem bit_masked (c mask : Code) (i : Nat) :
    (c.masked mask).bit i = (c.bit i && mask.bit i) := by
  simp only [bit, masked, BitVec.getLsbD_and]

@[simp] theorem bit_union (c d : Code) (i : Nat) : (c.union d).bit i = (c.bit i || d.bit i) := by
  simp only [bit, union, BitVec.getLsbD_or]

@[simp] theorem bit_unknown (i : Nat) : unknown.bit i = false := by
  simp [bit, unknown]

@[simp] theorem bit_ofNat (n i : Nat) : (ofNat n).bit i = (decide (i < 16) && n.testBit i) := by
  simp only [bit, ofNat, BitVec.getLsbD_ofNat]

@[simp] theorem bit_categoryMask (offset typeBits i : Nat) :
    (categoryMask offset typeBits).bit i = decide (i < 16 ∧ offset ≤ i ∧ i < typeBits) := by
  rw [categoryMask, bit_ofNat, Nat.one_shiftLeft, Nat.testBit_shiftLeft,
    Nat.testBit_two_pow_sub_one]
  by_cases h : offset ≤ i
  · have hw : i - offset < typeBits - offset ↔ i < typeBits := by omega
    simp [h, hw]
  · simp [h]

theorem testBit_toNat (c : Code) (i : Nat) : c.toNat.testBit i = c.bit i :=
  BitVec.testBit_toNat c.bits

/-! ### Masks of levels -/

theorem typeMask_eq_categoryMask : typeMask = categoryMask 0 maxTypeBits := rfl

@[simp] theorem masked_unknown (c : Code) : c.masked unknown = unknown := by
  apply eq_of_bit_eq
  intro i
  simp

@[simp] theorem unknown_masked (mask : Code) : unknown.masked mask = unknown := by
  apply eq_of_bit_eq
  intro i
  simp

theorem masked_masked (c mask mask' : Code) :
    (c.masked mask).masked mask' = c.masked (mask.masked mask') := by
  apply eq_of_bit_eq
  intro i
  simp only [bit_masked, Bool.and_assoc]

theorem masked_self (c : Code) : c.masked c = c := by
  apply eq_of_bit_eq
  intro i
  rw [bit_masked, Bool.and_self]

/-- Two masks have the bits in common that both have. -/
theorem categoryMask_masked (low high low' high' : Nat) :
    (categoryMask low high).masked (categoryMask low' high') =
      categoryMask (max low low') (min high high') := by
  apply eq_of_bit_eq
  intro i
  rw [bit_masked, bit_categoryMask, bit_categoryMask, bit_categoryMask, ← Bool.decide_and,
    decide_eq_decide]
  omega

/-- Of two masks of one type field the one with the higher offset decides. -/
theorem masked_masked_of_le (c : Code) {low high : Nat} (typeBits : Nat) (h : low ≤ high) :
    (c.masked (categoryMask low typeBits)).masked (categoryMask high typeBits) =
      c.masked (categoryMask high typeBits) := by
  rw [masked_masked, categoryMask_masked, Nat.max_eq_right h, Nat.min_self]

/-- A code within the type field has neither direction nor command flag. -/
theorem typeCode_eq_self {c : Code} {offset typeBits : Nat} (h : typeBits ≤ maxTypeBits)
    (hc : c.masked (categoryMask offset typeBits) = c) : c.typeCode = c := by
  rw [← hc, typeCode, typeMask_eq_categoryMask, masked_masked, categoryMask_masked, Nat.max_zero,
    Nat.min_eq_left h]

/-- The mask of a level does not see direction and command flag. -/
theorem typeCode_masked_categoryMask (c : Code) (offset : Nat) {typeBits : Nat}
    (h : typeBits ≤ maxTypeBits) :
    c.typeCode.masked (categoryMask offset typeBits) = c.masked (categoryMask offset typeBits) := by
  rw [typeCode, typeMask_eq_categoryMask, masked_masked, categoryMask_masked, Nat.zero_max,
    Nat.min_eq_right h]

/-- Flags that are put into a code of the type field leave its type as it is. -/
theorem typeCode_union_of_flags {c flags : Code} (hc : c.typeCode = c)
    (hflags : flags.typeCode = unknown) : (c.union flags).typeCode = c := by
  rw [typeCode] at hc hflags ⊢
  apply eq_of_bit_eq
  intro i
  have hci := congrArg (·.bit i) hc
  have hflagsi := congrArg (·.bit i) hflags
  simp only [bit_masked, bit_unknown] at hci hflagsi
  rw [bit_masked, bit_union, Bool.and_or_distrib_right, hci, hflagsi, Bool.or_false]

/-! ### Selectors -/

/-- The number that a code holds in some bits above an offset. -/
def selector (c : Code) (offset bitCount : Nat) : Nat :=
  (c.toNat >>> offset) % 2 ^ bitCount

theorem testBit_selector (c : Code) (offset bitCount i : Nat) :
    (c.selector offset bitCount).testBit i = (decide (i < bitCount) && c.bit (offset + i)) := by
  rw [selector, Nat.testBit_mod_two_pow, Nat.testBit_shiftRight, testBit_toNat]

section Place

variable {owner : Code} {offset bitCount typeBits index : Nat}

/-- The bits below an offset are free in a code that the mask of the offset keeps. -/
theorem bit_eq_false_of_masked (howner : owner.masked (categoryMask offset typeBits) = owner)
    {i : Nat} (hi : i < offset) : owner.bit i = false := by
  rw [← howner, bit_masked, bit_categoryMask]
  have hnot : ¬(i < 16 ∧ offset ≤ i ∧ i < typeBits) := by omega
  simp [hnot]

/-- A selector value has no bits outside of its selector. -/
theorem bit_selector_value (hindex : index < 2 ^ bitCount) {i : Nat}
    (hi : i < offset ∨ offset + bitCount ≤ i) : (ofNat (index <<< offset)).bit i = false := by
  rw [bit_ofNat, Nat.testBit_shiftLeft]
  rcases hi with hlow | hhigh
  · have hnot : ¬offset ≤ i := by omega
    simp [hnot]
  · have hlt : index < 2 ^ (i - offset) :=
      Nat.lt_of_lt_of_le hindex (Nat.pow_le_pow_right (by omega) (by omega))
    simp [Nat.testBit_lt_two_pow hlt]

/-- The mask of a level keeps the codes on it. -/
theorem masked_place (htype : typeBits ≤ maxTypeBits) (hfit : offset + bitCount ≤ typeBits)
    (howner : owner.masked (categoryMask (offset + bitCount) typeBits) = owner)
    (hindex : index < 2 ^ bitCount) :
    (owner.union (ofNat (index <<< offset))).masked (categoryMask offset typeBits) =
      owner.union (ofNat (index <<< offset)) := by
  apply eq_of_bit_eq
  intro i
  rw [maxTypeBits] at htype
  rw [bit_masked, bit_union]
  by_cases hi : i < 16 ∧ offset ≤ i ∧ i < typeBits
  · rw [bit_categoryMask, decide_eq_true hi, Bool.and_true]
  · have hleft : owner.bit i = false := by
      rw [← howner, bit_masked, bit_categoryMask]
      have hnot : ¬(i < 16 ∧ offset + bitCount ≤ i ∧ i < typeBits) := by omega
      simp [hnot]
    have hright : (ofNat (index <<< offset)).bit i = false :=
      bit_selector_value hindex (by omega)
    rw [hleft, hright, Bool.or_false, Bool.false_and]

/-- The mask above a level gives the owner of the codes on it. -/
theorem masked_place_owner
    (howner : owner.masked (categoryMask (offset + bitCount) typeBits) = owner)
    (hindex : index < 2 ^ bitCount) :
    (owner.union (ofNat (index <<< offset))).masked
      (categoryMask (offset + bitCount) typeBits) = owner := by
  apply eq_of_bit_eq
  intro i
  rw [bit_masked, bit_union]
  by_cases hi : offset + bitCount ≤ i
  · rw [bit_selector_value hindex (Or.inr hi), Bool.or_false, ← bit_masked, howner]
  · have hleft : owner.bit i = false := bit_eq_false_of_masked howner (by omega)
    have hmask : (categoryMask (offset + bitCount) typeBits).bit i = false := by
      rw [bit_categoryMask, decide_eq_false_iff_not]
      omega
    rw [hleft, hmask, Bool.and_false]

/-- The selector value of a code on a level is read back from it. -/
theorem selector_place (hfit : offset + bitCount ≤ 16)
    (howner : owner.masked (categoryMask (offset + bitCount) typeBits) = owner)
    (hindex : index < 2 ^ bitCount) :
    (owner.union (ofNat (index <<< offset))).selector offset bitCount = index := by
  apply Nat.eq_of_testBit_eq
  intro i
  rw [testBit_selector, bit_union]
  by_cases hi : i < bitCount
  · rw [bit_eq_false_of_masked howner (by omega), bit_ofNat, Nat.testBit_shiftLeft]
    have hword : offset + i < 16 := by omega
    simp [hi, hword]
  · have hlt : index < 2 ^ i :=
      Nat.lt_of_lt_of_le hindex (Nat.pow_le_pow_right (by omega) (by omega))
    simp [hi, Nat.testBit_lt_two_pow hlt]

/-- The owner of a level leaves the selector of the level at zero. -/
theorem selector_owner
    (howner : owner.masked (categoryMask (offset + bitCount) typeBits) = owner) :
    owner.selector offset bitCount = 0 := by
  apply Nat.eq_of_testBit_eq
  intro i
  rw [testBit_selector, Nat.zero_testBit]
  by_cases hi : i < bitCount
  · rw [bit_eq_false_of_masked howner (by omega), Bool.and_false]
  · simp [hi]

end Place

/-! ### Codes as numbers -/

section Number

variable {c : Code} {offset typeBits : Nat}

/-- A code that a mask keeps has no bit beyond the type field of the mask. -/
theorem toNat_lt_of_masked (h : c.masked (categoryMask offset typeBits) = c) :
    c.toNat < 2 ^ typeBits := by
  refine Nat.lt_pow_two_of_testBit _ fun i hi => ?_
  rw [testBit_toNat, ← h, bit_masked, bit_categoryMask]
  have hnot : ¬(i < 16 ∧ offset ≤ i ∧ i < typeBits) := by omega
  simp [hnot]

/-- A code that a mask keeps has no bit below the offset of the mask. -/
theorem toNat_mod_of_masked (h : c.masked (categoryMask offset typeBits) = c) :
    c.toNat % 2 ^ offset = 0 := by
  apply Nat.eq_of_testBit_eq
  intro i
  rw [Nat.testBit_mod_two_pow, Nat.zero_testBit, testBit_toNat]
  by_cases hi : i < offset
  · rw [bit_eq_false_of_masked h hi, Bool.and_false]
  · simp [hi]

/-- The mask of the whole type field leaves the same of two codes if they have the same lowest bits. -/
theorem masked_field_eq_iff {c' : Code} :
    c.masked (categoryMask 0 typeBits) = c'.masked (categoryMask 0 typeBits) ↔
      c.toNat % 2 ^ typeBits = c'.toNat % 2 ^ typeBits := by
  have hbit : ∀ (d : Code) (i : Nat), (d.masked (categoryMask 0 typeBits)).bit i =
      (d.toNat % 2 ^ typeBits).testBit i := by
    intro d i
    rw [bit_masked, bit_categoryMask, Nat.testBit_mod_two_pow, testBit_toNat, Bool.and_comm]
    by_cases hword : i < 16
    · simp [hword]
    · have hout : d.bit i = false := BitVec.getLsbD_of_ge _ _ (Nat.le_of_not_lt hword)
      rw [hout, Bool.and_false, Bool.and_false]
  constructor
  · intro h
    apply Nat.eq_of_testBit_eq
    intro i
    rw [← hbit, ← hbit, h]
  · intro h
    apply eq_of_bit_eq
    intro i
    rw [hbit, hbit, h]

/-- A number of the word's width is put into a code bit by bit. -/
theorem toNat_union_ofNat (c : Code) {n : Nat} (h : n < 2 ^ 16) :
    (c.union (ofNat n)).toNat = c.toNat ||| n := by
  show (c.bits ||| BitVec.ofNat 16 n).toNat = c.bits.toNat ||| n
  rw [BitVec.toNat_or, BitVec.toNat_ofNat, Nat.mod_eq_of_lt h]

end Number

end PlugTaxonomy.Code
