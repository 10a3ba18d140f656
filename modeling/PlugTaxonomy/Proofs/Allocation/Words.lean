import PlugTaxonomy.Proofs.Table.UsedBits

/-!
# Allocation in words of fixed width

A table speaks of numbers of any size, but widths and offsets stand in words of 32 bits, selector
values and codes in words of 16.  Here allocation is carried out in such words, each operation being
checked: it fails where its result leaves the word.

* `WordFault`, `Word.next`, `Word.sub`, `Word.shift`, `Word.narrow` — operations on words, and what
  can be wrong with them;
* `enterLevelInWords`, `allocateNodesInWords`, `allocateInWords` — allocation in words, each
  operation in its place among the checks;
* `enterLevelInWords_bind` — on one level the checks come before all that they are needed for;
* `allocateNodesInWords_eq` — types on a level with enough room are placed without a fault, and so
  are all types below them;
* `allocate_in_range` — no schema leads to a fault, accepted or not, and used bits fit as well.

The first check keeps the type field within 13 bits, so it is the widths of the levels and the
numbers of their types that have to be kept in range by the checks of the levels.
-/

namespace PlugTaxonomy

/-! ### Words -/

/-- What is wrong with an operation on words. -/
inductive WordFault where
  /-- A sum does not fit into the word. -/
  | overflow
  /-- More is taken away than there is. -/
  | underflow
  /-- A word is shifted by its width or more. -/
  | wideShift
  /-- A bit that is set drops out. -/
  | lostBit
  deriving DecidableEq, Repr

/-- The result of some operations on words, or what is wrong with the first one that leaves its
word. -/
abbrev Checked : Type → Type :=
  Except WordFault

namespace Word

variable {w : Nat}

/-- The word that counts one more. -/
def next (x : BitVec w) : Checked (BitVec w) :=
  if 2 ^ w ≤ x.toNat + 1 then .error .overflow else .ok (x + 1)

/-- The difference of two words. -/
def sub (x y : BitVec w) : Checked (BitVec w) :=
  if x.toNat < y.toNat then .error .underflow else .ok (x - y)

/-- A word shifted towards its top. -/
def shift (x : BitVec w) (places : BitVec 32) : Checked (BitVec w) :=
  if w ≤ places.toNat then .error .wideShift
  else if 2 ^ w ≤ x.toNat <<< places.toNat then .error .lostBit
  else .ok (x <<< places.toNat)

/-- The lowest bits of a word. -/
def narrow (v : Nat) (x : BitVec w) : Checked (BitVec v) :=
  if 2 ^ v ≤ x.toNat then .error .lostBit else .ok (x.setWidth v)

/-- A word with some of its lowest bits set: a power of two less one. -/
def ones (width : BitVec 32) : Checked (BitVec 32) := do
  let power ← shift 1#32 width
  sub power 1#32

theorem toNat_ofNat_of_lt {n : Nat} (h : n < 2 ^ w) : (BitVec.ofNat w n).toNat = n := by
  rw [BitVec.toNat_ofNat, Nat.mod_eq_of_lt h]

theorem ofNat_toNat (x : BitVec w) : BitVec.ofNat w x.toNat = x := by
  rw [BitVec.ofNat_toNat, BitVec.setWidth_eq]

theorem next_ofNat {n : Nat} (h : n + 1 < 2 ^ w) :
    next (.ofNat w n) = .ok (.ofNat w (n + 1)) := by
  rw [next, toNat_ofNat_of_lt (Nat.lt_of_succ_lt h), if_neg (Nat.not_le.mpr h), BitVec.ofNat_add]
  rfl

theorem sub_ofNat {m n : Nat} (h : n ≤ m) (hm : m < 2 ^ w) :
    sub (.ofNat w m) (.ofNat w n) = .ok (.ofNat w (m - n)) := by
  have hn : n < 2 ^ w := Nat.lt_of_le_of_lt h hm
  rw [sub, toNat_ofNat_of_lt hm, toNat_ofNat_of_lt hn, if_neg (Nat.not_lt.mpr h),
    BitVec.ofNat_sub_ofNat_of_le _ _ hn h]

theorem shift_ofNat {n places : Nat} (hplaces : places < w) (hword : places < 2 ^ 32)
    (h : n <<< places < 2 ^ w) :
    shift (.ofNat w n) (.ofNat 32 places) = .ok (.ofNat w (n <<< places)) := by
  have hle : n ≤ n <<< places := by
    rw [Nat.shiftLeft_eq]
    exact Nat.le_mul_of_pos_right n (Nat.two_pow_pos places)
  have hn : (BitVec.ofNat w n).toNat = n := toNat_ofNat_of_lt (Nat.lt_of_le_of_lt hle h)
  rw [shift, toNat_ofNat_of_lt hword, if_neg (Nat.not_le.mpr hplaces), hn,
    if_neg (Nat.not_le.mpr h), Except.ok.injEq]
  apply BitVec.eq_of_toNat_eq
  rw [BitVec.toNat_shiftLeft, hn, BitVec.toNat_ofNat]

theorem narrow_ofNat {v n : Nat} (hn : n < 2 ^ w) (h : n < 2 ^ v) :
    narrow v (.ofNat w n) = .ok (.ofNat v n) := by
  rw [narrow, toNat_ofNat_of_lt hn, if_neg (Nat.not_le.mpr h), Except.ok.injEq]
  apply BitVec.eq_of_toNat_eq
  rw [BitVec.toNat_setWidth, toNat_ofNat_of_lt hn, BitVec.toNat_ofNat]

theorem ones_ofNat {width : Nat} (h : width < 32) :
    ones (.ofNat 32 width) = .ok (.ofNat 32 (1 <<< width - 1)) := by
  have hpower : 1 <<< width < 2 ^ 32 := by
    rw [Nat.one_shiftLeft]
    exact Nat.pow_lt_pow_right (by decide) h
  have hpos : 1 ≤ 1 <<< width := by
    rw [Nat.one_shiftLeft]
    exact Nat.two_pow_pos width
  rw [ones, shift_ofNat h (by omega) hpower]
  exact sub_ofNat hpos hpower

/-- A selector of 32 bits is too wide for a word: without the check that a level fits, schemas could
ask for one. -/
example : ones 32#32 = .error .wideShift := by decide

end Word

/-- The mask from an offset up to the top of a field of type bits. -/
def categoryMaskInWords (offset typeBits : BitVec 32) : Checked Code := do
  let width ← Word.sub typeBits offset
  let ones ← Word.ones width
  let mask ← Word.shift ones offset
  return ⟨← Word.narrow 16 mask⟩

/-- What is shifted to an offset stays below the top of the type field if it fits in between. -/
theorem shiftLeft_lt_of_lt {n offset top : Nat} (hoffset : offset ≤ top) (htop : top ≤ 13)
    (h : n < 2 ^ (top - offset)) : n <<< offset < 2 ^ 16 := by
  calc n <<< offset
      < 2 ^ (top - offset + offset) := Nat.shiftLeft_lt h
    _ ≤ 2 ^ 16 := Nat.pow_le_pow_right (by decide) (by omega)

theorem categoryMaskInWords_eq {offset typeBits : Nat} (hoffset : offset ≤ typeBits)
    (htype : typeBits ≤ 13) :
    categoryMaskInWords (.ofNat 32 offset) (.ofNat 32 typeBits) =
      .ok (Code.categoryMask offset typeBits) := by
  have hones : 1 <<< (typeBits - offset) - 1 < 2 ^ (typeBits - offset) := by
    rw [Nat.one_shiftLeft]
    exact Nat.sub_lt (Nat.two_pow_pos _) Nat.one_pos
  have hmask := shiftLeft_lt_of_lt hoffset htype hones
  have hword : (2 : Nat) ^ 16 ≤ 2 ^ 32 := by decide
  rw [categoryMaskInWords, Word.sub_ofNat hoffset (by omega)]
  have hwidth : typeBits - offset < 32 := by omega
  have hplaces : offset < 32 := by omega
  -- the mask is shifted in a wide word and has to fit into the narrow one as well
  simp only [bind, Except.bind, pure, Except.pure, Word.ones_ofNat hwidth,
    Word.shift_ofNat hplaces (by omega) (Nat.lt_of_lt_of_le hmask hword),
    Word.narrow_ofNat (Nat.lt_of_lt_of_le hmask hword) hmask]
  rfl

/-! ### Allocation -/

/-- Allocation in words: a schema may be refused, and an operation may leave its word. -/
abbrev Allocating : Type → Type :=
  ExceptT AllocationError Checked

/-- An outcome that no operation on words stands in the way of. -/
def settled {α : Type} (outcome : Except AllocationError α) : Allocating α :=
  ExceptT.mk (.ok outcome)

theorem settled_bind {α β : Type} (outcome : Except AllocationError α)
    (rest : α → Except AllocationError β) :
    (settled outcome >>= fun a => settled (rest a)) = settled (outcome >>= rest) := by
  cases outcome <;> rfl

/-- What operations on words result in is handed on. -/
theorem liftM_ok_bind {α β : Type} (a : α) (rest : α → Allocating β) :
    (liftM (Except.ok a : Checked α) >>= rest) = rest a :=
  rfl

/-- The checks of the names on a level, which come last. -/
def checkNames (path : String) (types : List TypeNode) : Except AllocationError Unit :=
  match (declaredNames types).find? (!isIdentifier ·) with
  | some name => .error (.invalidName path name)
  | none =>
    match firstRepeated? ∅ (types.map (·.value.name)) with
    | some name => .error (.duplicateName path name)
    | none => .ok ()

/-- The checks of one level.  The number of types that its selector tells apart is computed once the
level is known to fit. -/
def checkLevelInWords (owner : List String) (remaining bitCount : BitVec 32)
    (types : List TypeNode) : Allocating Unit :=
  let path := ownerPath owner
  if remaining.toNat < bitCount.toNat then
    throw (.insufficientBits path bitCount.toNat remaining.toNat)
  else if types.isEmpty then throw (.emptyCategory path)
  else do
    let capacity ← Word.ones bitCount
    if capacity.toNat < types.length then
      throw (.categoryOverflow path types.length bitCount.toNat capacity.toNat)
    else settled (checkNames path types)

/-- The place of a level below the bits that are taken already. -/
def Layout.placeInWords (typeBits : BitVec 32) (owner : List String)
    (remaining bitCount : BitVec 32) : Checked Layout := do
  let offset ← Word.sub remaining bitCount
  let mask ← categoryMaskInWords offset typeBits
  return { names := owner, offset := offset.toNat, bitCount := bitCount.toNat, mask }

/-- A level that is checked and given its place. -/
def enterLevelInWords (typeBits : BitVec 32) (owner : List String) (remaining bitCount : BitVec 32)
    (types : List TypeNode) : Allocating Layout := do
  checkLevelInWords owner remaining bitCount types
  Layout.placeInWords typeBits owner remaining bitCount

/-- The slot of a type on a level. -/
def Slot.placeInWords (layout : Layout) (owner : Code) (index : BitVec 16) (info : TypeInfo) :
    Checked Slot := do
  let selector ← Word.shift index (.ofNat 32 layout.offset)
  return { info, names := layout.names ++ [info.name], index := index.toNat,
           code := owner.union ⟨selector⟩, categoryMask := layout.mask }

mutual

/-- The codes of a type and all types below it. -/
def allocateNodeInWords (typeBits : BitVec 32) (layout : Layout) (owner : Code)
    (index : BitVec 16) : TypeNode → Allocating TableNode
  | .leaf info => do
    let slot ← Slot.placeInWords layout owner index info
    return .leaf slot
  | .branch info bitCount children => do
    let slot ← Slot.placeInWords layout owner index info
    let below ← enterLevelInWords typeBits slot.names (.ofNat 32 layout.offset)
      bitCount.toBitVec children
    let nodes ← allocateNodesInWords typeBits below slot.code 1#16 children
    return .branch slot below nodes

/-- The codes of siblings.  The counter of selector values goes on as soon as a value is taken from
it. -/
def allocateNodesInWords (typeBits : BitVec 32) (layout : Layout) (owner : Code)
    (index : BitVec 16) : List TypeNode → Allocating (List TableNode)
  | [] => return []
  | type :: types => do
    let following ← Word.next index
    let node ← allocateNodeInWords typeBits layout owner index type
    let nodes ← allocateNodesInWords typeBits layout owner following types
    return node :: nodes

end

/-- The tree of a schema with its codes. -/
def allocateLevelsInWords (schema : Schema) : Allocating CodeTable := do
  let typeBits := schema.typeBits.toBitVec
  let root ← enterLevelInWords typeBits [] typeBits schema.bitCount.toBitVec schema.types
  let nodes ← allocateNodesInWords typeBits root .unknown 1#16 schema.types
  return { typeBits := schema.typeBits.toNat, root, nodes }

/-- The code table of a schema. -/
def allocateInWords (schema : Schema) : Allocating CodeTable := do
  if Code.maxTypeBits < schema.typeBits.toNat then
    throw (.typeBitsTooWide schema.typeBits.toNat Code.maxTypeBits)
  let table ← allocateLevelsInWords schema
  settled (checkClaims takenNames table.claims)
  return table

/-- The number of type bits that the deepest path takes. -/
def CodeTable.usedBitsInWords (table : CodeTable) : Checked (BitVec 32) :=
  Word.sub (.ofNat 32 table.typeBits)
    (.ofNat 32 (TableNode.leastOffsets table.root.offset table.nodes))

/-! ### One level -/

/-- The checks of a level compute no number but one that they have found to be in range. -/
theorem checkLevelInWords_eq (owner : List String) {remaining : Nat} (hremaining : remaining ≤ 13)
    (bitCount : BitVec 32) (types : List TypeNode) :
    checkLevelInWords owner (.ofNat 32 remaining) bitCount types =
      settled (checkLevel owner remaining bitCount.toNat types) := by
  have hword : (BitVec.ofNat 32 remaining).toNat = remaining :=
    Word.toNat_ofNat_of_lt (by omega)
  rw [checkLevelInWords, checkLevel, hword]
  split
  · rfl
  · rename_i hfits
    split
    · rfl
    · -- the level fits into a type field of 13 bits, so a word has room for its capacity
      have hones : Word.ones bitCount = .ok (.ofNat 32 (capacity bitCount.toNat)) := by
        conv_lhs => rw [← Word.ofNat_toNat bitCount]
        exact Word.ones_ofNat (by omega)
      have hcapacity :
          (BitVec.ofNat 32 (capacity bitCount.toNat)).toNat = capacity bitCount.toNat := by
        have hlt : 2 ^ bitCount.toNat < 2 ^ 32 := Nat.pow_lt_pow_right (by decide) (by omega)
        rw [capacity_eq]
        exact Word.toNat_ofNat_of_lt (by omega)
      rw [hones, liftM_ok_bind, hcapacity]
      split <;> rfl

section Level

variable {typeBits remaining : Nat} (htype : typeBits ≤ 13) (hremaining : remaining ≤ typeBits)
include htype hremaining

theorem Layout.placeInWords_eq (owner : List String) {bitCount : BitVec 32}
    (hfits : bitCount.toNat ≤ remaining) :
    Layout.placeInWords (.ofNat 32 typeBits) owner (.ofNat 32 remaining) bitCount =
      .ok (Layout.place typeBits owner remaining bitCount.toNat) := by
  have hoffset : Word.sub (.ofNat 32 remaining) bitCount =
      .ok (.ofNat 32 (remaining - bitCount.toNat)) := by
    conv_lhs => rw [← Word.ofNat_toNat bitCount]
    exact Word.sub_ofNat hfits (by omega)
  have hle : remaining - bitCount.toNat ≤ typeBits := Nat.le_trans (Nat.sub_le _ _) hremaining
  have hmask := categoryMaskInWords_eq hle htype
  have hword : (BitVec.ofNat 32 (remaining - bitCount.toNat)).toNat = remaining - bitCount.toNat :=
    Word.toNat_ofNat_of_lt (by omega)
  rw [Layout.placeInWords, hoffset]
  simp only [bind, Except.bind, hmask, hword]
  rfl

/-- A level is checked before its place is computed, and what comes next may rely on the checks. -/
theorem enterLevelInWords_bind {α : Type} (owner : List String) (bitCount : BitVec 32)
    (types : List TypeNode) {rest : Layout → Allocating α} {outcome : Except AllocationError α}
    (hrest : LevelPasses remaining bitCount.toNat types →
      rest (Layout.place typeBits owner remaining bitCount.toNat) = settled outcome) :
    (enterLevelInWords (.ofNat 32 typeBits) owner (.ofNat 32 remaining) bitCount types >>= rest) =
      settled (checkLevel owner remaining bitCount.toNat types >>= fun _ => outcome) := by
  rw [enterLevelInWords, checkLevelInWords_eq owner (Nat.le_trans hremaining htype)]
  cases hcheck : checkLevel owner remaining bitCount.toNat types with
  | error error => rfl
  | ok u =>
    have hpasses := (checkLevel_eq_ok_iff _ _ _ _).mp hcheck
    rw [Layout.placeInWords_eq htype hremaining owner hpasses.fits]
    exact hrest hpasses

end Level

/-- Types on a level that passes its checks have room below the bits of the owner's level. -/
theorem LevelPasses.room_shift {remaining bitCount : Nat} {types : List TypeNode}
    (h : LevelPasses remaining bitCount types) (hremaining : remaining ≤ 13) :
    1 + types.length ≤ 2 ^ (13 - (remaining - bitCount)) := by
  have hroom := h.room
  have hfits := h.fits
  have hpos := Nat.two_pow_pos bitCount
  calc 1 + types.length
      ≤ 2 ^ bitCount := by omega
    _ ≤ 2 ^ (13 - (remaining - bitCount)) := Nat.pow_le_pow_right (by decide) (by omega)

theorem Slot.placeInWords_eq {layout : Layout} (hoffset : layout.offset ≤ 13) (owner : Code)
    {index : Nat} (hindex : index < 2 ^ (13 - layout.offset)) (info : TypeInfo) :
    Slot.placeInWords layout owner (.ofNat 16 index) info =
      .ok (Slot.place layout owner index info) := by
  have hword : index < 2 ^ 16 :=
    Nat.lt_of_lt_of_le hindex (Nat.pow_le_pow_right (by decide) (by omega))
  rw [Slot.placeInWords, Word.shift_ofNat (by omega) (by omega)
    (shiftLeft_lt_of_lt hoffset (Nat.le_refl 13) hindex)]
  simp only [bind, Except.bind, Word.toNat_ofNat_of_lt hword]
  rfl

/-! ### All levels -/

mutual

theorem allocateNodeInWords_eq {typeBits : Nat} (htype : typeBits ≤ 13) {layout : Layout}
    (hoffset : layout.offset ≤ typeBits) (owner : Code) {index : Nat} (type : TypeNode)
    (hindex : index < 2 ^ (13 - layout.offset)) :
    allocateNodeInWords (.ofNat 32 typeBits) layout owner (.ofNat 16 index) type =
      settled (allocateNode typeBits layout owner index type) := by
  have hslot := Slot.placeInWords_eq (Nat.le_trans hoffset htype) owner hindex
  cases type with
  | leaf info =>
    rw [allocateNodeInWords, hslot, liftM_ok_bind]
    rfl
  | branch info bitCount children =>
    rw [allocateNodeInWords, hslot, liftM_ok_bind, allocateNode]
    refine enterLevelInWords_bind htype hoffset _ bitCount.toBitVec children fun hpasses => ?_
    have hle : layout.offset - bitCount.toNat ≤ typeBits := Nat.le_trans (Nat.sub_le _ _) hoffset
    rw [allocateNodesInWords_eq htype hle _ children
      (hpasses.room_shift (Nat.le_trans hoffset htype))]
    exact settled_bind _ _

/-- Types that have room on their level are placed without a fault.  A level below that passes its
checks gives room to the types on it. -/
theorem allocateNodesInWords_eq {typeBits : Nat} (htype : typeBits ≤ 13) {layout : Layout}
    (hoffset : layout.offset ≤ typeBits) (owner : Code) {index : Nat} (types : List TypeNode)
    (hroom : index + types.length ≤ 2 ^ (13 - layout.offset)) :
    allocateNodesInWords (.ofNat 32 typeBits) layout owner (.ofNat 16 index) types =
      settled (allocateNodes typeBits layout owner index types) := by
  cases types with
  | nil => rfl
  | cons type types =>
    rw [List.length_cons] at hroom
    -- the counter ends one beyond the last type, which need not fit into the selector any more
    have hword : index + 1 < 2 ^ 16 := by
      have hle : 2 ^ (13 - layout.offset) ≤ 2 ^ 13 := Nat.pow_le_pow_right (by decide) (by omega)
      omega
    rw [allocateNodesInWords, Word.next_ofNat hword, liftM_ok_bind,
      allocateNodeInWords_eq htype hoffset owner type (by omega),
      allocateNodesInWords_eq htype hoffset owner types (by omega), allocateNodes]
    cases allocateNode typeBits layout owner index type with
    | error error => rfl
    | ok node => exact settled_bind _ _

end

theorem allocateLevelsInWords_eq {schema : Schema} (htype : schema.typeBits.toNat ≤ 13) :
    allocateLevelsInWords schema = settled (allocateLevels schema) := by
  have hbits : schema.typeBits.toBitVec = .ofNat 32 schema.typeBits.toNat :=
    (Word.ofNat_toNat _).symm
  rw [allocateLevelsInWords, allocateLevels, hbits]
  refine enterLevelInWords_bind htype (Nat.le_refl _) [] schema.bitCount.toBitVec schema.types
    fun hpasses => ?_
  rw [allocateNodesInWords_eq htype (Nat.sub_le _ _) .unknown schema.types
    (hpasses.room_shift htype)]
  exact settled_bind _ _

/-- Allocation in words comes to what allocation comes to. -/
theorem allocateInWords_eq (schema : Schema) :
    allocateInWords schema = settled (allocate schema) := by
  rw [allocateInWords, allocate]
  split
  · rfl
  · rename_i hwide
    show (allocateLevelsInWords schema >>= fun table =>
        settled (checkClaims takenNames table.claims) >>= fun _ => pure table) =
      settled (allocateLevels schema >>= fun table =>
        checkClaims takenNames table.claims >>= fun _ => pure table)
    rw [allocateLevelsInWords_eq (Nat.not_lt.mp hwide)]
    cases allocateLevels schema with
    | error error => rfl
    | ok table => exact settled_bind (checkClaims takenNames table.claims) fun _ => pure table

/-- **Allocation stays within its words.**  For no schema, accepted or refused, does an operation of
allocation overflow, underflow, shift a word by its width or more, or lose a bit: allocation in
words has an outcome, and it is the one that allocation has.  The used bits of an accepted schema do
not underflow, and they are the largest number of bits that the levels on the route to a type take.
-/
theorem allocate_in_range (schema : Schema) :
    (allocateInWords schema).run = .ok (allocate schema) ∧
      ∀ table, allocate schema = .ok table →
        ∃ used, table.usedBitsInWords = .ok used ∧ used.toNat = table.usedBits ∧
          (schema.routes.map routeBits).max? = some used.toNat := by
  refine ⟨allocateInWords_eq schema, fun table h => ?_⟩
  have htype : table.typeBits ≤ 13 := (levelPlaced_of_allocate h).fits.typeBits_le
  have hused : table.usedBits ≤ table.typeBits := Nat.sub_le _ _
  have hword : (BitVec.ofNat 32 table.usedBits).toNat = table.usedBits :=
    Word.toNat_ofNat_of_lt (by omega)
  refine ⟨.ofNat 32 table.usedBits, ?_, hword, ?_⟩
  · exact Word.sub_ofNat (leastOffset_le_typeBits h) (by omega)
  · rw [hword]
    exact usedBits_eq_max h

/-- The path to the light takes seven of nine bits. -/
theorem in_range_sample : allocate Schema.sample = .ok Schema.sample.table ∧
    (allocateInWords Schema.sample).run = .ok (.ok Schema.sample.table) ∧
    Schema.sample.table.usedBitsInWords = .ok 7#32 ∧
    (Schema.sample.routes.map routeBits).max? = some 7 := by
  obtain ⟨hwords, hused⟩ := allocate_in_range Schema.sample
  obtain ⟨used, hchecked, hnat, hmax⟩ := hused _ allocate_sample
  have hseven : Schema.sample.table.usedBits = 7 := by decide
  rw [hseven] at hnat
  have hword : used = 7#32 := BitVec.eq_of_toNat_eq hnat
  rw [allocate_sample] at hwords
  exact ⟨allocate_sample, hwords, hword ▸ hchecked, hnat ▸ hmax⟩

end PlugTaxonomy
