import PlugTaxonomy.Json.Reader
import PlugTaxonomy.Proofs.Json.Token

/-!
# Written values are read again

* `JsonValue.tokens`, `spells_compact` — the tokens of a value, for which its written form stands;
* `JsonValue.depth`, `depth_of_scan` — how deep containers are nested, and that no value that is
  read is nested deeper than the reader admits;
* `Guard.IsQuiet`, `run_tokens` — where nothing is objected to, the reader goes through the tokens
  of a value to the state behind that value;
* `scan_compact` — the written form of a value is read as that value, if the reader goes through
  its tokens.

Numbers are unsigned ones of 64 bits here: `JsonValue.IsUnsigned`.
-/

namespace PlugTaxonomy

namespace JsonValue

/-! ### Tokens -/

mutual

/-- The tokens of a value. -/
def tokens : JsonValue → List Token
  | null => [.null]
  | boolean value => [.boolean value]
  | number value => [.number value]
  | string value => [.string value]
  | array items => .openBracket :: itemTokens items
  | object members => .openBrace :: memberTokens members

/-- The tokens of the items of an array up to its end. -/
def itemTokens : List JsonValue → List Token
  | [] => [.closeBracket]
  | item :: items => item.tokens ++ moreItemTokens items

/-- The tokens of the items behind the first one up to the end. -/
def moreItemTokens : List JsonValue → List Token
  | [] => [.closeBracket]
  | item :: items => .comma :: (item.tokens ++ moreItemTokens items)

/-- The tokens of the members of an object up to its end. -/
def memberTokens : List (String × JsonValue) → List Token
  | [] => [.closeBrace]
  | (key, value) :: members =>
    .string key :: .colon :: (value.tokens ++ moreMemberTokens members)

/-- The tokens of the members behind the first one up to the end. -/
def moreMemberTokens : List (String × JsonValue) → List Token
  | [] => [.closeBrace]
  | (key, value) :: members =>
    .comma :: .string key :: .colon :: (value.tokens ++ moreMemberTokens members)

end

mutual

/-- All numbers of a value are unsigned ones of 64 bits. -/
def IsUnsigned : JsonValue → Prop
  | number value => ∃ n < UInt64.size, value = .integer (n : Nat)
  | array items => AreUnsigned items
  | object members => MembersUnsigned members
  | _ => True

/-- All numbers of some values are unsigned ones of 64 bits. -/
def AreUnsigned : List JsonValue → Prop
  | [] => True
  | value :: values => value.IsUnsigned ∧ AreUnsigned values

/-- All numbers of some members are unsigned ones of 64 bits. -/
def MembersUnsigned : List (String × JsonValue) → Prop
  | [] => True
  | (_, value) :: members => value.IsUnsigned ∧ MembersUnsigned members

end

open Numeral (Ends)

theorem ends_cons {c : Char} (h : Numeral.continues c = false) (cs : List Char) :
    Ends (c :: cs) := by
  intro d hd
  rwa [← Option.some.inj hd]

theorem ends_compactMoreItems (items : List JsonValue) : Ends (compactMoreItems items) := by
  cases items with
  | nil => exact ends_cons rfl _
  | cons item items => exact ends_cons rfl _

theorem ends_compactMoreMembers (members : List (String × JsonValue)) :
    Ends (compactMoreMembers members) := by
  cases members with
  | nil => exact ends_cons rfl _
  | cons member members => exact ends_cons rfl _

open Token (Spells)

theorem spells_member (key : String) {cs : List Char} {tokens : List Token}
    (h : Spells cs tokens) :
    Spells (Quoted.encode key ++ ':' :: cs) (.string key :: .colon :: tokens) :=
  (Spells.string key).append (.cons rfl (fun _ => rfl) h) (ends_cons rfl _)

theorem spells_close {c : Char} {token : Token} (hseparator : Token.isSeparator c = false)
    (hscan : ∀ rest, Token.scan c rest = (token, rest)) : Spells [c] [token] :=
  .single hseparator fun rest _ => hscan rest

mutual

/-- **Written values are their tokens.**  The written form of a value stands for its tokens. -/
theorem spells_compact (value : JsonValue) (h : value.IsUnsigned) :
    Spells value.compactText value.tokens := by
  cases value with
  | null => exact Spells.null
  | boolean value => exact Spells.boolean value
  | number value =>
    obtain ⟨n, hn, rfl⟩ := h
    exact Spells.number hn
  | string value => exact Spells.string value
  | array items => exact .cons rfl (fun _ => rfl) (spells_compactItems items h)
  | object members => exact .cons rfl (fun _ => rfl) (spells_compactMembers members h)

theorem spells_compactItems (items : List JsonValue) (h : AreUnsigned items) :
    Spells (compactItems items) (itemTokens items) := by
  cases items with
  | nil => exact spells_close rfl fun _ => rfl
  | cons item items =>
    exact (spells_compact item h.1).append (spells_compactMoreItems items h.2)
      (ends_compactMoreItems items)

theorem spells_compactMoreItems (items : List JsonValue) (h : AreUnsigned items) :
    Spells (compactMoreItems items) (moreItemTokens items) := by
  cases items with
  | nil => exact spells_close rfl fun _ => rfl
  | cons item items =>
    exact .cons rfl (fun _ => rfl) ((spells_compact item h.1).append
      (spells_compactMoreItems items h.2) (ends_compactMoreItems items))

theorem spells_compactMembers (members : List (String × JsonValue))
    (h : MembersUnsigned members) :
    Spells (compactMembers members) (memberTokens members) := by
  match members, h with
  | [], _ => exact spells_close rfl fun _ => rfl
  | (key, value) :: members, h =>
    have hvalue := (spells_compact value h.1).append (spells_compactMoreMembers members h.2)
      (ends_compactMoreMembers members)
    have hmember := spells_member key hvalue
    rw [compactMembers, memberTokens]
    simpa only [List.append_assoc, List.cons_append] using hmember

theorem spells_compactMoreMembers (members : List (String × JsonValue))
    (h : MembersUnsigned members) :
    Spells (compactMoreMembers members) (moreMemberTokens members) := by
  match members, h with
  | [], _ => exact spells_close rfl fun _ => rfl
  | (key, value) :: members, h =>
    have hvalue := (spells_compact value h.1).append (spells_compactMoreMembers members h.2)
      (ends_compactMoreMembers members)
    have hmember := Spells.cons (c := ',') rfl (fun _ => rfl) (spells_member key hvalue)
    rw [compactMoreMembers, moreMemberTokens]
    simpa only [List.append_assoc, List.cons_append] using hmember

end

/-! ### Depth -/

mutual

/-- How deep the containers of a value are nested. -/
def depth : JsonValue → Nat
  | array items => 1 + depths items
  | object members => 1 + memberDepths members
  | _ => 0

/-- How deep the containers of some values are nested. -/
def depths : List JsonValue → Nat
  | [] => 0
  | value :: values => max value.depth (depths values)

/-- How deep the containers of some members are nested. -/
def memberDepths : List (String × JsonValue) → Nat
  | [] => 0
  | (_, value) :: members => max value.depth (memberDepths members)

end

theorem depths_le_iff {values : List JsonValue} {n : Nat} :
    depths values ≤ n ↔ ∀ value ∈ values, value.depth ≤ n := by
  induction values with
  | nil => simp [depths]
  | cons value values ih => rw [depths, Nat.max_le, ih, List.forall_mem_cons]

theorem memberDepths_le_iff {members : List (String × JsonValue)} {n : Nat} :
    memberDepths members ≤ n ↔ ∀ member ∈ members, member.2.depth ≤ n := by
  induction members with
  | nil => simp [memberDepths]
  | cons member members ih => rw [memberDepths, Nat.max_le, ih, List.forall_mem_cons]

end JsonValue

/-! ### What is read is not nested too deep -/

/-- What has been read of an array or an object that stands in so many containers is not nested
too deep, and neither is the container itself. -/
def FitsIn (outer : Nat) (values : List JsonValue) : Prop :=
  outer < Reader.maxDepth ∧ ∀ value ∈ values, outer + 1 + value.depth ≤ Reader.maxDepth

/-- The values of an open container that have been read. -/
def Frame.values : Frame → List JsonValue
  | .array items => items
  | .object members _ => members.map (·.2)

/-- The open containers are not nested too deep, nor is what has been read of them. -/
def FramesFit : List Frame → Prop
  | [] => True
  | frame :: frames => FitsIn frames.length frame.values ∧ FramesFit frames

/-- What has been read of the innermost container is not nested too deep. -/
def Phase.Fits (outer : Nat) : Phase → Prop
  | .value => True
  | .firstItem | .firstKey => FitsIn outer []
  | .nextItem items | .afterItem items => FitsIn outer items
  | .nextKey members | .colon members _ | .afterMember members => FitsIn outer (members.map (·.2))
  | .done read _ => read.depth ≤ Reader.maxDepth

theorem FitsIn.array {outer : Nat} {items : List JsonValue} (h : FitsIn outer items) :
    outer + (JsonValue.array items.reverse).depth ≤ Reader.maxDepth := by
  have hlt := h.1
  have hitems : JsonValue.depths items.reverse ≤ Reader.maxDepth - (outer + 1) :=
    JsonValue.depths_le_iff.mpr fun item hitem => by
      have := h.2 item (List.mem_reverse.mp hitem)
      omega
  rw [JsonValue.depth]
  omega

theorem FitsIn.object {outer : Nat} {members : List (String × JsonValue)}
    (h : FitsIn outer (members.map (·.2))) :
    outer + (JsonValue.object members.reverse).depth ≤ Reader.maxDepth := by
  have hlt := h.1
  have hmembers : JsonValue.memberDepths members.reverse ≤ Reader.maxDepth - (outer + 1) :=
    JsonValue.memberDepths_le_iff.mpr fun member hmember => by
      have := h.2 member.2 (List.mem_map_of_mem (List.mem_reverse.mp hmember))
      omega
  rw [JsonValue.depth]
  omega

namespace Reader

open JsonValue

/-- Nothing that has been read is nested too deep. -/
def Fits (reader : Reader) : Prop :=
  FramesFit reader.frames ∧ reader.phase.Fits reader.frames.length

theorem length_le_of_framesFit {frames : List Frame} (h : FramesFit frames) :
    frames.length ≤ maxDepth := by
  cases frames with
  | nil => exact Nat.zero_le _
  | cons frame frames => exact h.1.1

theorem fits_complete {frames : List Frame} {value : JsonValue} (hframes : FramesFit frames)
    (hvalue : frames.length + value.depth ≤ maxDepth) : (complete frames value).Fits := by
  match frames, hframes with
  | [], _ => exact ⟨trivial, by simpa [complete, Phase.Fits] using hvalue⟩
  | .array items :: frames, hframes =>
    exact ⟨hframes.2, hframes.1.1, List.forall_mem_cons.mpr ⟨hvalue, hframes.1.2⟩⟩
  | .object members key :: frames, hframes =>
    exact ⟨hframes.2, hframes.1.1, List.forall_mem_cons.mpr ⟨hvalue, hframes.1.2⟩⟩

theorem fits_enter {frames : List Frame} {phase : Phase} {next : Reader}
    (hframes : FramesFit frames) (hphase : phase.Fits frames.length ↔ FitsIn frames.length [])
    (h : enter frames phase = .ok next) : next.Fits := by
  rw [enter] at h
  split at h
  · rename_i hlt
    rw [← Except.ok.inj h]
    exact ⟨hframes, hphase.mpr ⟨hlt, List.forall_mem_nil _⟩⟩
  · cases h

theorem fits_beginValue {guard : Guard} {frames : List Frame} {token : Token} {next : Reader}
    (hframes : FramesFit frames) (h : beginValue guard frames token = .ok next) : next.Fits := by
  have hscalar : ∀ value : JsonValue, value.depth = 0 → (complete frames value).Fits :=
    fun value hvalue => fits_complete hframes (by
      have := length_le_of_framesFit hframes
      omega)
  rw [beginValue.eq_def] at h
  split at h
  · cases h
  · split at h
    case h_5 => exact fits_enter hframes Iff.rfl h
    case h_6 => exact fits_enter hframes Iff.rfl h
    all_goals first
      | cases h; done
      | rw [← Except.ok.inj h]
        exact hscalar _ rfl

theorem fits_readKey {guard : Guard} {frames : List Frame} {members : List (String × JsonValue)}
    {token : Token} {next : Reader} (hframes : FramesFit frames)
    (hmembers : FitsIn frames.length (members.map (·.2)))
    (h : readKey guard frames members token = .ok next) : next.Fits := by
  rw [readKey.eq_def] at h
  split at h
  · split at h
    · cases h
    · rw [← Except.ok.inj h]
      exact ⟨hframes, hmembers⟩
  · cases h
  · cases h

/-- One more token does not nest anything too deep. -/
theorem fits_step (guard : Guard) (reader : Reader) (token : Token) (next : Reader)
    (hfits : reader.Fits) (h : step guard reader token = .ok next) : next.Fits := by
  obtain ⟨frames, phase⟩ := reader
  obtain ⟨hframes, hphase⟩ := hfits
  -- An item is read within a container of its own.
  have hitem : ∀ items, FitsIn frames.length items →
      beginValue guard (.array items :: frames) token = .ok next → next.Fits := by
    intro items hitems
    have hinner : FramesFit (.array items :: frames) := ⟨hitems, hframes⟩
    exact fits_beginValue hinner
  cases phase with
  | value => exact fits_beginValue hframes h
  | firstItem =>
    simp only [step] at h
    split at h
    · rw [← Except.ok.inj h]
      exact fits_complete hframes hphase.1
    · exact hitem _ hphase h
  | nextItem items =>
    simp only [step] at h
    split at h
    · cases h
    · exact hitem _ hphase h
  | afterItem items =>
    simp only [step] at h
    split at h
    · rw [← Except.ok.inj h]
      exact ⟨hframes, hphase⟩
    · rw [← Except.ok.inj h]
      exact fits_complete hframes hphase.array
    · cases h
  | firstKey =>
    simp only [step] at h
    split at h
    · rw [← Except.ok.inj h]
      exact fits_complete hframes hphase.1
    · exact fits_readKey hframes (by exact hphase) h
  | nextKey members =>
    simp only [step] at h
    split at h
    · cases h
    · exact fits_readKey hframes hphase h
  | colon members key =>
    simp only [step] at h
    split at h
    · rw [← Except.ok.inj h]
      exact ⟨⟨hphase, hframes⟩, trivial⟩
    · cases h
  | afterMember members =>
    simp only [step] at h
    split at h
    · rw [← Except.ok.inj h]
      exact ⟨hframes, hphase⟩
    · rw [← Except.ok.inj h]
      exact fits_complete hframes hphase.object
    · cases h
  | done value followed =>
    rw [← Except.ok.inj h]
    exact ⟨hframes, hphase⟩

/-- **No value that is read is nested too deep.** -/
theorem depth_of_scan {guard : Guard} {text : String} {value : JsonValue} {followed : Bool}
    (h : JsonValue.scan guard text = .ok (value, followed)) : value.depth ≤ maxDepth := by
  rw [JsonValue.scan] at h
  cases hfold : Token.fold (step guard) start text.toList with
  | error error =>
    rw [hfold] at h
    cases h
  | ok reader =>
    rw [hfold] at h
    have hfits := Token.fold_preserves Reader.Fits (fits_step guard)
      (show start.Fits from ⟨trivial, trivial⟩) hfold
    replace h : reader.finish = .ok (value, followed) := h
    rw [finish.eq_def] at h
    split at h
    · rename_i hphase
      obtain ⟨rfl, rfl⟩ := Prod.mk.inj (Except.ok.inj h)
      have hdone := hfits.2
      rw [hphase] at hdone
      exact hdone
    all_goals cases h

end Reader

/-! ### The reader goes through tokens -/

/-- Nothing is objected to within these containers. -/
def Guard.IsQuiet (guard : Guard) (frames : List Frame) : Prop :=
  ∀ inner, (∀ token, guard.onValue (inner ++ frames) token = .none) ∧
    ∀ members key, guard.onKey (inner ++ frames) members key = .none

theorem Guard.IsQuiet.cons {guard : Guard} {frames : List Frame} (h : guard.IsQuiet frames)
    (frame : Frame) : guard.IsQuiet (frame :: frames) := by
  intro inner
  have hinner := h (inner ++ [frame])
  rwa [List.append_assoc, List.singleton_append] at hinner

/-- No objection is made to a key of these members, nor to anything within its value. -/
def Guard.IsQuietOn (guard : Guard) (frames : List Frame) (members : List (String × JsonValue)) :
    Prop :=
  ∀ member ∈ members, ∀ read, guard.onKey frames read member.1 = .none ∧
    guard.IsQuiet (.object read member.1 :: frames)

theorem Guard.IsQuiet.isQuietOn {guard : Guard} {frames : List Frame} (h : guard.IsQuiet frames)
    (members : List (String × JsonValue)) : guard.IsQuietOn frames members :=
  fun member _ read => ⟨(h []).2 read member.1, h.cons _⟩

namespace Reader

open JsonValue

section Run

variable {guard : Guard} {frames : List Frame}

/-- An item is read as a value within the array that it belongs to. -/
theorem run_item (item : JsonValue) (items : List JsonValue) :
    item.tokens.foldlM (step guard) ⟨frames, .nextItem items⟩ =
        item.tokens.foldlM (step guard) ⟨.array items :: frames, .value⟩ ∧
      item.tokens.foldlM (step guard) ⟨frames, .firstItem⟩ =
        item.tokens.foldlM (step guard) ⟨.array [] :: frames, .value⟩ := by
  cases item <;> exact ⟨rfl, rfl⟩

/-- A key with its colon leads to the value of the member. -/
theorem run_key {members : List (String × JsonValue)} {key : String}
    (hkey : guard.onKey frames members key = none) (tokens : List Token) :
    (Token.string key :: .colon :: tokens).foldlM (step guard) ⟨frames, .nextKey members⟩ =
        tokens.foldlM (step guard) ⟨.object members key :: frames, .value⟩ := by
  have hstep : step guard ⟨frames, .nextKey members⟩ (.string key) =
      .ok ⟨frames, .colon members key⟩ := by
    simp only [step, readKey, hkey, reduceCtorEq, if_false]
  rw [List.foldlM_cons, hstep]
  rfl

/-- The first key is read like those behind it. -/
theorem step_firstKey (key : String) :
    step guard ⟨frames, .firstKey⟩ (.string key) = step guard ⟨frames, .nextKey []⟩ (.string key) :=
  rfl

theorem enter_of_depth {depth : Nat} (h : frames.length + (1 + depth) ≤ maxDepth)
    (phase : Phase) : enter frames phase = .ok ⟨frames, phase⟩ :=
  if_pos (by omega)

/-- The first token of a value is not objected to. -/
theorem step_value (hquiet : guard.IsQuiet frames) (token : Token) :
    step guard ⟨frames, .value⟩ token = beginValue .none frames token := by
  have hnone : guard.onValue frames token = none := (hquiet []).1 token
  show beginValue guard frames token = _
  rw [beginValue.eq_def, hnone]
  rfl

mutual

/-- **The reader goes through the tokens of a value**, where nothing is objected to and the value
is not nested too deep there. -/
theorem run_tokens (value : JsonValue) {frames : List Frame} (hquiet : guard.IsQuiet frames)
    (hdepth : frames.length + value.depth ≤ maxDepth) :
    value.tokens.foldlM (step guard) ⟨frames, .value⟩ = .ok (complete frames value) := by
  match value, hdepth with
  | .null, _ | .boolean _, _ | .number _, _ | .string _, _ =>
    rw [tokens, List.foldlM_cons, step_value hquiet]
    rfl
  | .array items, hdepth =>
    rw [tokens, List.foldlM_cons, step_value hquiet]
    show (enter frames .firstItem).bind _ = _
    rw [enter_of_depth hdepth]
    exact run_itemTokens items hquiet hdepth
  | .object members, hdepth =>
    rw [tokens, List.foldlM_cons, step_value hquiet]
    show (enter frames .firstKey).bind _ = _
    rw [enter_of_depth hdepth]
    exact run_memberTokens members (hquiet.isQuietOn members) hdepth

theorem run_itemTokens (items : List JsonValue) {frames : List Frame}
    (hquiet : guard.IsQuiet frames) (hdepth : frames.length + (1 + depths items) ≤ maxDepth) :
    (itemTokens items).foldlM (step guard) ⟨frames, .firstItem⟩ =
      .ok (complete frames (.array items)) := by
  match items, hdepth with
  | [], _ => rfl
  | item :: items, hdepth =>
    rw [depths] at hdepth
    rw [itemTokens, List.foldlM_append, (run_item item []).2,
      run_tokens item (hquiet.cons _) (by rw [List.length_cons]; omega)]
    exact run_moreItemTokens items [item] hquiet (by omega)

theorem run_moreItemTokens (items read : List JsonValue) {frames : List Frame}
    (hquiet : guard.IsQuiet frames) (hdepth : frames.length + (1 + depths items) ≤ maxDepth) :
    (moreItemTokens items).foldlM (step guard) ⟨frames, .afterItem read⟩ =
      .ok (complete frames (.array (read.reverse ++ items))) := by
  match items, hdepth with
  | [], _ =>
    rw [List.append_nil]
    rfl
  | item :: items, hdepth =>
    rw [depths] at hdepth
    rw [moreItemTokens, List.foldlM_cons]
    show (item.tokens ++ moreItemTokens items).foldlM (step guard) ⟨frames, .nextItem read⟩ = _
    rw [List.foldlM_append, (run_item item read).1,
      run_tokens item (hquiet.cons _) (by rw [List.length_cons]; omega)]
    have hrest := run_moreItemTokens items (item :: read) hquiet (by omega)
    rw [List.reverse_cons, List.append_assoc, List.singleton_append] at hrest
    exact hrest

theorem run_memberTokens (members : List (String × JsonValue)) {frames : List Frame}
    (hquiet : guard.IsQuietOn frames members)
    (hdepth : frames.length + (1 + memberDepths members) ≤ maxDepth) :
    (memberTokens members).foldlM (step guard) ⟨frames, .firstKey⟩ =
      .ok (complete frames (.object members)) := by
  match members, hquiet, hdepth with
  | [], _, _ => rfl
  | (key, value) :: members, hquiet, hdepth =>
    obtain ⟨hfirst, hquiet⟩ := List.forall_mem_cons.mp hquiet
    rw [memberDepths] at hdepth
    rw [memberTokens, List.foldlM_cons, step_firstKey, ← List.foldlM_cons,
      run_key (hfirst []).1, List.foldlM_append,
      run_tokens value (hfirst []).2 (by rw [List.length_cons]; omega)]
    exact run_moreMemberTokens members [(key, value)] hquiet (by omega)

theorem run_moreMemberTokens (members read : List (String × JsonValue)) {frames : List Frame}
    (hquiet : guard.IsQuietOn frames members)
    (hdepth : frames.length + (1 + memberDepths members) ≤ maxDepth) :
    (moreMemberTokens members).foldlM (step guard) ⟨frames, .afterMember read⟩ =
      .ok (complete frames (.object (read.reverse ++ members))) := by
  match members, hquiet, hdepth with
  | [], _, _ =>
    rw [List.append_nil]
    rfl
  | (key, value) :: members, hquiet, hdepth =>
    obtain ⟨hfirst, hquiet⟩ := List.forall_mem_cons.mp hquiet
    rw [memberDepths] at hdepth
    rw [moreMemberTokens, List.foldlM_cons]
    show (Token.string key :: .colon :: (value.tokens ++ moreMemberTokens members)).foldlM
      (step guard) ⟨frames, .nextKey read⟩ = _
    rw [run_key (hfirst read).1, List.foldlM_append,
      run_tokens value (hfirst read).2 (by rw [List.length_cons]; omega)]
    have hrest := run_moreMemberTokens members ((key, value) :: read) hquiet (by omega)
    rw [List.reverse_cons, List.append_assoc, List.singleton_append] at hrest
    exact hrest

end

end Run

/-- **Written values are read again.**  If the reader goes through the tokens of a value, the
written form of the value is read as that value, with nothing behind it. -/
theorem scan_compact {guard : Guard} {value : JsonValue} (hunsigned : value.IsUnsigned)
    (hrun : value.tokens.foldlM (step guard) start = .ok (complete [] value)) :
    JsonValue.scan guard value.compact = .ok (value, false) := by
  have hspells := spells_compact value hunsigned Reader JsonError (step guard) start []
    fun c hc => absurd hc (Option.not_mem_none c)
  rw [List.append_nil, hrun] at hspells
  rw [JsonValue.scan, compact, String.toList_ofList, hspells]
  show (Token.fold (step guard) (complete [] value) []).bind _ = _
  rw [Token.fold_nil]
  rfl

end Reader

namespace JsonValue

/-- A text is read if it is one value and nothing else, and the value has the wanted shape. -/
theorem readAs_eq_ok_iff {α : Type} {guard : Guard} {convert : JsonValue → Except Mismatch α}
    {text : String} {read : α} :
    readAs guard convert text = .ok read ↔
      ∃ value, scan guard text = .ok (value, false) ∧ convert value = .ok read := by
  rw [readAs]
  cases scan guard text with
  | error error => exact ⟨nofun, nofun⟩
  | ok found =>
    obtain ⟨value, followed⟩ := found
    show (((convert value).mapError _).bind _ = _) ↔ _
    constructor
    · intro h
      cases hconvert : convert value with
      | error error =>
        rw [hconvert] at h
        cases h
      | ok converted =>
        rw [hconvert] at h
        cases followed with
        | true => cases h
        | false =>
          rw [← Except.ok.inj h]
          exact ⟨value, rfl, hconvert⟩
    · rintro ⟨_, hscan, hconvert⟩
      obtain ⟨rfl, rfl⟩ := Prod.mk.inj (Except.ok.inj hscan)
      rw [hconvert]
      rfl

end JsonValue

end PlugTaxonomy
