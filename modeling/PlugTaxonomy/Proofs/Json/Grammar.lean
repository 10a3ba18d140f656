import PlugTaxonomy.Proofs.Json.Tokens
import PlugTaxonomy.Proofs.Outcome

/-!
# The texts that are read

A text is read as a value just if its tokens are those of the value, the value is not nested too
deep, and nothing on the way is objected to.

* `Reader.HasSpent`, `hasSpent_step` — the tokens that lead to a state of the reader, and one token
  more;
* `Reader.step_of_guarded` — what is not objected to is read as if nothing ever was;
* `JsonValue.scan_eq_ok_iff` — the texts that are read under objections;
* `JsonValue.read_eq_ok_iff`, `read_compact` — the texts that are read as a value, the written form
  of the value among them.
-/

namespace PlugTaxonomy

namespace JsonValue

/-! ### Tokens of items and members in order -/

/-- The tokens of items that come in reverse order, each with the comma behind it. -/
def spentItems (items : List JsonValue) : List Token :=
  items.reverse.flatMap fun item => item.tokens ++ [.comma]

/-- The tokens of members that come in reverse order, each with the comma behind it. -/
def spentMembers (members : List (String × JsonValue)) : List Token :=
  members.reverse.flatMap fun member =>
    .string member.1 :: .colon :: (member.2.tokens ++ [.comma])

@[simp] theorem spentItems_cons (item : JsonValue) (items : List JsonValue) :
    spentItems (item :: items) = spentItems items ++ (item.tokens ++ [.comma]) := by
  simp [spentItems]

@[simp] theorem spentMembers_cons (key : String) (value : JsonValue)
    (members : List (String × JsonValue)) :
    spentMembers ((key, value) :: members) =
      spentMembers members ++ .string key :: .colon :: (value.tokens ++ [.comma]) := by
  simp [spentMembers]

/-- Behind an item, the others are read as in an array of their own. -/
theorem moreItemTokens_concat (items : List JsonValue) (item : JsonValue) :
    moreItemTokens (items ++ [item]) = .comma :: itemTokens (items ++ [item]) := by
  cases items <;> rfl

theorem moreMemberTokens_concat (members : List (String × JsonValue))
    (member : String × JsonValue) :
    moreMemberTokens (members ++ [member]) = .comma :: memberTokens (members ++ [member]) := by
  cases members <;> rfl

theorem itemTokens_concat (items : List JsonValue) (item : JsonValue) :
    itemTokens (items ++ [item]) =
      (items.flatMap fun item => item.tokens ++ [.comma]) ++ (item.tokens ++ [.closeBracket]) := by
  induction items with
  | nil => rfl
  | cons first items ih =>
    rw [List.cons_append, itemTokens, moreItemTokens_concat, ih]
    simp

theorem memberTokens_concat (members : List (String × JsonValue)) (key : String)
    (value : JsonValue) :
    memberTokens (members ++ [(key, value)]) =
      (members.flatMap fun member =>
        .string member.1 :: .colon :: (member.2.tokens ++ [.comma])) ++
        .string key :: .colon :: (value.tokens ++ [.closeBrace]) := by
  induction members with
  | nil => rfl
  | cons first members ih =>
    rw [List.cons_append, memberTokens, moreMemberTokens_concat, ih]
    simp

/-- The bracket at the end of an array stands for the comma behind its last item. -/
theorem tokens_array_of_spent {items : List JsonValue} {outer spent : List Token}
    (h : spent ++ [.comma] = outer ++ .openBracket :: spentItems items) :
    spent ++ [.closeBracket] = outer ++ (array items.reverse).tokens := by
  cases items with
  | nil => simpa using (List.append_inj' h rfl).2
  | cons item items =>
    rw [spentItems_cons, ← List.append_assoc, ← List.cons_append, ← List.append_assoc] at h
    obtain ⟨rfl, -⟩ := List.append_inj' h rfl
    rw [List.reverse_cons, tokens, itemTokens_concat]
    simp [spentItems]

theorem tokens_object_of_spent {members : List (String × JsonValue)} {outer spent : List Token}
    (h : spent ++ [.comma] = outer ++ .openBrace :: spentMembers members) :
    spent ++ [.closeBrace] = outer ++ (object members.reverse).tokens := by
  cases members with
  | nil => simpa using (List.append_inj' h rfl).2
  | cons member members =>
    obtain ⟨key, value⟩ := member
    have h' : spent ++ [.comma] = outer ++ .openBrace ::
        (spentMembers members ++ .string key :: .colon :: value.tokens) ++ [.comma] := by
      simpa using h
    obtain ⟨rfl, -⟩ := List.append_inj' h' rfl
    rw [List.reverse_cons, tokens, memberTokens_concat]
    simp [spentMembers]

end JsonValue

open JsonValue

/-! ### Tokens that lead to a state -/

/-- The tokens of an open container up to the value that is being read. -/
def Frame.spent : Frame → List Token
  | .array items => .openBracket :: spentItems items
  | .object members key => .openBrace :: (spentMembers members ++ [.string key, .colon])

/-- The tokens of the open containers up to the value that is being read. -/
def framesSpent : List Frame → List Token
  | [] => []
  | frame :: frames => framesSpent frames ++ frame.spent

namespace Reader

/-- The tokens that lead to a state.  Behind an item, a comma completes what has been read of the
array. -/
def HasSpent (reader : Reader) (spent : List Token) : Prop :=
  let outer := framesSpent reader.frames
  match reader.phase with
  | .value => spent = outer
  | .firstItem => spent = outer ++ [.openBracket]
  | .nextItem items => spent = outer ++ .openBracket :: spentItems items
  | .afterItem items => spent ++ [.comma] = outer ++ .openBracket :: spentItems items
  | .firstKey => spent = outer ++ [.openBrace]
  | .nextKey members => spent = outer ++ .openBrace :: spentMembers members
  | .colon members key => spent = outer ++ .openBrace :: (spentMembers members ++ [.string key])
  | .afterMember members => spent ++ [.comma] = outer ++ .openBrace :: spentMembers members
  | .done value followed => reader.frames = [] ∧ (followed = false → spent = value.tokens)

theorem hasSpent_complete (frames : List Frame) (value : JsonValue) :
    (complete frames value).HasSpent (framesSpent frames ++ value.tokens) := by
  match frames with
  | [] => exact ⟨rfl, fun _ => rfl⟩
  | .array items :: frames => simp [complete, HasSpent, framesSpent, Frame.spent]
  | .object members key :: frames => simp [complete, HasSpent, framesSpent, Frame.spent]

theorem hasSpent_beginValue {guard : Guard} {frames : List Frame} {token : Token} {next : Reader}
    (h : beginValue guard frames token = .ok next) :
    next.HasSpent (framesSpent frames ++ [token]) := by
  have henter : ∀ phase, enter frames phase = .ok next → next = ⟨frames, phase⟩ := by
    intro phase h
    rw [enter] at h
    split at h
    · exact (Except.ok.inj h).symm
    · cases h
  rw [beginValue.eq_def] at h
  split at h
  · cases h
  · split at h
    case h_5 =>
      rw [henter _ h]
      exact rfl
    case h_6 =>
      rw [henter _ h]
      exact rfl
    all_goals first
      | cases h; done
      | rw [← Except.ok.inj h]
        exact hasSpent_complete frames _

theorem hasSpent_readKey {guard : Guard} {frames : List Frame}
    {members : List (String × JsonValue)} {token : Token} {next : Reader}
    (h : readKey guard frames members token = .ok next) :
    next.HasSpent (framesSpent frames ++ .openBrace :: spentMembers members ++ [token]) := by
  rw [readKey.eq_def] at h
  split at h
  · split at h
    · cases h
    · rw [← Except.ok.inj h]
      simp [HasSpent]
  · cases h
  · cases h

/-- **One more token has been spent** when the reader has made a step. -/
theorem hasSpent_step {guard : Guard} {reader next : Reader} {token : Token} {spent : List Token}
    (hspent : reader.HasSpent spent) (h : step guard reader token = .ok next) :
    next.HasSpent (spent ++ [token]) := by
  obtain ⟨frames, phase⟩ := reader
  cases phase with
  | value =>
    obtain rfl : spent = framesSpent frames := hspent
    exact hasSpent_beginValue h
  | firstItem =>
    obtain rfl : spent = framesSpent frames ++ [Token.openBracket] := hspent
    simp only [step] at h
    split at h
    · rename_i htoken
      rw [← Except.ok.inj h, htoken, List.append_assoc]
      exact hasSpent_complete frames (.array [])
    · exact hasSpent_beginValue h
  | nextItem items =>
    obtain rfl : spent = framesSpent frames ++ .openBracket :: spentItems items := hspent
    simp only [step] at h
    split at h
    · cases h
    · exact hasSpent_beginValue h
  | afterItem items =>
    have hcomma : spent ++ [.comma] = framesSpent frames ++ .openBracket :: spentItems items :=
      hspent
    simp only [step] at h
    split at h
    · rw [← Except.ok.inj h]
      exact hcomma
    · rw [← Except.ok.inj h, tokens_array_of_spent hcomma]
      exact hasSpent_complete frames _
    · cases h
  | firstKey =>
    obtain rfl : spent = framesSpent frames ++ [Token.openBrace] := hspent
    simp only [step] at h
    split at h
    · rename_i htoken
      rw [← Except.ok.inj h, htoken, List.append_assoc]
      exact hasSpent_complete frames (.object [])
    · exact hasSpent_readKey h
  | nextKey members =>
    obtain rfl : spent = framesSpent frames ++ .openBrace :: spentMembers members := hspent
    simp only [step] at h
    split at h
    · cases h
    · exact hasSpent_readKey h
  | colon members key =>
    obtain rfl : spent = framesSpent frames ++ Token.openBrace :: (spentMembers members ++
      [Token.string key]) := hspent
    simp only [step] at h
    split at h
    · rename_i htoken
      rw [← Except.ok.inj h, htoken]
      simp [HasSpent, framesSpent, Frame.spent]
    · cases h
  | afterMember members =>
    have hcomma : spent ++ [.comma] = framesSpent frames ++ .openBrace :: spentMembers members :=
      hspent
    simp only [step] at h
    split at h
    · rw [← Except.ok.inj h]
      exact hcomma
    · rw [← Except.ok.inj h, tokens_object_of_spent hcomma]
      exact hasSpent_complete frames _
    · cases h
  | done value followed =>
    rw [← Except.ok.inj h]
    exact ⟨hspent.1, Bool.noConfusion⟩

theorem hasSpent_run {guard : Guard} {reader next : Reader} {tokens spent : List Token}
    (hspent : reader.HasSpent spent) (h : tokens.foldlM (step guard) reader = .ok next) :
    next.HasSpent (spent ++ tokens) := by
  induction tokens generalizing reader spent with
  | nil =>
    rw [← Except.ok.inj h, List.append_nil]
    exact hspent
  | cons token tokens ih =>
    rw [List.foldlM_cons] at h
    obtain ⟨middle, hstep, h⟩ := ok_of_bind h
    have hmiddle := ih (hasSpent_step hspent hstep) h
    rwa [List.append_assoc, List.singleton_append] at hmiddle

/-! ### Reading under objections -/

/-- What is not objected to is read as if nothing ever was. -/
theorem step_of_guarded {guard : Guard} {reader next : Reader} {token : Token}
    (h : step guard reader token = .ok next) : step .none reader token = .ok next := by
  have hvalue : ∀ frames, beginValue guard frames token = .ok next →
      beginValue .none frames token = .ok next := by
    intro frames h
    rw [beginValue.eq_def] at h
    split at h
    · cases h
    · exact h
  have hkey : ∀ members, readKey guard reader.frames members token = .ok next →
      readKey .none reader.frames members token = .ok next := by
    intro members h
    rw [readKey.eq_def] at h
    split at h
    · split at h
      · cases h
      · exact h
    · cases h
    · cases h
  obtain ⟨frames, phase⟩ := reader
  cases phase with
  | value => exact hvalue _ h
  | firstItem | nextItem items =>
    simp only [step] at h ⊢
    split at h <;> rename_i htoken
    · rwa [if_pos htoken]
    · rw [if_neg htoken]
      exact hvalue _ h
  | firstKey | nextKey members =>
    simp only [step] at h ⊢
    split at h <;> rename_i htoken
    · rwa [if_pos htoken]
    · rw [if_neg htoken]
      exact hkey _ h
  | afterItem _ | colon _ _ | afterMember _ | done _ _ => exact h

theorem run_of_guarded {guard : Guard} {reader next : Reader} {tokens : List Token}
    (h : tokens.foldlM (step guard) reader = .ok next) :
    tokens.foldlM (step .none) reader = .ok next := by
  induction tokens generalizing reader with
  | nil => exact h
  | cons token tokens ih =>
    rw [List.foldlM_cons] at h ⊢
    obtain ⟨middle, hstep, h⟩ := ok_of_bind h
    rw [step_of_guarded hstep]
    exact ih h

theorem isQuiet_none (frames : List Frame) : Guard.none.IsQuiet frames :=
  fun _ => ⟨fun _ => rfl, fun _ _ => rfl⟩

/-- Where the reader gets through the tokens of a value, it has read that value. -/
theorem eq_complete_of_run {guard : Guard} {frames : List Frame} {value : JsonValue}
    {next : Reader} (hdepth : frames.length + value.depth ≤ maxDepth)
    (h : value.tokens.foldlM (step guard) ⟨frames, .value⟩ = .ok next) :
    next = complete frames value := by
  have hrun := run_of_guarded h
  rw [run_tokens value (isQuiet_none frames) hdepth] at hrun
  exact (Except.ok.inj hrun).symm

end Reader

/-! ### Texts -/

namespace JsonValue

/-- **The texts that are read under objections** are those whose tokens are the tokens of a value
through which the reader gets. -/
theorem scan_eq_ok_iff {guard : Guard} {text : String} {value : JsonValue} :
    scan guard text = .ok (value, false) ↔
      Token.all text.toList = value.tokens ∧
        value.tokens.foldlM (Reader.step guard) Reader.start =
          .ok (Reader.complete [] value) := by
  rw [scan, Token.fold_eq_foldlM]
  constructor
  · intro h
    obtain ⟨⟨frames, phase⟩, hrun, hfinish⟩ := ok_of_bind h
    have hphase : phase = .done value false := by
      simp only [Reader.finish] at hfinish
      split at hfinish
      · obtain ⟨rfl, rfl⟩ := Prod.mk.inj (Except.ok.inj hfinish)
        rfl
      all_goals cases hfinish
    subst hphase
    have hspent := Reader.hasSpent_run (show Reader.start.HasSpent [] from rfl) hrun
    obtain ⟨rfl, htokens⟩ : frames = [] ∧ _ := hspent
    have hall : Token.all text.toList = value.tokens := htokens rfl
    rw [hall] at hrun
    exact ⟨hall, hrun⟩
  · rintro ⟨hall, hrun⟩
    rw [hall, hrun]
    rfl

/-- **The texts that are read** as a value are those with the tokens of that value, if it is not
nested too deep. -/
theorem read_eq_ok_iff {text : String} {value : JsonValue} :
    read text = .ok value ↔
      Token.all text.toList = value.tokens ∧ value.depth ≤ Reader.maxDepth := by
  rw [read, readAs_eq_ok_iff]
  constructor
  · rintro ⟨_, hscan, hvalue⟩
    obtain rfl := Except.ok.inj hvalue
    exact ⟨(scan_eq_ok_iff.mp hscan).1, Reader.depth_of_scan hscan⟩
  · rintro ⟨hall, hdepth⟩
    have hrun : value.tokens.foldlM (Reader.step .none) Reader.start =
        .ok (Reader.complete [] value) :=
      Reader.run_tokens value (Reader.isQuiet_none []) (by simpa using hdepth)
    exact ⟨value, scan_eq_ok_iff.mpr ⟨hall, hrun⟩, rfl⟩

/-- Written values are read again. -/
theorem read_compact {value : JsonValue} (hunsigned : value.IsUnsigned)
    (hdepth : value.depth ≤ Reader.maxDepth) : read value.compact = .ok value := by
  refine read_eq_ok_iff.mpr ⟨?_, hdepth⟩
  rw [compact, String.toList_ofList]
  exact (spells_compact value hunsigned).all_eq

end JsonValue

end PlugTaxonomy
