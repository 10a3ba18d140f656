import PlugTaxonomy.Proofs.Json.RoundTrip

/-!
# Texts as tokens

The tokens of a text are all that is read of it, and a value is determined by its tokens.

* `Token.all`, `fold_eq_foldlM` — the tokens of a text, through which a machine goes when it goes
  through the text;
* `Token.Spells.all_eq` — characters that stand for tokens have just these tokens;
* `JsonValue.tokens_inj` — no two values have the same tokens;
* `spells_pretty`, `pretty_inj` — a value with one item or member a line stands for its tokens, so
  that values are told apart by their texts.
-/

namespace PlugTaxonomy

namespace Token

/-! ### The tokens of a text -/

/-- The tokens of a text, those that are broken included. -/
def all (cs : List Char) : List Token :=
  match _h : cs.dropWhile isSeparator with
  | [] => []
  | c :: rest => (scan c rest).1 :: all (scan c rest).2
termination_by cs.length
decreasing_by
  have hdrop := Numeral.length_dropWhile_le isSeparator cs
  have hscan := scan_length c rest
  rw [_h, List.length_cons] at hdrop
  omega

/-- **Machines go through tokens.**  A machine goes through a text as it goes through the tokens of
that text. -/
theorem fold_eq_foldlM {σ ε : Type} (step : σ → Token → Except ε σ) (state : σ) (cs : List Char) :
    fold step state cs = (all cs).foldlM step state := by
  fun_induction all cs generalizing state with
  | case1 cs hnil =>
    rw [fold]
    split
    · rfl
    · rename_i hcons
      rw [hnil] at hcons
      cases hcons
  | case2 cs c rest hcons ih =>
    rw [fold, List.foldlM_cons]
    split
    · rename_i hnil
      rw [hcons] at hnil
      cases hnil
    · rename_i d others hcons'
      rw [hcons, List.cons.injEq] at hcons'
      obtain ⟨rfl, rfl⟩ := hcons'
      cases hstep : step state (scan c rest).1 with
      | error error => rfl
      | ok next => exact ih next

/-- A machine that collects tokens. -/
theorem foldlM_collect (tokens found : List Token) :
    tokens.foldlM (fun found token => (.ok (found ++ [token]) : Except Empty (List Token))) found =
      .ok (found ++ tokens) := by
  induction tokens generalizing found with
  | nil =>
    rw [List.append_nil]
    rfl
  | cons token tokens ih =>
    rw [List.foldlM_cons]
    show tokens.foldlM _ (found ++ [token]) = _
    rw [ih, List.append_assoc, List.singleton_append]

/-- Characters that stand for tokens have just these tokens. -/
theorem Spells.all_eq {cs : List Char} {tokens : List Token} (h : Spells cs tokens) :
    all cs = tokens := by
  have hcollect := h (List Token) Empty (fun found token => .ok (found ++ [token])) [] []
    fun c hc => absurd hc (Option.not_mem_none c)
  rw [List.append_nil, fold_eq_foldlM, foldlM_collect, foldlM_collect] at hcollect
  change Except.ok ([] ++ all cs) = fold _ ([] ++ tokens) [] at hcollect
  rw [fold_nil] at hcollect
  exact Except.ok.inj hcollect

/-! ### Blanks between tokens -/

theorem all_cons_of_isSeparator {c : Char} (h : isSeparator c = true) (cs : List Char) :
    all (c :: cs) = all cs := by
  have hdrop : (c :: cs).dropWhile isSeparator = cs.dropWhile isSeparator :=
    List.dropWhile_cons_of_pos h
  rw [all.eq_def, all.eq_def cs]
  split <;> split <;> simp_all

/-- Blanks in front of characters do not change for what they stand. -/
theorem Spells.blanks {blanks cs : List Char} {tokens : List Token}
    (hblanks : ∀ c ∈ blanks, isSeparator c = true) (h : Spells cs tokens) :
    Spells (blanks ++ cs) tokens := by
  intro σ ε step state rest hrest
  rw [← h σ ε step state rest hrest, fold_eq_foldlM, fold_eq_foldlM, List.append_assoc]
  congr 1
  induction blanks with
  | nil => rfl
  | cons c blanks ih =>
    obtain ⟨hc, hblanks⟩ := List.forall_mem_cons.mp hblanks
    rw [List.cons_append, all_cons_of_isSeparator hc]
    exact ih hblanks

end Token

namespace JsonValue

/-! ### Values of tokens -/

/-- A value begins with a token that ends no array. -/
theorem exists_tokens_eq_cons (value : JsonValue) :
    ∃ token tokens, value.tokens = token :: tokens ∧ token ≠ .closeBracket := by
  cases value <;> exact ⟨_, _, rfl, nofun⟩

mutual

/-- **Values are determined by their tokens**, whatever follows them. -/
theorem tokens_append_inj (value other : JsonValue) {rest rest' : List Token}
    (h : value.tokens ++ rest = other.tokens ++ rest') : value = other ∧ rest = rest' := by
  match value, other with
  | .array items, .array others =>
    obtain ⟨rfl, hrest⟩ := itemTokens_append_inj items others (List.cons.inj h).2
    exact ⟨rfl, hrest⟩
  | .object members, .object others =>
    obtain ⟨rfl, hrest⟩ := memberTokens_append_inj members others (List.cons.inj h).2
    exact ⟨rfl, hrest⟩
  | .null, other | .boolean _, other | .number _, other | .string _, other =>
    cases other <;> simp_all [tokens]
  | .array _, .null | .array _, .boolean _ | .array _, .number _ | .array _, .string _
  | .array _, .object _ | .object _, .null | .object _, .boolean _ | .object _, .number _
  | .object _, .string _ | .object _, .array _ => cases h

theorem itemTokens_append_inj (items others : List JsonValue) {rest rest' : List Token}
    (h : itemTokens items ++ rest = itemTokens others ++ rest') : items = others ∧ rest = rest' := by
  match items, others with
  | [], [] => exact ⟨rfl, (List.cons.inj h).2⟩
  | item :: items, other :: others =>
    rw [itemTokens, itemTokens, List.append_assoc, List.append_assoc] at h
    obtain ⟨rfl, hmore⟩ := tokens_append_inj item other h
    obtain ⟨rfl, hrest⟩ := moreItemTokens_append_inj items others hmore
    exact ⟨rfl, hrest⟩
  | [], other :: others =>
    obtain ⟨token, tokens, htokens, htoken⟩ := exists_tokens_eq_cons other
    rw [itemTokens, itemTokens, htokens] at h
    exact absurd (List.cons.inj h).1.symm htoken
  | item :: items, [] =>
    obtain ⟨token, tokens, htokens, htoken⟩ := exists_tokens_eq_cons item
    rw [itemTokens, itemTokens, htokens] at h
    exact absurd (List.cons.inj h).1 htoken

theorem moreItemTokens_append_inj (items others : List JsonValue) {rest rest' : List Token}
    (h : moreItemTokens items ++ rest = moreItemTokens others ++ rest') :
    items = others ∧ rest = rest' := by
  match items, others with
  | [], [] => exact ⟨rfl, (List.cons.inj h).2⟩
  | item :: items, other :: others =>
    rw [moreItemTokens, moreItemTokens, List.cons_append, List.cons_append, List.append_assoc,
      List.append_assoc] at h
    obtain ⟨rfl, hmore⟩ := tokens_append_inj item other (List.cons.inj h).2
    obtain ⟨rfl, hrest⟩ := moreItemTokens_append_inj items others hmore
    exact ⟨rfl, hrest⟩
  | [], _ :: _ | _ :: _, [] => cases h

theorem memberTokens_append_inj (members others : List (String × JsonValue))
    {rest rest' : List Token} (h : memberTokens members ++ rest = memberTokens others ++ rest') :
    members = others ∧ rest = rest' := by
  match members, others with
  | [], [] => exact ⟨rfl, (List.cons.inj h).2⟩
  | (key, value) :: members, (key', other) :: others =>
    rw [memberTokens, memberTokens, List.cons_append, List.cons_append, List.cons_append,
      List.cons_append, List.append_assoc, List.append_assoc] at h
    obtain ⟨hkey, h⟩ := List.cons.inj h
    obtain ⟨rfl, hmore⟩ := tokens_append_inj value other (List.cons.inj h).2
    obtain ⟨rfl, hrest⟩ := moreMemberTokens_append_inj members others hmore
    obtain rfl := Token.string.inj hkey
    exact ⟨rfl, hrest⟩
  | [], _ :: _ | _ :: _, [] => cases h

theorem moreMemberTokens_append_inj (members others : List (String × JsonValue))
    {rest rest' : List Token}
    (h : moreMemberTokens members ++ rest = moreMemberTokens others ++ rest') :
    members = others ∧ rest = rest' := by
  match members, others with
  | [], [] => exact ⟨rfl, (List.cons.inj h).2⟩
  | (key, value) :: members, (key', other) :: others =>
    rw [moreMemberTokens, moreMemberTokens, List.cons_append, List.cons_append, List.cons_append,
      List.cons_append, List.cons_append, List.cons_append, List.append_assoc,
      List.append_assoc] at h
    obtain ⟨hkey, h⟩ := List.cons.inj (List.cons.inj h).2
    obtain ⟨rfl, hmore⟩ := tokens_append_inj value other (List.cons.inj h).2
    obtain ⟨rfl, hrest⟩ := moreMemberTokens_append_inj members others hmore
    obtain rfl := Token.string.inj hkey
    exact ⟨rfl, hrest⟩
  | [], _ :: _ | _ :: _, [] => cases h

end

theorem tokens_inj {value other : JsonValue} (h : value.tokens = other.tokens) : value = other := by
  have happend : value.tokens ++ [] = other.tokens ++ [] := by rw [h]
  exact (tokens_append_inj value other happend).1

/-! ### One item or member a line -/

open Numeral (Ends)
open Token (Spells)

/-- A line break and blanks stand between two tokens. -/
theorem isSeparator_of_mem_lineBreak (depth : Nat) :
    ∀ c ∈ lineBreak depth, Token.isSeparator c = true := by
  intro c hc
  rcases List.mem_cons.mp hc with rfl | hc
  · rfl
  · rw [List.eq_of_mem_replicate hc]
    rfl

theorem spells_line (depth : Nat) {cs : List Char} {tokens : List Token} (h : Spells cs tokens) :
    Spells (lineBreak depth ++ cs) tokens :=
  h.blanks (isSeparator_of_mem_lineBreak depth)

theorem ends_prettyMoreItems (depth : Nat) (items : List JsonValue) :
    Ends (prettyMoreItems depth items) := by
  cases items with
  | nil => exact ends_cons rfl _
  | cons item items => exact ends_cons rfl _

theorem ends_prettyMoreMembers (depth : Nat) (members : List (String × JsonValue)) :
    Ends (prettyMoreMembers depth members) := by
  cases members with
  | nil => exact ends_cons rfl _
  | cons member members => exact ends_cons rfl _

/-- A key, a colon with a blank behind it, and what follows. -/
theorem spells_prettyMember (key : String) {cs : List Char} {tokens : List Token}
    (h : Spells cs tokens) :
    Spells (Quoted.encode key ++ ':' :: ' ' :: cs) (.string key :: .colon :: tokens) := by
  have hblank : ∀ c ∈ [' '], Token.isSeparator c = true := List.all_eq_true.mp rfl
  exact spells_member key (h.blanks hblank)

mutual

/-- **Written values are their tokens**, however deep they are indented. -/
theorem spells_pretty (value : JsonValue) (depth : Nat) (h : value.IsUnsigned) :
    Spells (value.prettyText depth) value.tokens := by
  cases value with
  | null => exact Spells.null
  | boolean value => exact Spells.boolean value
  | number value =>
    obtain ⟨n, hn, rfl⟩ := h
    exact Spells.number hn
  | string value => exact Spells.string value
  | array items => exact .cons rfl (fun _ => rfl) (spells_prettyItems items depth h)
  | object members => exact .cons rfl (fun _ => rfl) (spells_prettyMembers members depth h)

theorem spells_prettyItems (items : List JsonValue) (depth : Nat) (h : AreUnsigned items) :
    Spells (prettyItems depth items) (itemTokens items) := by
  cases items with
  | nil => exact spells_close rfl fun _ => rfl
  | cons item items =>
    exact (spells_line _ (spells_pretty item (depth + 1) h.1)).append
      (spells_prettyMoreItems items depth h.2) (ends_prettyMoreItems depth items)

theorem spells_prettyMoreItems (items : List JsonValue) (depth : Nat) (h : AreUnsigned items) :
    Spells (prettyMoreItems depth items) (moreItemTokens items) := by
  cases items with
  | nil => exact spells_line depth (spells_close rfl fun _ => rfl)
  | cons item items =>
    exact .cons rfl (fun _ => rfl) ((spells_line _ (spells_pretty item (depth + 1) h.1)).append
      (spells_prettyMoreItems items depth h.2) (ends_prettyMoreItems depth items))

theorem spells_prettyMembers (members : List (String × JsonValue)) (depth : Nat)
    (h : MembersUnsigned members) :
    Spells (prettyMembers depth members) (memberTokens members) := by
  match members, h with
  | [], _ => exact spells_close rfl fun _ => rfl
  | (key, value) :: members, h =>
    have hvalue := (spells_pretty value (depth + 1) h.1).append
      (spells_prettyMoreMembers members depth h.2) (ends_prettyMoreMembers depth members)
    have hmember := spells_line (depth + 1) (spells_prettyMember key hvalue)
    rw [prettyMembers, memberTokens]
    simpa only [List.append_assoc, List.cons_append] using hmember

theorem spells_prettyMoreMembers (members : List (String × JsonValue)) (depth : Nat)
    (h : MembersUnsigned members) :
    Spells (prettyMoreMembers depth members) (moreMemberTokens members) := by
  match members, h with
  | [], _ => exact spells_line depth (spells_close rfl fun _ => rfl)
  | (key, value) :: members, h =>
    have hvalue := (spells_pretty value (depth + 1) h.1).append
      (spells_prettyMoreMembers members depth h.2) (ends_prettyMoreMembers depth members)
    have hmember := Spells.cons (c := ',') rfl (fun _ => rfl)
      (spells_line (depth + 1) (spells_prettyMember key hvalue))
    rw [prettyMoreMembers, moreMemberTokens]
    simpa only [List.append_assoc, List.cons_append] using hmember

end

/-- **Values are told apart by their texts.** -/
theorem pretty_inj {value other : JsonValue} (hvalue : value.IsUnsigned)
    (hother : other.IsUnsigned) (h : value.pretty = other.pretty) : value = other := by
  have htext : value.prettyText 0 = other.prettyText 0 := String.ofList_injective h
  have htokens := (spells_pretty value 0 hvalue).all_eq
  rw [htext, (spells_pretty other 0 hother).all_eq] at htokens
  exact tokens_inj htokens.symm

end JsonValue

end PlugTaxonomy
