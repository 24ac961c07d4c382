import ManifestSecrets.Proofs.Placeholder.Resolve

set_option autoImplicit false

namespace ManifestSecrets.Placeholder

def Bracketless (secrets : SecretMap) : Prop :=
  ∀ n secret, KeyMap.find? n secrets = some secret → '<' ∉ secret.write.toList ∧ '>' ∉ secret.write.toList

def refill (secrets : SecretMap) (value : String) : String :=
  String.join ((cut value.toList).map (Piece.replaced secrets))

-- The pieces of a resolved text: what was inserted has become part of the literals.
def settled (secrets : SecretMap) : List Piece → List Piece
  | [] => []
  | .literal chars :: rest => chars.foldr push (settled secrets rest)
  | .token inner :: rest =>
      match KeyMap.find? (name inner) secrets with
      | some secret => (insertedText secret).toList.foldr push (settled secrets rest)
      | none => .token inner :: settled secrets rest

theorem joined_push_all (chars : List Char) (pieces : List Piece) :
    joined (chars.foldr push pieces) = chars ++ joined pieces := by
  induction chars with
  | nil => rfl
  | cons c chars ih => rw [List.foldr_cons, joined_push, ih, List.cons_append]

theorem names_push_all (chars : List Char) (pieces : List Piece) :
    names (chars.foldr push pieces) = names pieces := by
  induction chars with
  | nil => rfl
  | cons c chars ih => rw [List.foldr_cons, names_push, ih]

theorem push_all_is_cut (chars : List Char) (pieces : List Piece) (unclosed : Unclosed chars (joined pieces))
    (valid : IsCut pieces) : IsCut (chars.foldr push pieces) := by
  induction chars with
  | nil => exact valid
  | cons c chars ih =>
    obtain ⟨first, others⟩ := (unclosed_cons c chars _).mp unclosed
    exact push_is_cut c _ (joined_push_all chars pieces ▸ first) (ih others)

theorem unclosed_bracketless (chars rest : List Char) (bracketless : '<' ∉ chars) : Unclosed chars rest := by
  rintro before after rfl
  simp at bracketless

theorem joined_settled (secrets : SecretMap) (pieces : List Piece) :
    joined (settled secrets pieces) = (String.join (pieces.map (Piece.replaced secrets))).toList := by
  induction pieces with
  | nil => rfl
  | cons head rest ih =>
    rw [List.map_cons, String.join_cons, String.toList_append, ← ih]
    cases head with
    | literal chars => rw [settled, joined_push_all, Piece.replaced, String.toList_ofList]
    | token inner =>
      cases found : KeyMap.find? (name inner) secrets with
      | none =>
        rw [settled, found, joined_token, replaced_unknown secrets inner found, String.toList_ofList]
        simp
      | some secret => rw [settled, found, joined_push_all, replaced_known secrets inner secret found]

-- A token closes whatever is open on its line, so nothing is closed that was not closed before.
theorem settled_closes (secrets : SecretMap) (pieces : List Piece) (valid : IsCut pieces)
    (closes : Closes (joined (settled secrets pieces))) : Closes (joined pieces) := by
  induction pieces with
  | nil => exact closes
  | cons head rest ih =>
    cases head with
    | literal chars =>
      rw [settled, joined_push_all, closes_append] at closes
      rw [joined_literal, closes_append]
      exact closes.imp id fun later => ⟨later.1, ih valid.2.2.2 later.2⟩
    | token inner =>
      rw [joined_token]
      exact ⟨'<' :: inner, joined rest, rfl, by simp [valid.2.1]⟩

theorem settled_is_cut (secrets : SecretMap)
    (opens : ∀ n secret, KeyMap.find? n secrets = some secret → '<' ∉ (insertedText secret).toList)
    (pieces : List Piece) (valid : IsCut pieces) : IsCut (settled secrets pieces) := by
  induction pieces with
  | nil => trivial
  | cons head rest ih =>
    cases head with
    | literal chars =>
      obtain ⟨-, -, unclosed, valid⟩ := valid
      refine push_all_is_cut chars _ (fun before after same closes => ?_) (ih valid)
      refine unclosed before after same ?_
      rw [closes_append] at closes ⊢
      exact closes.imp id fun later => ⟨later.1, settled_closes secrets rest valid later.2⟩
    | token inner =>
      obtain ⟨ends, line, valid⟩ := valid
      cases found : KeyMap.find? (name inner) secrets with
      | none =>
        rw [settled, found]
        exact ⟨ends, line, ih valid⟩
      | some secret =>
        rw [settled, found]
        exact push_all_is_cut _ _ (unclosed_bracketless _ _ (opens _ secret found)) (ih valid)

theorem names_settled (secrets : SecretMap) (pieces : List Piece) :
    names (settled secrets pieces) = (names pieces).filter fun n => !KeyMap.contains n secrets := by
  induction pieces with
  | nil => rfl
  | cons head rest ih =>
    cases head with
    | literal chars => exact (names_push_all chars _).trans ih
    | token inner =>
      have first : names (.token inner :: rest) = name inner :: names rest := rfl
      rw [first, List.filter_cons, ← ih]
      cases found : KeyMap.find? (name inner) secrets with
      | none =>
        rw [settled, found]
        simp [KeyMap.contains, found, names]
      | some secret =>
        rw [settled, found, names_push_all]
        simp [KeyMap.contains, found]

theorem tokens_resolved (secrets : SecretMap)
    (opens : ∀ n secret, KeyMap.find? n secrets = some secret → '<' ∉ (insertedText secret).toList) (value : String) :
    tokens (refill secrets value) = (tokens value).filter fun n => !KeyMap.contains n secrets := by
  have valid := settled_is_cut secrets opens _ (cut_is_cut value.toList)
  rw [tokens, refill, ← joined_settled, cut_joined _ valid, names_settled, tokens]

theorem join_texts (pieces : List Piece) : String.join (pieces.map Piece.text) = String.ofList (joined pieces) := by
  induction pieces with
  | nil => rfl
  | cons head rest ih =>
    rw [List.map_cons, String.join_cons, ih, Piece.text, ← String.ofList_append]
    rfl

theorem replaced_tokenless (secrets : SecretMap) (pieces : List Piece) (tokenless : names pieces = []) :
    pieces.map (Piece.replaced secrets) = pieces.map Piece.text := by
  induction pieces with
  | nil => rfl
  | cons head rest ih =>
    cases head with
    | literal chars => exact congrArg (String.ofList chars :: ·) (ih tokenless)
    | token inner => simp [names] at tokenless

theorem resolve_tokenless (key value : String) (secrets : SecretMap) (tokenless : tokens value = []) :
    resolve key value secrets = ⟨.text value, []⟩ := by
  have others : ∀ secret, ¬ Whole secrets (cut value.toList) secret := by
    rintro secret ⟨-, inner, n, sole, -⟩
    simp [tokens, sole, names] at tokenless
  have errors : missing key value secrets (cut value.toList) = [] := by
    rw [missing, ← tokens, tokenless, List.filter_nil, List.map_nil]
  rw [resolve_partial key value secrets others, errors, replaced_tokenless secrets _ tokenless, join_texts, joined,
    cut_chars, String.ofList_toList]

end ManifestSecrets.Placeholder
