import ManifestSecrets.Placeholder.Resolve
import ManifestSecrets.Proofs.Placeholder.Cut
import ManifestSecrets.Proofs.Text.Trim

set_option autoImplicit false

namespace ManifestSecrets.Placeholder

def Names (inner : List Char) (n : String) : Prop :=
  ∃ front back, inner = front ++ n.toList ++ back ∧ (∀ c ∈ front, c = '<' ∨ c = '>') ∧
    (∀ c ∈ back, c = '<' ∨ c = '>') ∧ (∀ c, n.toList.head? = some c → c ≠ '<' ∧ c ≠ '>') ∧
    (∀ c, n.toList.getLast? = some c → c ≠ '<' ∧ c ≠ '>')

inductive Fills (secrets : SecretMap) (key value : String) :
    List Piece → String → List ReplacementError → Prop
  | done : Fills secrets key value [] "" []
  | literal {pieces : List Piece} {text : String} {errors : List ReplacementError} (chars : List Char)
      (rest : Fills secrets key value pieces text errors) :
      Fills secrets key value (.literal chars :: pieces) (String.ofList chars ++ text) errors
  | string {pieces : List Piece} {text : String} {errors : List ReplacementError} {inner : List Char}
      {n s : String} (named : Names inner n) (found : KeyMap.find? n secrets = some (.text s))
      (rest : Fills secrets key value pieces text errors) :
      Fills secrets key value (.token inner :: pieces) (s ++ text) errors
  | display {pieces : List Piece} {text : String} {errors : List ReplacementError} {inner : List Char}
      {n : String} {secret : Json} (named : Names inner n) (found : KeyMap.find? n secrets = some secret)
      (other : ∀ s, secret ≠ .text s) (rest : Fills secrets key value pieces text errors) :
      Fills secrets key value (.token inner :: pieces) (secret.write ++ text) errors
  | unknown {pieces : List Piece} {text : String} {errors : List ReplacementError} {inner : List Char}
      {n : String} (named : Names inner n) (missing : KeyMap.find? n secrets = none)
      (rest : Fills secrets key value pieces text errors) :
      Fills secrets key value (.token inner :: pieces) (String.ofList ('<' :: inner ++ ['>']) ++ text)
        (.missingPlaceholder key value n :: errors)

-- The field is one token, which names a secret that is no text.
def Whole (secrets : SecretMap) (pieces : List Piece) (secret : Json) : Prop :=
  (∀ s, secret ≠ .text s) ∧
    ∃ inner n, pieces = [.token inner] ∧ Names inner n ∧ KeyMap.find? n secrets = some secret

theorem is_bracket_iff (c : Char) : isBracket c = true ↔ c = '<' ∨ c = '>' := by
  simp [isBracket]

theorem not_bracket_iff (c : Char) : isBracket c = false ↔ c ≠ '<' ∧ c ≠ '>' := by
  simp [isBracket]

theorem names_iff (inner : List Char) (n : String) : Names inner n ↔ name inner = n := by
  have trims : Names inner n ↔ Text.Trims isBracket inner n.toList := by
    simp only [Names, Text.Trims, is_bracket_iff, not_bracket_iff]
  rw [trims, ← Text.trim_by_eq_iff, name]
  constructor
  · intro same
    rw [same, String.ofList_toList]
  · rintro rfl
    rw [String.toList_ofList]

theorem missing_literal (key value : String) (secrets : SecretMap) (chars : List Char) (rest : List Piece) :
    missing key value secrets (.literal chars :: rest) = missing key value secrets rest := rfl

theorem missing_known (key value : String) (secrets : SecretMap) (inner : List Char) (rest : List Piece)
    (secret : Json) (found : KeyMap.find? (name inner) secrets = some secret) :
    missing key value secrets (.token inner :: rest) = missing key value secrets rest := by
  simp [missing, names, KeyMap.contains, found]

theorem missing_unknown (key value : String) (secrets : SecretMap) (inner : List Char) (rest : List Piece)
    (unknown : KeyMap.find? (name inner) secrets = none) :
    missing key value secrets (.token inner :: rest) =
      .missingPlaceholder key value (name inner) :: missing key value secrets rest := by
  simp [missing, names, KeyMap.contains, unknown]

theorem inserted_other (secret : Json) (other : ∀ s, secret ≠ .text s) : insertedText secret = secret.write := by
  cases secret with
  | text s => exact absurd rfl (other s)
  | _ => rfl

theorem replaced_known (secrets : SecretMap) (inner : List Char) (secret : Json)
    (found : KeyMap.find? (name inner) secrets = some secret) :
    (Piece.token inner).replaced secrets = insertedText secret := by
  simp [Piece.replaced, found]

theorem replaced_unknown (secrets : SecretMap) (inner : List Char)
    (unknown : KeyMap.find? (name inner) secrets = none) :
    (Piece.token inner).replaced secrets = String.ofList ('<' :: inner ++ ['>']) := by
  simp [Piece.replaced, unknown, Piece.text, Piece.chars]

theorem fills_replaced (secrets : SecretMap) (key value : String) (pieces : List Piece) :
    Fills secrets key value pieces (String.join (pieces.map (Piece.replaced secrets)))
      (missing key value secrets pieces) := by
  induction pieces with
  | nil => exact .done
  | cons head rest ih =>
    rw [List.map_cons, String.join_cons]
    cases head with
    | literal chars => exact .literal chars ih
    | token inner =>
      have named := (names_iff inner _).mpr rfl
      cases found : KeyMap.find? (name inner) secrets with
      | none =>
        rw [replaced_unknown secrets inner found, missing_unknown key value secrets inner rest found]
        exact .unknown named found ih
      | some secret =>
        rw [replaced_known secrets inner secret found, missing_known key value secrets inner rest secret found]
        by_cases text : ∃ s, secret = .text s
        · obtain ⟨s, rfl⟩ := text
          exact .string named found ih
        · have other : ∀ s, secret ≠ .text s := fun s same => text ⟨s, same⟩
          rw [inserted_other secret other]
          exact .display named found other ih

theorem fills_unique (secrets : SecretMap) (key value text : String) (pieces : List Piece)
    (errors : List ReplacementError) (fills : Fills secrets key value pieces text errors) :
    text = String.join (pieces.map (Piece.replaced secrets)) ∧ errors = missing key value secrets pieces := by
  induction fills with
  | done => exact ⟨String.join_nil.symm, rfl⟩
  | literal chars _ ih =>
    rw [List.map_cons, String.join_cons, missing_literal, ← ih.1]
    exact ⟨rfl, ih.2⟩
  | string named found _ ih =>
    rw [← (names_iff _ _).mp named] at found
    rw [List.map_cons, String.join_cons, replaced_known _ _ _ found, missing_known _ _ _ _ _ _ found, ← ih.1]
    exact ⟨rfl, ih.2⟩
  | display named found other _ ih =>
    rw [← (names_iff _ _).mp named] at found
    rw [List.map_cons, String.join_cons, replaced_known _ _ _ found, inserted_other _ other,
      missing_known _ _ _ _ _ _ found, ← ih.1]
    exact ⟨rfl, ih.2⟩
  | unknown named absent _ ih =>
    have same := (names_iff _ _).mp named
    rw [← same] at absent
    rw [List.map_cons, String.join_cons, replaced_unknown _ _ absent, missing_unknown _ _ _ _ _ absent, ← ih.1,
      ← ih.2, same]
    exact ⟨rfl, rfl⟩

theorem whole_iff (secrets : SecretMap) (pieces : List Piece) (secret : Json) :
    whole? secrets pieces = some secret ↔ Whole secrets pieces secret := by
  constructor
  · intro whole
    unfold whole? at whole
    split at whole
    next inner =>
      split at whole
      next => simp at whole
      next found _ other =>
        refine ⟨fun s same => other s (same ▸ whole), inner, _, rfl, (names_iff inner _).mpr rfl, whole⟩
    next => simp at whole
  · rintro ⟨other, inner, n, rfl, named, found⟩
    rw [← (names_iff inner n).mp named] at found
    cases secret with
    | text s => exact absurd rfl (other s)
    | _ => simp [whole?, found]

theorem whole_or_partial (secrets : SecretMap) (pieces : List Piece) :
    (∃ secret, Whole secrets pieces secret) ∨ ∀ secret, ¬ Whole secrets pieces secret := by
  by_cases whole : ∃ secret, Whole secrets pieces secret
  · exact .inl whole
  · exact .inr fun secret is => whole ⟨secret, is⟩

theorem resolve_whole (key value : String) (secrets : SecretMap) (secret : Json)
    (whole : Whole secrets (cut value.toList) secret) : resolve key value secrets = ⟨.ofJson secret, []⟩ := by
  simp only [resolve, (whole_iff secrets _ secret).mpr whole]

theorem resolve_partial (key value : String) (secrets : SecretMap)
    (others : ∀ secret, ¬ Whole secrets (cut value.toList) secret) :
    resolve key value secrets =
      ⟨.text (String.join ((cut value.toList).map (Piece.replaced secrets))),
        missing key value secrets (cut value.toList)⟩ := by
  have embedded : whole? secrets (cut value.toList) = none :=
    Option.eq_none_iff_forall_ne_some.mpr (fun secret whole => others secret ((whole_iff _ _ secret).mp whole))
  simp only [resolve, embedded]

theorem of_json_text (secret : Json) (s : String) (same : Tree.ofJson secret = .text s) : secret = .text s := by
  rw [← Tree.toJson_ofJson secret, same, Tree.toJson]

theorem resolve_by_pieces (key value : String) (secrets : SecretMap) :
    ∃ pieces, (∀ other, (IsCut other ∧ joined other = value.toList) ↔ other = pieces) ∧
      (∀ secret, Whole secrets pieces secret → resolve key value secrets = ⟨.ofJson secret, []⟩) ∧
      ((∀ secret, ¬ Whole secrets pieces secret) → ∀ text errors,
        Fills secrets key value pieces text errors ↔ resolve key value secrets = ⟨.text text, errors⟩) ∧
      ((∀ s, (resolve key value secrets).value ≠ .text s) ↔ ∃ secret, Whole secrets pieces secret) := by
  refine ⟨cut value.toList, fun other => ?_, resolve_whole key value secrets, fun others text errors => ?_, ?_⟩
  · rw [← cut_eq_iff]
    exact eq_comm
  · rw [resolve_partial key value secrets others, Resolution.mk.injEq, Tree.text.injEq]
    constructor
    · intro fills
      obtain ⟨rfl, rfl⟩ := fills_unique secrets key value text _ errors fills
      exact ⟨rfl, rfl⟩
    · rintro ⟨rfl, rfl⟩
      exact fills_replaced secrets key value _
  · constructor
    · intro noText
      rcases whole_or_partial secrets (cut value.toList) with whole | others
      · exact whole
      · rw [resolve_partial key value secrets others] at noText
        exact absurd rfl (noText _)
    · rintro ⟨secret, whole⟩ s same
      rw [resolve_whole key value secrets secret whole] at same
      exact whole.1 s (of_json_text secret s same)

end ManifestSecrets.Placeholder
