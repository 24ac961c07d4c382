import ManifestSecrets.Policy
import ManifestSecrets.Proofs.Placeholder.Resolve

set_option autoImplicit false

namespace ManifestSecrets

def Json.shapeName? : Json → Option String
  | .null => some "null"
  | .array _ => some "sequence"
  | .object _ => some "mapping"
  | _ => none

namespace Placeholder

def isSole (value : String) : Bool :=
  match cut value.toList with
  | [.token _] => true
  | _ => false

end Placeholder

namespace Policy

open Placeholder

def tokenErrors (policy : Policy) (secrets : SecretMap) (key value n : String) : List ReplacementError :=
  match KeyMap.find? n secrets with
  | none => [.missingPlaceholder key value n]
  | some held =>
      match held.shapeName? with
      | some found => if policy ≠ .generic ∧ isSole value = true then [.unsupportedValue key n found] else []
      | none => []

def unresolved (policy : Policy) (secrets : SecretMap) (key value : String) : List ReplacementError :=
  (tokens value).flatMap (policy.tokenErrors secrets key value)

def Missing (secrets : SecretMap) (value : String) : Prop :=
  ∃ n ∈ tokens value, KeyMap.find? n secrets = none

-- The field is one token, and its secret has no text where its policy asks for one.
def Unsupported (policy : Policy) (secrets : SecretMap) (value : String) : Prop :=
  policy ≠ .generic ∧ isSole value = true ∧
    ∃ n ∈ tokens value, ∃ secret, KeyMap.find? n secrets = some secret ∧ secret.shapeName? ≠ none

def Unresolved (policy : Policy) (secrets : SecretMap) (value : String) : Prop :=
  Missing secrets value ∨ Unsupported policy secrets value

theorem token_errors_fitting (policy : Policy) (secrets : SecretMap) (key value n : String) (held : Json)
    (found : KeyMap.find? n secrets = some held)
    (fits : policy ≠ .generic → isSole value = true → held.shapeName? = none) :
    policy.tokenErrors secrets key value n = [] := by
  simp only [tokenErrors, found]
  cases shape : held.shapeName? with
  | none => rfl
  | some named =>
    refine if_neg fun both => ?_
    simp [fits both.1 both.2] at shape

theorem unresolved_nil_iff (policy : Policy) (secrets : SecretMap) (key value : String) :
    policy.unresolved secrets key value = [] ↔ ¬ policy.Unresolved secrets value := by
  rw [unresolved, List.flatMap_eq_nil_iff]
  constructor
  · rintro none (⟨n, token, absent⟩ | ⟨shaped, sole, n, token, held, found, noText⟩)
    · have empty := none n token
      simp [tokenErrors, absent] at empty
    · have empty := none n token
      obtain ⟨shape, named⟩ := Option.ne_none_iff_exists'.mp noText
      simp [tokenErrors, found, named, shaped, sole] at empty
  · intro resolved n token
    cases found : KeyMap.find? n secrets with
    | none => exact absurd (.inl ⟨n, token, found⟩) resolved
    | some held =>
      refine token_errors_fitting policy secrets key value n held found fun shaped sole => ?_
      exact Classical.byContradiction fun noText => resolved (.inr ⟨shaped, sole, n, token, held, found, noText⟩)

theorem is_sole_iff (value : String) : isSole value = true ↔ ∃ inner, cut value.toList = [.token inner] := by
  unfold isSole
  split
  next inner same => simp [same]
  next other =>
    constructor
    · intro absurdity
      simp at absurdity
    · rintro ⟨inner, same⟩
      exact absurd same (other inner)

theorem shape_not_text {secret : Json} {shape : String} (named : secret.shapeName? = some shape) (s : String) :
    secret ≠ .text s := by
  rintro rfl
  simp [Json.shapeName?] at named

theorem field_name_sole (value : String) (inner : List Char) (sole : cut value.toList = [.token inner]) :
    fieldName value = Placeholder.name inner := by
  have chars : value.toList = ['<'] ++ inner ++ ['>'] := by
    rw [← cut_chars value.toList, sole]
    simp [Piece.chars]
  rw [fieldName, Placeholder.name, chars,
    Text.trim_by_around isBracket inner ['<'] ['>'] (by simp [isBracket]) (by simp [isBracket])]

theorem missing_by_token (key value : String) (secrets : SecretMap) (pieces : List Piece) :
    missing key value secrets pieces = (names pieces).flatMap fun n =>
      match KeyMap.find? n secrets with
      | none => [.missingPlaceholder key value n]
      | some _ => [] := by
  rw [missing]
  induction names pieces with
  | nil => rfl
  | cons n rest ih =>
    rw [List.flatMap_cons, ← ih, List.filter_cons]
    cases found : KeyMap.find? n secrets <;> simp [KeyMap.contains, found]

-- Only a field that is one token can be unsupported, and then its secret is the whole field.
theorem unresolved_partial (policy : Policy) (secrets : SecretMap) (key value : String)
    (others : ∀ secret, ¬ Whole secrets (cut value.toList) secret) :
    policy.unresolved secrets key value = missing key value secrets (cut value.toList) := by
  rw [missing_by_token, unresolved, tokens, List.flatMap_def, List.flatMap_def]
  refine congrArg List.flatten (List.map_congr_left fun n token => ?_)
  cases found : KeyMap.find? n secrets with
  | none => simp only [tokenErrors, found]
  | some held =>
    refine token_errors_fitting policy secrets key value n held found fun _ sole => ?_
    obtain ⟨inner, alone⟩ := (is_sole_iff value).mp sole
    obtain rfl : n = Placeholder.name inner := by simpa [alone, names] using token
    cases shape : held.shapeName? with
    | none => rfl
    | some named =>
      exact absurd ⟨shape_not_text shape, inner, _, alone, (names_iff inner _).mpr rfl, found⟩ (others held)

theorem unresolved_whole (policy : Policy) (secrets : SecretMap) (key value : String) (secret : Json)
    (inner : List Char) (sole : cut value.toList = [.token inner])
    (found : KeyMap.find? (Placeholder.name inner) secrets = some secret) :
    policy.unresolved secrets key value =
      match secret.shapeName? with
      | some shape => if policy ≠ .generic then [.unsupportedValue key (Placeholder.name inner) shape] else []
      | none => [] := by
  have isSole : isSole value = true := (is_sole_iff value).mpr ⟨inner, sole⟩
  simp [unresolved, tokenErrors, tokens, sole, names, found, isSole]

theorem as_text_errors (shape : String → Tree) (key value : String) (secret : Json) :
    (asText shape key value ⟨.ofJson secret, []⟩).errors =
      match secret.shapeName? with
      | some found => [.unsupportedValue key (fieldName value) found]
      | none => [] := by
  cases secret <;> rfl

theorem replace_errors (policy : Policy) (secrets : SecretMap) (key value : String) :
    (policy.replace key value secrets).errors = policy.unresolved secrets key value := by
  rcases whole_or_partial secrets (cut value.toList) with ⟨secret, is⟩ | others
  · have resolved := resolve_whole key value secrets secret is
    obtain ⟨-, inner, n, sole, named, found⟩ := is
    obtain rfl := (names_iff inner n).mp named
    rw [unresolved_whole policy secrets key value secret inner sole found]
    cases policy with
    | generic =>
      simp only [replace, resolved]
      cases secret.shapeName? <;> simp
    | secret => simp [replace, resolved, as_text_errors, field_name_sole value inner sole]
    | string => simp [replace, resolved, as_text_errors, field_name_sole value inner sole]
  · rw [unresolved_partial policy secrets key value others]
    cases policy <;> simp [replace, resolve_partial key value secrets others, asText, text?]

end Policy

end ManifestSecrets
