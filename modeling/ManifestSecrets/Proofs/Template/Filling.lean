import ManifestSecrets.Proofs.Retry
import ManifestSecrets.Proofs.Template.Discretion
import ManifestSecrets.Shape.Decoder

set_option autoImplicit false

namespace ManifestSecrets

abbrev SecretTypes := String → Option JsonType

def secretTypes (secrets : SecretMap) : SecretTypes := fun n => (KeyMap.find? n secrets).map Json.typeOf

theorem alike_iff_types (a b : SecretMap) : Alike a b ↔ secretTypes a = secretTypes b :=
  funext_iff.symm

theorem null_of_type (value : Json) (typed : value.typeOf = .null) : value = .null := by
  cases value <;> first | rfl | cases typed

namespace Placeholder

def Piece.settled (types : SecretTypes) : Piece → String
  | .literal chars => String.ofList chars
  | .token inner => if types (name inner) = some .null then "null" else (Piece.token inner).text

def settledText (types : SecretTypes) (value : String) : String :=
  String.join ((cut value.toList).map (Piece.settled types))

def varies (types : SecretTypes) (value : String) : Bool :=
  (tokens value).any fun n => (types n).any (· ≠ .null)

def wholeType? (types : SecretTypes) (value : String) : Option JsonType :=
  match cut value.toList with
  | [.token inner] => (types (name inner)).filter (· ≠ .string)
  | _ => none

variable (secrets : SecretMap)

theorem whole_type_of_whole (value : String) (secret : Json) (whole : Whole secrets (cut value.toList) secret) :
    wholeType? (secretTypes secrets) value = some secret.typeOf := by
  obtain ⟨other, inner, n, sole, named, found⟩ := whole
  obtain rfl := (names_iff inner n).mp named
  have apart : secret.typeOf ≠ .string := by
    cases secret with
    | text s => exact absurd rfl (other s)
    | _ => simp [Json.typeOf]
  simp [wholeType?, sole, secretTypes, found, Option.filter_some, apart]

theorem whole_type_of_partial (value : String) (others : ∀ secret, ¬ Whole secrets (cut value.toList) secret) :
    wholeType? (secretTypes secrets) value = none := by
  unfold wholeType?
  split
  next inner sole =>
    cases found : KeyMap.find? (name inner) secrets with
    | none => simp [secretTypes, found]
    | some secret =>
      cases secret with
      | text s => simp [secretTypes, found, Json.typeOf, Option.filter_some]
      | _ => exact absurd ⟨by simp, inner, _, sole, (names_iff inner _).mpr rfl, found⟩ (others _)
  next => rfl

theorem refill_settled (value : String) (fixed : varies (secretTypes secrets) value = false) :
    refill secrets value = settledText (secretTypes secrets) value := by
  refine congrArg String.join (List.map_congr_left fun piece member => ?_)
  cases piece with
  | literal chars => rfl
  | token inner =>
    have token : name inner ∈ tokens value := List.mem_filterMap.mpr ⟨_, member, rfl⟩
    have null := List.any_eq_false.mp fixed _ token
    cases found : KeyMap.find? (name inner) secrets with
    | none => simp [Piece.replaced, Piece.settled, secretTypes, found]
    | some secret =>
      have typed : secret.typeOf = .null := by simpa [secretTypes, found] using null
      obtain rfl := null_of_type secret typed
      simp [Piece.replaced, Piece.settled, secretTypes, found, Json.typeOf, insertedText, Json.write]

end Placeholder

open Placeholder

inductive Filling where
  | known (value : Json)
  | plain (type : JsonType)
  | encoded

def Filling.Has : Filling → Json → Prop
  | .known value, found => found = value
  | .plain type, found => found.typeOf = type
  | .encoded, found => ∃ b, found = Shape.bytesJson b

def JsonType.hasText : JsonType → Bool
  | .bool => true
  | .number => true
  | .string => true
  | _ => false

theorem has_text_iff (secret : Json) : secret.typeOf.hasText = true ↔ secret.shapeName? = none := by
  cases secret <;> simp [Json.typeOf, JsonType.hasText, Json.shapeName?]

namespace Policy

-- What is known of a text that secrets change.
def varied : Policy → Filling
  | .secret => .encoded
  | _ => .plain .string

theorem shaped_varied (policy : Policy) (text : String) : policy.varied.Has (policy.shaped text).toJson := by
  cases policy with
  | secret => exact ⟨Text.utf8 text, rfl⟩
  | _ => rfl

def filling (types : SecretTypes) (policy : Policy) (value : String) : Filling :=
  match wholeType? types value with
  | some type =>
      if policy = .generic then .plain type
      else if type.hasText then policy.varied
      else .known (.text value)
  | none =>
      if varies types value then policy.varied
      else .known (policy.shaped (settledText types value)).toJson

theorem filling_has (secrets : SecretMap) (policy : Policy) (key value : String) :
    (policy.filling (secretTypes secrets) value).Has (policy.replace key value secrets).value.toJson := by
  rcases whole_or_partial secrets (cut value.toList) with ⟨secret, whole⟩ | others
  · simp only [filling, whole_type_of_whole secrets value secret whole,
      replace_whole secrets policy key value secret whole]
    by_cases generic : policy = .generic
    · rw [if_pos generic, if_pos generic, Tree.toJson_ofJson]
      rfl
    · rw [if_neg generic, if_neg generic]
      by_cases text : secret.shapeName? = none
      · rw [if_pos ((has_text_iff secret).mpr text), if_pos text]
        exact policy.shaped_varied secret.write
      · rw [if_neg (mt (has_text_iff secret).mp text), if_neg text]
        rfl
  · simp only [filling, whole_type_of_partial secrets value others, replace_partial secrets policy key value others]
    cases fixed : varies (secretTypes secrets) value with
    | true => exact policy.shaped_varied _
    | false =>
      rw [refill_settled secrets value fixed]
      rfl

theorem filling_shaped (types : SecretTypes) (policy : Policy) (shapes : policy ≠ .generic) (value : String) :
    policy.filling types value = policy.varied ∨ ∃ v, policy.filling types value = .known v := by
  unfold filling
  split
  next type whole =>
    rw [if_neg shapes]
    split
    · exact .inl rfl
    · exact .inr ⟨_, rfl⟩
  next =>
    split
    · exact .inl rfl
    · exact .inr ⟨_, rfl⟩

end Policy

def fillText (policy : Policy) (secrets : SecretMap) (value : String) : Json :=
  (policy.replace "" value secrets).value.toJson

namespace Tree

mutual
def fill (policy : Policy) (secrets : SecretMap) : Tree → Json
  | .mapping entries => .object (fillEntries policy secrets entries)
  | .sequence items => .array (fillItems policy secrets items)
  | .text s => fillText policy secrets s
  | .bytes b => .text (Text.Base64.encode b)
  | .null => .null
  | .bool b => .bool b
  | .number n => .number n

def fillItems (policy : Policy) (secrets : SecretMap) : List Tree → List Json
  | [] => []
  | item :: rest => fill policy secrets item :: fillItems policy secrets rest

def fillEntries (policy : Policy) (secrets : SecretMap) : List (String × Tree) → List (String × Json)
  | [] => []
  | (key, value) :: rest => (key, fill policy secrets value) :: fillEntries policy secrets rest
end

def fillBy (policy : Option Policy) (secrets : SecretMap) (t : Tree) : Json :=
  match policy with
  | some policy => t.fill policy secrets
  | none => t.toJson

theorem fill_entries_map (policy : Policy) (secrets : SecretMap) (entries : List (String × Tree)) :
    fillEntries policy secrets entries = KeyMap.mapValues (fill policy secrets) entries := by
  induction entries with
  | nil => rfl
  | cons head rest ih => exact congrArg _ ih

theorem fill_items_length (policy : Policy) (secrets : SecretMap) (items : List Tree) :
    (fillItems policy secrets items).length = items.length := by
  induction items with
  | nil => rfl
  | cons item rest ih => simpa [fillItems] using ih

theorem replace_value_key (policy : Policy) (secrets : SecretMap) (key other value : String) :
    (policy.replace key value secrets).value = (policy.replace other value secrets).value := by
  rcases whole_or_partial secrets (cut value.toList) with ⟨secret, whole⟩ | others
  · rw [Policy.replace_whole secrets policy key value secret whole,
      Policy.replace_whole secrets policy other value secret whole]
  · rw [Policy.replace_partial secrets policy key value others,
      Policy.replace_partial secrets policy other value others]

mutual
theorem walk_fill (policy : Policy) (secrets : SecretMap) (key : String) (t : Tree) :
    (walk policy secrets key t).value.toJson = fill policy secrets t := by
  cases t with
  | mapping entries => exact congrArg _ (walk_entries_fill policy secrets entries)
  | sequence items => exact congrArg _ (walk_items_fill policy secrets key 0 items)
  | text s => exact congrArg _ (replace_value_key policy secrets key "" s)
  | _ => rfl

theorem walk_items_fill (policy : Policy) (secrets : SecretMap) (key : String) (i : Nat) (items : List Tree) :
    itemsToJson (walkItems policy secrets key i items).value = fillItems policy secrets items := by
  cases items with
  | nil => rfl
  | cons item rest =>
    have first := walk_fill policy secrets (indexedKey key i) item
    have others := walk_items_fill policy secrets key (i + 1) rest
    simp only [walkItems, Walked.both, itemsToJson, fillItems, first, others]

theorem walk_entries_fill (policy : Policy) (secrets : SecretMap) (entries : List (String × Tree)) :
    entriesToJson (walkEntries policy secrets entries).value = fillEntries policy secrets entries := by
  cases entries with
  | nil => rfl
  | cons head rest =>
    have first := walk_fill policy secrets head.1 head.2
    have others := walk_entries_fill policy secrets rest
    simp only [walkEntries, Walked.both, entriesToJson, fillEntries, first, others]
end

end Tree

end ManifestSecrets
