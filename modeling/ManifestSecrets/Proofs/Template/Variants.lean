import Mathlib.Algebra.GroupWithZero.Nat
import Mathlib.Algebra.Order.BigOperators.Group.List
import Mathlib.Algebra.Order.Group.Nat
import ManifestSecrets.Proofs.Template.Filling
import ManifestSecrets.Text.Quoted

set_option autoImplicit false

namespace ManifestSecrets

namespace Text

def weight (s : String) : Nat := (String.join (s.toList.map quotedChar)).length

theorem quoted_length (s : String) : (quoted s).length = weight s + 2 := by
  rw [quoted, String.length_append, String.length_append, ← weight]
  change 1 + weight s + 1 = _
  omega

theorem weight_append (s r : String) : weight (s ++ r) = weight s + weight r := by
  simp [weight, String.join_append]

theorem weight_join (texts : List String) : weight (String.join texts) = (texts.map weight).sum := by
  induction texts with
  | nil => rfl
  | cons s rest ih => rw [String.join_cons, weight_append, ih, List.map_cons, List.sum_cons]

end Text

theorem types_inserted (secrets : SecretMap) (n : String) (value : Json)
    (typed : secretTypes secrets n = some value.typeOf) :
    secretTypes (KeyMap.insert n value secrets) = secretTypes secrets := by
  funext m
  by_cases same : m = n
  · rw [same, typed, secretTypes, KeyMap.find_insert_self, Option.map_some]
  · rw [secretTypes, KeyMap.find_insert_other n m value secrets same, secretTypes]

open Placeholder

theorem fill_inserted (secrets : SecretMap) (value : String) (inner : List Char) (secret : Json)
    (sole : cut value.toList = [.token inner]) (other : ∀ s, secret ≠ .text s) :
    fillText .generic (KeyMap.insert (name inner) secret secrets) value = secret := by
  have whole : Whole (KeyMap.insert (name inner) secret secrets) (cut value.toList) secret :=
    ⟨other, inner, _, sole, (names_iff inner _).mpr rfl, KeyMap.find_insert_self _ _ _⟩
  rw [fillText, Policy.replace_whole _ _ _ _ _ whole, if_pos rfl, Tree.toJson_ofJson]

theorem type_text_lengths (type : JsonType) (present : type ≠ .null) :
    ∃ short long : Json, short.typeOf = type ∧ long.typeOf = type ∧
      Text.weight (insertedText short) < Text.weight (insertedText long) := by
  cases type with
  | null => exact absurd rfl present
  | bool => exact ⟨.bool true, .bool false, rfl, rfl, by decide +kernel⟩
  | number => exact ⟨.ofUnsigned 0, .ofUnsigned 10, rfl, rfl, by decide +kernel⟩
  | string => exact ⟨.text "", .text "0", rfl, rfl, by decide +kernel⟩
  | array => exact ⟨.array [], .array [.null], rfl, rfl, by decide +kernel⟩
  | object => exact ⟨.object [], .object [("", .null)], rfl, rfl, by decide +kernel⟩

theorem refill_longer (secrets : SecretMap) (value n : String) (short long : Json) (token : n ∈ tokens value)
    (longer : Text.weight (insertedText short) < Text.weight (insertedText long)) :
    Text.weight (refill (KeyMap.insert n short secrets) value) <
      Text.weight (refill (KeyMap.insert n long secrets) value) := by
  have known (secret : Json) (inner : List Char) (same : name inner = n) :
      (Piece.token inner).replaced (KeyMap.insert n secret secrets) = insertedText secret :=
    replaced_known _ inner secret (by rw [same, KeyMap.find_insert_self])
  have apart (secret other : Json) (inner : List Char) (different : name inner ≠ n) :
      (Piece.token inner).replaced (KeyMap.insert n secret secrets) =
        (Piece.token inner).replaced (KeyMap.insert n other secrets) := by
    rw [Piece.replaced, Piece.replaced, KeyMap.find_insert_other n _ secret secrets different,
      KeyMap.find_insert_other n _ other secrets different]
  rw [refill, refill, Text.weight_join, Text.weight_join, List.map_map, List.map_map]
  apply List.sum_lt_sum
  · intro piece _
    cases piece with
    | literal chars => exact Nat.le_refl _
    | token inner =>
      by_cases same : name inner = n
      · simpa only [Function.comp_apply, known _ inner same] using Nat.le_of_lt longer
      · exact Nat.le_of_eq (congrArg Text.weight (apart short long inner same))
  · obtain ⟨piece, member, named⟩ := List.mem_filterMap.mp token
    cases piece with
    | literal chars => cases named
    | token inner =>
      have same : name inner = n := Option.some.inj named
      exact ⟨_, member, by simpa only [Function.comp_apply, known _ inner same] using longer⟩

end ManifestSecrets
