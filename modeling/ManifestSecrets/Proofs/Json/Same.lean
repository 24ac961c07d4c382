import ManifestSecrets.Json.Basic

set_option autoImplicit false

namespace ManifestSecrets.Json

mutual
theorem same_refl (a : Json) : same a a = true := by
  cases a with
  | array items => exact same_items_refl items
  | object fields => exact same_fields_refl fields
  | _ => simp [same]

theorem same_items_refl (items : List Json) : sameItems items items = true := by
  cases items with
  | nil => rfl
  | cons item rest => simp [sameItems, same_refl item, same_items_refl rest]

theorem same_fields_refl (fields : List (String × Json)) : sameFields fields fields = true := by
  cases fields with
  | nil => rfl
  | cons head rest => simp [sameFields, same_refl head.2, same_fields_refl rest]
end

mutual
theorem eq_of_same (a b : Json) (alike : same a b = true) : a = b := by
  cases a with
  | array items =>
    cases b with
    | array others => exact congrArg _ (items_eq_of_same items others alike)
    | _ => simp [same] at alike
  | object fields =>
    cases b with
    | object others => exact congrArg _ (fields_eq_of_same fields others alike)
    | _ => simp [same] at alike
  | _ => cases b <;> simp_all [same]

theorem items_eq_of_same (as bs : List Json) (alike : sameItems as bs = true) : as = bs := by
  cases as with
  | nil => cases bs <;> simp_all [sameItems]
  | cons a rest =>
    cases bs with
    | nil => simp [sameItems] at alike
    | cons b others =>
      rw [sameItems, Bool.and_eq_true] at alike
      rw [eq_of_same a b alike.1, items_eq_of_same rest others alike.2]

theorem fields_eq_of_same (as bs : List (String × Json)) (alike : sameFields as bs = true) : as = bs := by
  cases as with
  | nil => cases bs <;> simp_all [sameFields]
  | cons a rest =>
    cases bs with
    | nil => simp [sameFields] at alike
    | cons b others =>
      simp only [sameFields, Bool.and_eq_true, beq_iff_eq] at alike
      rw [Prod.ext alike.1.1 (eq_of_same a.2 b.2 alike.1.2), fields_eq_of_same rest others alike.2]
end

theorem same_iff (a b : Json) : same a b = true ↔ a = b := by
  constructor
  · exact eq_of_same a b
  · rintro rfl
    exact same_refl a

instance : DecidableEq Json := fun a b => decidable_of_iff _ (same_iff a b)

end ManifestSecrets.Json
