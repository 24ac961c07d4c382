import ManifestSecrets.Proofs.Document.Entries
import ManifestSecrets.Proofs.Json.Read

set_option autoImplicit false

namespace ManifestSecrets

namespace Tree

mutual
theorem of_yaml_of_json (path : String) (value : Json) (ordered : value.Ordered) (finite : value.EachLeaf Finite) :
    ofYaml path (.ofJson value) = .ok (ofJson value) := by
  cases value with
  | object fields =>
    have rises := entries_of_json_rise fields ordered.1
    have inside := entries_of_yaml_of_json path [] fields rises ordered.2 ((Json.each_leaf_object _ _).mp finite)
    rw [Yaml.ofJson, ofYaml, inside]
    rfl
  | array items =>
    have inside := items_of_yaml_of_json path 0 items ordered ((Json.each_leaf_array _ _).mp finite)
    rw [Yaml.ofJson, ofYaml, inside]
    rfl
  | number n =>
    have alone : n.isFinite = true := (each_leaf_single Finite (.number n) rfl).mp finite
    rw [Yaml.ofJson, of_yaml_number, if_pos alone]
    rfl
  | _ => rfl

theorem items_of_yaml_of_json (path : String) (i : Nat) (items : List Json) (ordered : Json.ItemsOrdered items)
    (finite : ∀ item ∈ items, item.EachLeaf Finite) :
    itemsOfYaml path i (Yaml.itemsOfJson items) = .ok (itemsOfJson items) := by
  cases items with
  | nil => rfl
  | cons item rest =>
    obtain ⟨first, later⟩ := List.forall_mem_cons.mp finite
    rw [Yaml.itemsOfJson, itemsOfYaml, of_yaml_of_json _ item ordered.1 first,
      items_of_yaml_of_json path (i + 1) rest ordered.2 later]
    rfl

-- Each entry comes after those before it, so inserting them one by one only puts them behind each other.
theorem entries_of_yaml_of_json (path : String) (seen : KeyMap Tree) (fields : List (String × Json))
    (rises : KeyMap.Ordered (seen ++ entriesOfJson fields)) (ordered : Json.FieldsOrdered fields)
    (finite : ∀ field ∈ fields, field.2.EachLeaf Finite) :
    entriesOfYaml path seen (Yaml.entriesOfJson fields) = .ok (seen ++ entriesOfJson fields) := by
  cases fields with
  | nil => simp [Yaml.entriesOfJson, entriesOfYaml, entriesOfJson]
  | cons head rest =>
    obtain ⟨key, value⟩ := head
    obtain ⟨first, later⟩ := List.forall_mem_cons.mp finite
    have last := KeyMap.insert_last key (ofJson value) seen (KeyMap.below_of_ordered key _ seen _ rises)
    rw [entriesOfJson, List.append_cons] at rises
    have decoded := of_yaml_of_json (childPath path key) value ordered.1 first
    have others := entries_of_yaml_of_json path _ rest rises ordered.2 later
    rw [Yaml.entriesOfJson, entriesOfYaml, entriesOfJson, List.append_cons, ← others, ← last]
    simp only [keyText?, decoded]
    rfl
end

end Tree

namespace Document

theorem decoded_alike (value : Json) (proper : value.Proper) : ofYaml (.ofJson value) = ofJson value := by
  rw [ofYaml, Tree.of_yaml_of_json "" value proper.ordered proper.finite]
  rfl

theorem root_written (fields : List (String × Json)) :
    ∃ d, ofJson (.object fields) = .ok d ∧ d.toJson = .object fields :=
  ⟨⟨Tree.entriesOfJson fields⟩, rfl, Tree.toJson_ofJson (.object fields)⟩

-- Whatever value a text of JSON is read as, both decoders take it alike.
theorem read_decoded_alike (text : String) (value : Json) (read : Json.read? text = some value) :
    ofYaml (.ofJson value) = ofJson value :=
  decoded_alike value (Json.read_proper text value read)

theorem decoders_agree (value : Json) (proper : value.Proper) :
    ofYaml (.ofJson value) = ofJson value ∧
      ∀ fields, value = .object fields → ∃ d, ofJson value = .ok d ∧ d.toJson = value := by
  refine ⟨decoded_alike value proper, ?_⟩
  rintro fields rfl
  exact root_written fields

def limits : KeyMap Json :=
  [("greatest", .ofUnsigned 18446744073709551615),
    ("least", .number (.integer (.ofSigned (-9223372036854775808)))),
    ("none", .number (.float (.finite true .zero)))]

def boundaries : Json := .object [("flags", .array [.null, .bool true]), ("limits", .object limits)]

theorem decoders_agree_boundaries :
    ofYaml (.ofJson boundaries) = ofJson boundaries ∧ (∃ d, ofJson boundaries = .ok d ∧ d.toJson = boundaries) ∧
      ofYaml (.ofJson (.array [boundaries])) = ofJson (.array [boundaries]) := by
  have inLimits : (Json.object limits).Proper := by
    refine (Json.proper_object_iff limits).mpr ⟨⟨by decide, by decide, trivial⟩, ?_⟩
    simp only [limits, Json.ofUnsigned, List.forall_mem_cons, Json.proper_number_iff]
    exact ⟨rfl, rfl, rfl, by simp⟩
  have inFlags : (Json.array [.null, .bool true]).Proper :=
    (Json.proper_array_iff _).mpr (by simp [Json.proper_scalar])
  have proper : boundaries.Proper :=
    (Json.proper_object_iff _).mpr ⟨⟨by decide, trivial⟩, by simp [inLimits, inFlags]⟩
  have nested : (Json.array [boundaries]).Proper := (Json.proper_array_iff _).mpr (by simp [proper])
  have alone := decoders_agree boundaries proper
  exact ⟨alone.1, alone.2 _ rfl, (decoders_agree _ nested).1⟩

end Document

end ManifestSecrets
