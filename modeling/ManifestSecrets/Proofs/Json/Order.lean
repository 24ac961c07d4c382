import ManifestSecrets.Proofs.Json.Places

set_option autoImplicit false

namespace ManifestSecrets

namespace Json

mutual
def sorted : Json → Json
  | .object fields => .object (KeyMap.ofList (sortedFields fields))
  | .array items => .array (sortedItems items)
  | .text s => .text s
  | .number n => .number n
  | .bool b => .bool b
  | .null => .null

def sortedItems : List Json → List Json
  | [] => []
  | item :: rest => sorted item :: sortedItems rest

def sortedFields : List (String × Json) → List (String × Json)
  | [] => []
  | (key, value) :: rest => (key, sorted value) :: sortedFields rest
end

theorem sorted_fields_map (fields : List (String × Json)) : sortedFields fields = KeyMap.mapValues sorted fields := by
  induction fields with
  | nil => rfl
  | cons head rest ih => exact congrArg _ ih

theorem fields_ordered_iff (fields : List (String × Json)) :
    FieldsOrdered fields ↔ ∀ entry ∈ fields, Ordered entry.2 := by
  induction fields with
  | nil => simp [FieldsOrdered]
  | cons head rest ih =>
    obtain ⟨key, value⟩ := head
    rw [FieldsOrdered, List.forall_mem_cons, ih]

theorem items_ordered_iff (items : List Json) : ItemsOrdered items ↔ ∀ item ∈ items, Ordered item := by
  induction items with
  | nil => simp [ItemsOrdered]
  | cons item rest ih => rw [ItemsOrdered, List.forall_mem_cons, ih]

mutual
theorem sorted_of_ordered (value : Json) (ordered : value.Ordered) : value.sorted = value := by
  cases value with
  | object fields =>
    rw [sorted, sorted_fields_of_ordered fields ordered.2, KeyMap.of_list_of_ordered fields ordered.1]
  | array items => rw [sorted, sorted_items_of_ordered items ordered]
  | _ => rfl

theorem sorted_items_of_ordered (items : List Json) (ordered : ItemsOrdered items) : sortedItems items = items := by
  cases items with
  | nil => rfl
  | cons item rest =>
    rw [sortedItems, sorted_of_ordered item ordered.1, sorted_items_of_ordered rest ordered.2]

theorem sorted_fields_of_ordered (fields : List (String × Json)) (ordered : FieldsOrdered fields) :
    sortedFields fields = fields := by
  cases fields with
  | nil => rfl
  | cons head rest =>
    obtain ⟨key, value⟩ := head
    rw [sortedFields, sorted_of_ordered value ordered.1, sorted_fields_of_ordered rest ordered.2]
end

mutual
theorem sorted_ordered (value : Json) : value.sorted.Ordered := by
  cases value with
  | object fields =>
    refine ⟨KeyMap.of_list_ordered _, (fields_ordered_iff _).mpr fun entry member => ?_⟩
    exact (fields_ordered_iff _).mp (sorted_fields_ordered fields) entry (KeyMap.mem_of_list member)
  | array items => exact sorted_items_ordered items
  | _ => trivial

theorem sorted_items_ordered (items : List Json) : ItemsOrdered (sortedItems items) := by
  cases items with
  | nil => trivial
  | cons item rest => exact ⟨sorted_ordered item, sorted_items_ordered rest⟩

theorem sorted_fields_ordered (fields : List (String × Json)) : FieldsOrdered (sortedFields fields) := by
  cases fields with
  | nil => trivial
  | cons head rest =>
    obtain ⟨key, value⟩ := head
    exact ⟨sorted_ordered value, sorted_fields_ordered rest⟩
end

theorem find_sorted (name : String) (fields : KeyMap Json) (distinct : (KeyMap.keys fields).Nodup) :
    KeyMap.find? name (KeyMap.ofList (sortedFields fields)) = (KeyMap.find? name fields).map sorted := by
  rw [sorted_fields_map, KeyMap.find_of_list name _ (by rwa [KeyMap.keys_map_values]), KeyMap.find_map_values]

section Leaves

variable (p : Tree → Prop)

mutual
theorem each_leaf_sorted (value : Json) (each : value.EachLeaf p) : value.sorted.EachLeaf p := by
  cases value with
  | object fields =>
    rw [sorted, each_leaf_object]
    rw [each_leaf_object] at each
    exact fun entry member => each_leaf_sorted_fields fields each entry (KeyMap.mem_of_list member)
  | array items =>
    rw [sorted, each_leaf_array]
    rw [each_leaf_array] at each
    exact each_leaf_sorted_items items each
  | _ => exact each

theorem each_leaf_sorted_items (items : List Json) (each : ∀ item ∈ items, item.EachLeaf p) :
    ∀ item ∈ sortedItems items, item.EachLeaf p := by
  cases items with
  | nil => exact each
  | cons item rest =>
    obtain ⟨first, later⟩ := List.forall_mem_cons.mp each
    exact List.forall_mem_cons.mpr ⟨each_leaf_sorted item first, each_leaf_sorted_items rest later⟩

theorem each_leaf_sorted_fields (fields : List (String × Json)) (each : ∀ entry ∈ fields, entry.2.EachLeaf p) :
    ∀ entry ∈ sortedFields fields, entry.2.EachLeaf p := by
  cases fields with
  | nil => exact each
  | cons head rest =>
    obtain ⟨key, value⟩ := head
    obtain ⟨first, later⟩ := List.forall_mem_cons.mp each
    exact List.forall_mem_cons.mpr ⟨each_leaf_sorted value first, each_leaf_sorted_fields rest later⟩
end

end Leaves

end Json

namespace Tree

mutual
theorem to_json_ordered (t : Tree) (ordered : t.Ordered) : t.toJson.Ordered := by
  cases t with
  | mapping entries =>
    refine ⟨?_, entries_to_json_ordered entries ordered.2⟩
    rw [entries_to_json]
    exact KeyMap.map_values_ordered toJson entries ordered.1
  | sequence items => exact items_to_json_ordered items ordered
  | _ => trivial

theorem items_to_json_ordered (items : List Tree) (ordered : ItemsOrdered items) :
    Json.ItemsOrdered (itemsToJson items) := by
  cases items with
  | nil => trivial
  | cons item rest => exact ⟨to_json_ordered item ordered.1, items_to_json_ordered rest ordered.2⟩

theorem entries_to_json_ordered (entries : List (String × Tree)) (ordered : EntriesOrdered entries) :
    Json.FieldsOrdered (entriesToJson entries) := by
  cases entries with
  | nil => trivial
  | cons head rest =>
    obtain ⟨key, value⟩ := head
    exact ⟨to_json_ordered value ordered.1, entries_to_json_ordered rest ordered.2⟩
end

end Tree

end ManifestSecrets
