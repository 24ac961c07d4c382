import ManifestSecrets.KeyMap

set_option autoImplicit false

namespace ManifestSecrets.KeyMap

variable {α : Type}

def keys (entries : KeyMap α) : List String := entries.map Prod.fst

theorem ordered_cons (key : String) (value : α) (rest : KeyMap α) :
    Ordered ((key, value) :: rest) ↔ (∀ entry ∈ rest, key < entry.1) ∧ Ordered rest := by
  induction rest generalizing key value with
  | nil => simp [Ordered]
  | cons head rest ih =>
    obtain ⟨next, other⟩ := head
    constructor
    · rintro ⟨less, ordered⟩
      refine ⟨fun entry member => ?_, ordered⟩
      rcases List.mem_cons.mp member with rfl | member
      · exact less
      · exact String.lt_trans less (((ih next other).mp ordered).1 entry member)
    · rintro ⟨above, ordered⟩
      exact ⟨above _ List.mem_cons_self, ordered⟩

theorem find_mem {key : String} {value : α} {entries : KeyMap α} (found : find? key entries = some value) :
    (key, value) ∈ entries := by
  induction entries with
  | nil => simp [find?] at found
  | cons head rest ih =>
    obtain ⟨k, v⟩ := head
    by_cases same : key = k
    · simp only [find?, if_pos same, Option.some.injEq] at found
      simp [same, found]
    · rw [find?, if_neg same] at found
      exact List.mem_cons_of_mem _ (ih found)

theorem find_of_mem {key : String} {value : α} {entries : KeyMap α} (ordered : Ordered entries)
    (member : (key, value) ∈ entries) : find? key entries = some value := by
  induction entries with
  | nil => simp at member
  | cons head rest ih =>
    obtain ⟨k, v⟩ := head
    obtain ⟨above, ordered⟩ := (ordered_cons k v rest).mp ordered
    rcases List.mem_cons.mp member with same | inRest
    · obtain ⟨rfl, rfl⟩ := Prod.mk.inj same
      rw [find?, if_pos rfl]
    · have different : key ≠ k := by
        rintro rfl
        exact String.lt_irrefl key (above (key, value) inRest)
      rw [find?, if_neg different, ih ordered inRest]

theorem mem_insert {key : String} {value : α} {entries : KeyMap α} {entry : String × α}
    (member : entry ∈ insert key value entries) : entry = (key, value) ∨ entry ∈ entries := by
  induction entries with
  | nil => exact .inl (by simpa [insert] using member)
  | cons head rest ih =>
    obtain ⟨k, v⟩ := head
    by_cases less : key < k
    · rw [insert, if_pos less] at member
      exact List.mem_cons.mp member
    · by_cases same : key = k
      · rw [insert, if_neg less, if_pos same] at member
        exact (List.mem_cons.mp member).imp id (List.mem_cons_of_mem _)
      · rw [insert, if_neg less, if_neg same] at member
        rcases List.mem_cons.mp member with here | member
        · exact .inr (here ▸ List.mem_cons_self)
        · exact (ih member).imp id (List.mem_cons_of_mem _)

theorem insert_ordered (key : String) (value : α) (entries : KeyMap α) (ordered : Ordered entries) :
    Ordered (insert key value entries) := by
  induction entries with
  | nil => trivial
  | cons head rest ih =>
    obtain ⟨k, v⟩ := head
    obtain ⟨above, restOrdered⟩ := (ordered_cons k v rest).mp ordered
    by_cases less : key < k
    · rw [insert, if_pos less]
      exact ⟨less, ordered⟩
    · by_cases same : key = k
      · rw [insert, if_neg less, if_pos same, ordered_cons]
        exact ⟨same ▸ above, restOrdered⟩
      · rw [insert, if_neg less, if_neg same, ordered_cons]
        refine ⟨fun entry member => ?_, ih restOrdered⟩
        rcases mem_insert member with rfl | member
        · exact Std.lt_of_le_of_ne less (Ne.symm same)
        · exact above entry member

theorem insert_same (key : String) (value : α) (entries : KeyMap α) (ordered : Ordered entries)
    (found : find? key entries = some value) : insert key value entries = entries := by
  induction entries with
  | nil => simp [find?] at found
  | cons head rest ih =>
    obtain ⟨k, v⟩ := head
    obtain ⟨above, restOrdered⟩ := (ordered_cons k v rest).mp ordered
    by_cases same : key = k
    · rw [find?, if_pos same, Option.some.injEq] at found
      rw [insert, if_neg (same ▸ String.lt_irrefl key), if_pos same, same, found]
    · rw [find?, if_neg same] at found
      have less : k < key := above (key, value) (find_mem found)
      rw [insert, if_neg (String.lt_asymm less), if_neg same, ih restOrdered found]

def mapValues {β : Type} (f : α → β) (entries : KeyMap α) : KeyMap β := entries.map fun (key, value) => (key, f value)

-- A mapping of the entries stands in the field, or there are none and no field.
def HoldsMap (mapping : KeyMap α → α) (fields : KeyMap α) (name : String) (entries : KeyMap α) : Prop :=
  find? name fields = some (mapping entries) ∨ (find? name fields = none ∧ entries = [])

theorem map_values_cons {β : Type} (f : α → β) (key : String) (value : α) (rest : KeyMap α) :
    mapValues f ((key, value) :: rest) = (key, f value) :: mapValues f rest :=
  rfl

theorem find_map_values {β : Type} (f : α → β) (key : String) (entries : KeyMap α) :
    find? key (mapValues f entries) = (find? key entries).map f := by
  induction entries with
  | nil => rfl
  | cons head rest ih =>
    obtain ⟨k, v⟩ := head
    by_cases same : key = k
    · simp [mapValues, find?, same]
    · simpa [mapValues, find?, same] using ih

theorem map_values_map_values {β γ : Type} (f : α → β) (g : β → γ) (entries : KeyMap α) :
    mapValues g (mapValues f entries) = mapValues (g ∘ f) entries :=
  List.map_map

theorem find_append_or (key : String) (front back : KeyMap α) :
    find? key (front ++ back) = (find? key front <|> find? key back) := by
  induction front with
  | nil => simp [find?]
  | cons head rest ih =>
    obtain ⟨k, v⟩ := head
    by_cases same : key = k
    · simp [find?, same]
    · simpa [find?, same] using ih

theorem find_append (key : String) (front back : KeyMap α) (absent : find? key front = none) :
    find? key (front ++ back) = find? key back := by
  rw [find_append_or, absent]
  rfl

theorem holds_map_append (mapping : KeyMap α → α) (name : String) (front back entries : KeyMap α)
    (absent : find? name front = none) (held : HoldsMap mapping back name entries) :
    HoldsMap mapping (front ++ back) name entries := by
  rwa [HoldsMap, find_append name front back absent]

theorem mem_keys_insert (name key : String) (value : α) (entries : KeyMap α) :
    name ∈ keys (insert key value entries) ↔ name = key ∨ name ∈ keys entries := by
  induction entries with
  | nil => simp [insert, keys]
  | cons head rest ih =>
    obtain ⟨k, v⟩ := head
    by_cases less : key < k
    · simp [insert, less, keys]
    · by_cases same : key = k
      · simp [insert, same, keys]
      · have later : name ∈ keys (insert key value rest) ↔ name = key ∨ name ∈ keys rest := ih
        rw [insert, if_neg less, if_neg same]
        simp only [keys, List.map_cons, List.mem_cons] at later ⊢
        rw [later]
        exact or_left_comm

theorem ordered_iff_keys (entries : KeyMap α) : Ordered entries ↔ (keys entries).Pairwise (· < ·) := by
  induction entries with
  | nil => exact iff_of_true trivial .nil
  | cons head rest ih =>
    obtain ⟨key, value⟩ := head
    rw [ordered_cons, ih, keys, keys, List.map_cons, List.pairwise_cons, List.forall_mem_map]

theorem keys_distinct (entries : KeyMap α) (ordered : Ordered entries) : (keys entries).Nodup := by
  induction entries with
  | nil => exact List.nodup_nil
  | cons head rest ih =>
    obtain ⟨key, value⟩ := head
    obtain ⟨above, restOrdered⟩ := (ordered_cons key value rest).mp ordered
    refine List.nodup_cons.mpr ⟨fun member => ?_, ih restOrdered⟩
    obtain ⟨⟨name, other⟩, inRest, rfl⟩ := List.mem_map.mp member
    exact String.lt_irrefl name (above (name, other) inRest)

theorem insert_last (key : String) (value : α) (entries : KeyMap α) (below : ∀ entry ∈ entries, entry.1 < key) :
    insert key value entries = entries ++ [(key, value)] := by
  induction entries with
  | nil => rfl
  | cons head rest ih =>
    obtain ⟨k, v⟩ := head
    obtain ⟨less, restBelow⟩ := List.forall_mem_cons.mp below
    have different : key ≠ k := by
      rintro rfl
      exact String.lt_irrefl key less
    rw [insert, if_neg (String.lt_asymm less), if_neg different, ih restBelow, List.cons_append]

theorem below_of_ordered (key : String) (value : α) (front back : KeyMap α)
    (ordered : Ordered (front ++ (key, value) :: back)) : ∀ entry ∈ front, entry.1 < key := by
  rw [ordered_iff_keys, keys, List.map_append, List.pairwise_append] at ordered
  exact fun entry member => ordered.2.2 entry.1 (List.mem_map_of_mem member) key List.mem_cons_self

theorem find_none_iff (name : String) (entries : KeyMap α) : find? name entries = none ↔ name ∉ keys entries := by
  induction entries with
  | nil => simp [find?, keys]
  | cons head rest ih =>
    obtain ⟨k, v⟩ := head
    by_cases same : name = k
    · simp [find?, keys, same]
    · simpa [find?, keys, same] using ih

theorem find_above (name : String) (entries : KeyMap α) (above : ∀ entry ∈ entries, name < entry.1) :
    find? name entries = none := by
  refine (find_none_iff name entries).mpr fun member => ?_
  obtain ⟨⟨key, value⟩, inEntries, rfl⟩ := List.mem_map.mp member
  exact String.lt_irrefl key (above (key, value) inEntries)

-- Two ordered maps that find the same are the same: the first key of each is not above that of the other.
theorem ext_of_find (a b : KeyMap α) (aOrdered : Ordered a) (bOrdered : Ordered b)
    (same : ∀ name, find? name a = find? name b) : a = b := by
  induction a generalizing b with
  | nil =>
    cases b with
    | nil => rfl
    | cons head rest =>
      have found := same head.1
      simp [find?] at found
  | cons head rest ih =>
    obtain ⟨key, value⟩ := head
    cases b with
    | nil =>
      have found := same key
      simp [find?] at found
    | cons other later =>
      obtain ⟨k, v⟩ := other
      obtain ⟨above, restOrdered⟩ := (ordered_cons key value rest).mp aOrdered
      obtain ⟨above', laterOrdered⟩ := (ordered_cons k v later).mp bOrdered
      have inB : (key, value) ∈ (k, v) :: later := find_mem ((same key).symm.trans (by simp [find?]))
      have inA : (k, v) ∈ (key, value) :: rest := find_mem ((same k).trans (by simp [find?]))
      have first : (key, value) = (k, v) := by
        rcases List.mem_cons.mp inB with here | inLater
        · exact here
        · rcases List.mem_cons.mp inA with here | inRest
          · exact here.symm
          · exact absurd (above (k, v) inRest) (String.lt_asymm (above' (key, value) inLater))
      obtain ⟨rfl, rfl⟩ := Prod.mk.inj first
      rw [ih later restOrdered laterOrdered fun name => ?_]
      by_cases here : name = key
      · subst here
        rw [find_above name rest above, find_above name later above']
      · have found := same name
        rwa [find?, if_neg here, find?, if_neg here] at found

theorem of_list_ordered (entries : List (String × α)) : Ordered (ofList entries) := by
  have run : ∀ seen : KeyMap α, Ordered seen → Ordered (entries.foldl (fun acc (k, v) => insert k v acc) seen) := by
    induction entries with
    | nil => exact fun seen ordered => ordered
    | cons head rest ih => exact fun seen ordered => ih _ (insert_ordered head.1 head.2 seen ordered)
  exact run [] trivial

theorem mem_of_list {entries : List (String × α)} {entry : String × α} (member : entry ∈ ofList entries) :
    entry ∈ entries := by
  have run : ∀ seen : KeyMap α, entry ∈ entries.foldl (fun acc (k, v) => insert k v acc) seen →
      entry ∈ entries ∨ entry ∈ seen := by
    clear member
    induction entries with
    | nil => exact fun seen member => .inr member
    | cons head rest ih =>
      intro seen member
      rcases ih _ member with later | before
      · exact .inl (List.mem_cons_of_mem _ later)
      · rcases mem_insert before with rfl | before
        · exact .inl List.mem_cons_self
        · exact .inr before
  exact (run [] member).resolve_right List.not_mem_nil

theorem find_of_list (name : String) (entries : List (String × α)) (distinct : (keys entries).Nodup) :
    find? name (ofList entries) = find? name entries := by
  have run : ∀ seen : KeyMap α, find? name (entries.foldl (fun acc (k, v) => insert k v acc) seen) =
      (find? name entries).or (find? name seen) := by
    induction entries with
    | nil => exact fun seen => rfl
    | cons head rest ih =>
      obtain ⟨key, value⟩ := head
      obtain ⟨fresh, restDistinct⟩ := List.nodup_cons.mp distinct
      intro seen
      rw [List.foldl_cons, ih restDistinct]
      by_cases here : name = key
      · subst here
        rw [find_insert_self, (find_none_iff name rest).mpr fresh, find?, if_pos rfl]
        rfl
      · rw [find_insert_other key name value seen here, find?, if_neg here]
  rw [ofList, run, find?, Option.or_none]

theorem of_list_of_ordered (entries : KeyMap α) (ordered : Ordered entries) : ofList entries = entries :=
  ext_of_find _ _ (of_list_ordered entries) ordered fun name => find_of_list name entries (keys_distinct entries ordered)

theorem keys_map_values {β : Type} (f : α → β) (entries : KeyMap α) : keys (mapValues f entries) = keys entries :=
  List.map_map

theorem map_values_ordered {β : Type} (f : α → β) (entries : KeyMap α) (ordered : Ordered entries) :
    Ordered (mapValues f entries) := by
  induction entries with
  | nil => trivial
  | cons head rest ih =>
    cases rest with
    | nil => trivial
    | cons next rest => exact ⟨ordered.1, ih ordered.2⟩

theorem filter_ordered (p : String × α → Bool) (entries : KeyMap α) (ordered : Ordered entries) :
    Ordered (entries.filter p) := by
  induction entries with
  | nil => trivial
  | cons head rest ih =>
    obtain ⟨key, value⟩ := head
    obtain ⟨above, restOrdered⟩ := (ordered_cons key value rest).mp ordered
    rw [List.filter_cons]
    split
    · exact (ordered_cons key value _).mpr
        ⟨fun entry member => above entry (List.mem_filter.mp member).1, ih restOrdered⟩
    · exact ih restOrdered

end ManifestSecrets.KeyMap
