set_option autoImplicit false

namespace ManifestSecrets

abbrev KeyMap (α : Type) := List (String × α)

namespace KeyMap

variable {α β : Type}

def insert (key : String) (value : α) : KeyMap α → KeyMap α
  | [] => [(key, value)]
  | (k, v) :: rest =>
      if key < k then (key, value) :: (k, v) :: rest
      else if key = k then (key, value) :: rest
      else (k, v) :: insert key value rest

def find? (key : String) : KeyMap α → Option α
  | [] => none
  | (k, v) :: rest => if key = k then some v else find? key rest

def contains (key : String) (entries : KeyMap α) : Bool := (find? key entries).isSome

-- The last entry of each key wins.
def ofList (entries : List (String × α)) : KeyMap α :=
  entries.foldl (fun acc (k, v) => insert k v acc) []

def Ordered : KeyMap α → Prop
  | [] => True
  | [_] => True
  | (k, _) :: (k', v') :: rest => k < k' ∧ Ordered ((k', v') :: rest)

theorem find_insert_self (key : String) (value : α) (entries : KeyMap α) :
    find? key (insert key value entries) = some value := by
  induction entries with
  | nil => simp [insert, find?]
  | cons head rest ih =>
    obtain ⟨k, v⟩ := head
    by_cases less : key < k
    · simp [insert, less, find?]
    · by_cases same : key = k
      · simp [insert, same, find?]
      · simp [insert, less, same, find?, ih]

theorem find_insert_other (key other : String) (value : α) (entries : KeyMap α) (different : other ≠ key) :
    find? other (insert key value entries) = find? other entries := by
  induction entries with
  | nil => simp [insert, find?, different]
  | cons head rest ih =>
    obtain ⟨k, v⟩ := head
    by_cases less : key < k
    · simp [insert, less, find?, different]
    · by_cases same : key = k
      · subst same
        simp [insert, find?, different]
      · by_cases here : other = k
        · simp [insert, less, same, find?, here]
        · simp [insert, less, same, find?, here, ih]

end KeyMap

end ManifestSecrets
