import ManifestSecrets.Proofs.KeyMap
import ManifestSecrets.Walk

set_option autoImplicit false

namespace ManifestSecrets

inductive PathStep where
  | key (name : String)
  | index (i : Nat)
deriving DecidableEq, Repr

abbrev Path := List PathStep

def PathStep.Before : PathStep → PathStep → Prop
  | .key a, .key b => a < b
  | .index i, .index j => i < j
  | _, _ => False

def Path.Before (a b : Path) : Prop := List.Lex PathStep.Before a b

namespace Tree

def child? : PathStep → Tree → Option Tree
  | .key name, .mapping entries => KeyMap.find? name entries
  | .index i, .sequence items => items[i]?
  | _, _ => none

-- As `child?`, but a mapping may have several children of one name.
def IsChild : PathStep → Tree → Tree → Prop
  | .key name, .mapping entries, child => (name, child) ∈ entries
  | .index i, .sequence items, child => items[i]? = some child
  | _, _, _ => False

def at? : Path → Tree → Option Tree
  | [], t => some t
  | step :: rest, t => (child? step t).bind (at? rest)

def stepKey (key : String) : PathStep → String
  | .key name => name
  | .index i => indexedKey key i

-- The key of what stands at a path: the last mapping key, then the indexes after it. Paths of a
-- mapping start with a key, so the key given from outside counts only for other trees.
def fieldKey (key : String) (path : Path) : String := path.foldl stepKey key

def isLeaf : Tree → Bool
  | .mapping _ => false
  | .sequence _ => false
  | _ => true

def text? : Tree → Option String
  | .text s => some s
  | _ => none

def within (path : Path) (found : Path × Tree) : Path × Tree := (path ++ found.1, found.2)

mutual
def leaves : Tree → List (Path × Tree)
  | .mapping entries => entryLeaves entries
  | .sequence items => itemLeaves 0 items
  | .text s => [([], .text s)]
  | .bytes b => [([], .bytes b)]
  | .null => [([], .null)]
  | .bool b => [([], .bool b)]
  | .number n => [([], .number n)]

def itemLeaves (i : Nat) : List Tree → List (Path × Tree)
  | [] => []
  | item :: rest => (leaves item).map (within [.index i]) ++ itemLeaves (i + 1) rest

def entryLeaves : List (String × Tree) → List (Path × Tree)
  | [] => []
  | (key, value) :: rest => (leaves value).map (within [.key key]) ++ entryLeaves rest
end

def textsOf (found : List (Path × Tree)) : List (Path × String) :=
  found.filterMap fun (path, leaf) => leaf.text?.map fun s => (path, s)

def texts (t : Tree) : List (Path × String) := textsOf t.leaves

def EachLeaf (p : Tree → Prop) (t : Tree) : Prop := ∀ found ∈ t.leaves, p found.2

mutual
def Ordered : Tree → Prop
  | .mapping entries => KeyMap.Ordered entries ∧ EntriesOrdered entries
  | .sequence items => ItemsOrdered items
  | .text _ => True
  | .bytes _ => True
  | .null => True
  | .bool _ => True
  | .number _ => True

def ItemsOrdered : List Tree → Prop
  | [] => True
  | item :: rest => Ordered item ∧ ItemsOrdered rest

def EntriesOrdered : List (String × Tree) → Prop
  | [] => True
  | (_, value) :: rest => Ordered value ∧ EntriesOrdered rest
end

theorem texts_of_append (a b : List (Path × Tree)) : textsOf (a ++ b) = textsOf a ++ textsOf b :=
  List.filterMap_append

theorem texts_of_within (path : Path) (found : List (Path × Tree)) :
    textsOf (found.map (within path)) = (textsOf found).map fun (p, s) => (path ++ p, s) := by
  simp only [textsOf, List.filterMap_map, List.map_filterMap]
  congr 1
  funext ⟨p, leaf⟩
  cases leaf <;> rfl

theorem mem_texts_of (found : List (Path × Tree)) (path : Path) (s : String) :
    (path, s) ∈ textsOf found ↔ (path, .text s) ∈ found := by
  simp only [textsOf, List.mem_filterMap, Option.map_eq_some_iff, Prod.mk.injEq]
  constructor
  · rintro ⟨⟨p, leaf⟩, member, s', isText, rfl, rfl⟩
    cases leaf <;> simp_all [text?]
  · intro member
    exact ⟨_, member, s, rfl, rfl, rfl⟩

theorem mem_entry_leaves (entries : List (String × Tree)) (path : Path) (leaf : Tree) :
    (path, leaf) ∈ entryLeaves entries ↔
      ∃ key value rest, (key, value) ∈ entries ∧ path = .key key :: rest ∧ (rest, leaf) ∈ leaves value := by
  induction entries with
  | nil => simp [entryLeaves]
  | cons head tail ih =>
    obtain ⟨key, value⟩ := head
    simp only [entryLeaves, List.mem_append, List.mem_map, within, ih, List.mem_cons]
    constructor
    · rintro (⟨⟨rest, found⟩, member, same⟩ | ⟨k, v, rest, member, rfl, inside⟩)
      · obtain ⟨rfl, rfl⟩ := Prod.mk.inj same
        exact ⟨key, value, rest, .inl rfl, rfl, member⟩
      · exact ⟨k, v, rest, .inr member, rfl, inside⟩
    · rintro ⟨k, v, rest, same | member, rfl, inside⟩
      · obtain ⟨rfl, rfl⟩ := Prod.mk.inj same
        exact .inl ⟨(rest, leaf), inside, rfl⟩
      · exact .inr ⟨k, v, rest, member, rfl, inside⟩

theorem mem_item_leaves (i : Nat) (items : List Tree) (path : Path) (leaf : Tree) :
    (path, leaf) ∈ itemLeaves i items ↔
      ∃ j item rest, items[j]? = some item ∧ path = .index (i + j) :: rest ∧ (rest, leaf) ∈ leaves item := by
  induction items generalizing i with
  | nil => simp [itemLeaves]
  | cons head tail ih =>
    simp only [itemLeaves, List.mem_append, List.mem_map, within, ih]
    constructor
    · rintro (⟨⟨rest, found⟩, member, same⟩ | ⟨j, item, rest, here, rfl, inside⟩)
      · obtain ⟨rfl, rfl⟩ := Prod.mk.inj same
        exact ⟨0, head, rest, rfl, rfl, member⟩
      · exact ⟨j + 1, item, rest, here, by rw [Nat.add_assoc, Nat.add_comm 1 j], inside⟩
    · rintro ⟨j, item, rest, here, rfl, inside⟩
      cases j with
      | zero =>
        obtain rfl : head = item := by simpa using here
        exact .inl ⟨(rest, leaf), inside, rfl⟩
      | succ j => exact .inr ⟨j, item, rest, here, by rw [Nat.add_assoc, Nat.add_comm 1 j], inside⟩

theorem each_leaf_mapping (p : Tree → Prop) (entries : List (String × Tree)) :
    EachLeaf p (.mapping entries) ↔ ∀ entry ∈ entries, EachLeaf p entry.2 := by
  constructor
  · intro all entry member found inside
    exact all (.key entry.1 :: found.1, found.2)
      ((mem_entry_leaves _ _ _).mpr ⟨entry.1, entry.2, found.1, member, rfl, inside⟩)
  · intro all found member
    obtain ⟨key, value, rest, inEntries, -, inside⟩ := (mem_entry_leaves _ _ _).mp member
    exact all (key, value) inEntries (rest, found.2) inside

theorem each_leaf_sequence (p : Tree → Prop) (items : List Tree) :
    EachLeaf p (.sequence items) ↔ ∀ item ∈ items, EachLeaf p item := by
  constructor
  · intro all item member found inside
    obtain ⟨i, here⟩ := List.mem_iff_getElem?.mp member
    exact all (.index (0 + i) :: found.1, found.2)
      ((mem_item_leaves _ _ _ _).mpr ⟨i, item, found.1, here, rfl, inside⟩)
  · intro all found member
    obtain ⟨i, item, rest, here, -, inside⟩ := (mem_item_leaves _ _ _ _).mp member
    exact all item (List.mem_of_getElem? here) (rest, found.2) inside

theorem leaf_leaves (leaf : Tree) (ends : leaf.isLeaf = true) : leaf.leaves = [([], leaf)] := by
  cases leaf with
  | mapping entries => simp [isLeaf] at ends
  | sequence items => simp [isLeaf] at ends
  | _ => rfl

theorem each_leaf_single (p : Tree → Prop) (leaf : Tree) (ends : leaf.isLeaf = true) : EachLeaf p leaf ↔ p leaf := by
  rw [EachLeaf, leaf_leaves leaf ends, List.forall_mem_singleton]

theorem mem_leaves_nil (t leaf : Tree) : ([], leaf) ∈ t.leaves ↔ t = leaf ∧ leaf.isLeaf = true := by
  cases t with
  | mapping entries =>
    refine iff_of_false (fun member => ?_) (by rintro ⟨rfl, ends⟩; simp [isLeaf] at ends)
    obtain ⟨key, value, rest, -, same, -⟩ := (mem_entry_leaves _ _ _).mp member
    simp at same
  | sequence items =>
    refine iff_of_false (fun member => ?_) (by rintro ⟨rfl, ends⟩; simp [isLeaf] at ends)
    obtain ⟨i, item, rest, -, same, -⟩ := (mem_item_leaves _ _ _ _).mp member
    simp at same
  | _ =>
    rw [leaves, List.mem_singleton, Prod.mk.injEq]
    constructor
    · rintro ⟨-, rfl⟩
      exact ⟨rfl, rfl⟩
    · rintro ⟨rfl, -⟩
      exact ⟨rfl, rfl⟩

theorem mem_leaves_cons (t leaf : Tree) (step : PathStep) (rest : Path) :
    (step :: rest, leaf) ∈ t.leaves ↔ ∃ child, IsChild step t child ∧ (rest, leaf) ∈ child.leaves := by
  cases t with
  | mapping entries =>
    rw [leaves, mem_entry_leaves]
    constructor
    · rintro ⟨key, value, below, inEntries, same, inside⟩
      obtain ⟨rfl, rfl⟩ := List.cons.inj same
      exact ⟨value, inEntries, inside⟩
    · rintro ⟨child, isChild, inside⟩
      cases step with
      | key name => exact ⟨name, child, rest, isChild, rfl, inside⟩
      | index i => exact absurd isChild id
  | sequence items =>
    rw [leaves, mem_item_leaves]
    constructor
    · rintro ⟨i, item, below, here, same, inside⟩
      obtain ⟨rfl, rfl⟩ := List.cons.inj same
      exact ⟨item, by rwa [IsChild, Nat.zero_add], inside⟩
    · rintro ⟨child, isChild, inside⟩
      cases step with
      | key name => exact absurd isChild id
      | index i => exact ⟨i, child, rest, isChild, by rw [Nat.zero_add], inside⟩
  | _ =>
    refine iff_of_false (by simp [leaves]) ?_
    rintro ⟨child, isChild, -⟩
    cases step <;> exact isChild

theorem leaves_end (t : Tree) : t.EachLeaf fun leaf => leaf.isLeaf = true := by
  rintro ⟨path, leaf⟩ member
  induction path generalizing t with
  | nil => exact ((mem_leaves_nil t leaf).mp member).2
  | cons step rest ih =>
    obtain ⟨child, -, inside⟩ := (mem_leaves_cons t leaf step rest).mp member
    exact ih child inside

theorem entries_ordered_iff (entries : List (String × Tree)) :
    EntriesOrdered entries ↔ ∀ entry ∈ entries, Ordered entry.2 := by
  induction entries with
  | nil => simp [EntriesOrdered]
  | cons head rest ih =>
    obtain ⟨key, value⟩ := head
    rw [EntriesOrdered, List.forall_mem_cons, ih]

theorem items_ordered_iff (items : List Tree) : ItemsOrdered items ↔ ∀ item ∈ items, Ordered item := by
  induction items with
  | nil => simp [ItemsOrdered]
  | cons item rest ih => rw [ItemsOrdered, List.forall_mem_cons, ih]

theorem is_child_of_find (step : PathStep) (t child : Tree) (found : child? step t = some child) :
    IsChild step t child := by
  cases t with
  | mapping entries =>
    cases step with
    | key name => exact KeyMap.find_mem found
    | index i => simp [child?] at found
  | sequence items =>
    cases step with
    | key name => simp [child?] at found
    | index i => exact found
  | _ => simp [child?] at found

theorem find_of_is_child (step : PathStep) (t child : Tree) (ordered : t.Ordered) (isChild : IsChild step t child) :
    child? step t = some child ∧ child.Ordered := by
  cases t with
  | mapping entries =>
    cases step with
    | key name => exact ⟨KeyMap.find_of_mem ordered.1 isChild, (entries_ordered_iff entries).mp ordered.2 _ isChild⟩
    | index i => exact absurd isChild id
  | sequence items =>
    cases step with
    | key name => exact absurd isChild id
    | index i => exact ⟨isChild, (items_ordered_iff items).mp ordered _ (List.mem_of_getElem? isChild)⟩
  | _ => cases step <;> exact absurd isChild id

theorem mem_leaves_of_at (t : Tree) (path : Path) (leaf : Tree) (found : t.at? path = some leaf)
    (ends : leaf.isLeaf = true) : (path, leaf) ∈ t.leaves := by
  induction path generalizing t with
  | nil => exact (mem_leaves_nil t leaf).mpr ⟨Option.some.inj found, ends⟩
  | cons step rest ih =>
    obtain ⟨child, isChild, below⟩ := Option.bind_eq_some_iff.mp found
    exact (mem_leaves_cons t leaf step rest).mpr ⟨child, is_child_of_find step t child isChild, ih child below⟩

theorem at_of_mem_leaves (t : Tree) (ordered : t.Ordered) (path : Path) (leaf : Tree)
    (member : (path, leaf) ∈ t.leaves) : t.at? path = some leaf := by
  induction path generalizing t with
  | nil => rw [at?, ((mem_leaves_nil t leaf).mp member).1]
  | cons step rest ih =>
    obtain ⟨child, isChild, inside⟩ := (mem_leaves_cons t leaf step rest).mp member
    obtain ⟨found, childOrdered⟩ := find_of_is_child step t child ordered isChild
    rw [at?, found, Option.bind_some, ih child childOrdered inside]

theorem mem_leaves_iff (t : Tree) (ordered : t.Ordered) (path : Path) (leaf : Tree) :
    (path, leaf) ∈ t.leaves ↔ t.at? path = some leaf ∧ leaf.isLeaf = true :=
  ⟨fun member => ⟨at_of_mem_leaves t ordered path leaf member, leaves_end t _ member⟩,
    fun found => mem_leaves_of_at t path leaf found.1 found.2⟩

theorem mem_texts_iff (t : Tree) (ordered : t.Ordered) (path : Path) (s : String) :
    (path, s) ∈ t.texts ↔ t.at? path = some (.text s) := by
  rw [texts, mem_texts_of, mem_leaves_iff t ordered]
  exact and_iff_left rfl

theorem within_rises (step : PathStep) (found : List (Path × Tree))
    (rises : found.Pairwise fun a b => Path.Before a.1 b.1) :
    (found.map (within [step])).Pairwise fun a b => Path.Before a.1 b.1 := by
  rw [List.pairwise_map]
  exact rises.imp fun before => .cons before

mutual
theorem leaves_rise (t : Tree) (ordered : t.Ordered) :
    t.leaves.Pairwise fun a b => Path.Before a.1 b.1 := by
  cases t with
  | mapping entries => exact entry_leaves_rise entries ordered.1 ordered.2
  | sequence items => exact item_leaves_rise 0 items ordered
  | _ => exact List.pairwise_singleton _ _

theorem item_leaves_rise (i : Nat) (items : List Tree) (ordered : ItemsOrdered items) :
    (itemLeaves i items).Pairwise fun a b => Path.Before a.1 b.1 := by
  cases items with
  | nil => exact .nil
  | cons item rest =>
    refine List.pairwise_append.mpr
      ⟨within_rises _ _ (leaves_rise item ordered.1), item_leaves_rise (i + 1) rest ordered.2, ?_⟩
    rintro a first ⟨path, leaf⟩ second
    obtain ⟨front, -, rfl⟩ := List.mem_map.mp first
    obtain ⟨j, other, below, -, rfl, -⟩ := (mem_item_leaves _ _ _ _).mp second
    have less : i < i + 1 + j := by omega
    exact .rel less

theorem entry_leaves_rise (entries : List (String × Tree)) (rises : KeyMap.Ordered entries)
    (ordered : EntriesOrdered entries) : (entryLeaves entries).Pairwise fun a b => Path.Before a.1 b.1 := by
  cases entries with
  | nil => exact .nil
  | cons head rest =>
    obtain ⟨key, value⟩ := head
    obtain ⟨above, restRises⟩ := (KeyMap.ordered_cons key value rest).mp rises
    refine List.pairwise_append.mpr
      ⟨within_rises _ _ (leaves_rise value ordered.1), entry_leaves_rise rest restRises ordered.2, ?_⟩
    rintro a first ⟨path, leaf⟩ second
    obtain ⟨front, -, rfl⟩ := List.mem_map.mp first
    obtain ⟨other, v, below, member, rfl, -⟩ := (mem_entry_leaves _ _ _).mp second
    exact .rel (above _ member)
end

theorem texts_rise (t : Tree) (ordered : t.Ordered) : t.texts.Pairwise fun a b => Path.Before a.1 b.1 := by
  rw [texts, textsOf, List.pairwise_filterMap]
  refine (leaves_rise t ordered).imp ?_
  intro a b before x xHere y yHere
  obtain ⟨s, -, rfl⟩ := Option.map_eq_some_iff.mp xHere
  obtain ⟨s', -, rfl⟩ := Option.map_eq_some_iff.mp yHere
  exact before

end Tree

end ManifestSecrets
