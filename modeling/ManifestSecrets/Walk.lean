import ManifestSecrets.Policy

/-!
Filling in every text under a mapping. The key of a text is the nearest enclosing mapping key, with an
index for each sequence between them. Errors are collected in the order of the walk, and the walk
never stops early.
-/

set_option autoImplicit false

namespace ManifestSecrets

structure Walked (α : Type) where
  value : α
  errors : List ReplacementError
  visited : Nat

namespace Walked

variable {α β γ : Type}

def pure (value : α) : Walked α := ⟨value, [], 0⟩

def map (f : α → β) (w : Walked α) : Walked β := ⟨f w.value, w.errors, w.visited⟩

-- The errors of the first part come first.
def both (f : α → β → γ) (a : Walked α) (b : Walked β) : Walked γ :=
  ⟨f a.value b.value, a.errors ++ b.errors, a.visited + b.visited⟩

end Walked

namespace Tree

def indexedKey (key : String) (index : Nat) : String := key ++ "[" ++ toString index ++ "]"

mutual
def walk (policy : Policy) (secrets : SecretMap) (key : String) : Tree → Walked Tree
  | .mapping entries => (walkEntries policy secrets entries).map .mapping
  | .sequence items => (walkItems policy secrets key 0 items).map .sequence
  | .text s =>
      let r := policy.replace key s secrets
      ⟨r.value, r.errors, 1⟩
  | .bytes b => .pure (.bytes b)
  | .null => .pure .null
  | .bool b => .pure (.bool b)
  | .number n => .pure (.number n)

def walkItems (policy : Policy) (secrets : SecretMap) (key : String) (index : Nat) :
    List Tree → Walked (List Tree)
  | [] => .pure []
  | item :: rest =>
      .both (· :: ·) (walk policy secrets (indexedKey key index) item)
        (walkItems policy secrets key (index + 1) rest)

def walkEntries (policy : Policy) (secrets : SecretMap) :
    List (String × Tree) → Walked (List (String × Tree))
  | [] => .pure []
  | (key, value) :: rest =>
      .both (fun v entries => (key, v) :: entries) (walk policy secrets key value)
        (walkEntries policy secrets rest)
end

end Tree

end ManifestSecrets
