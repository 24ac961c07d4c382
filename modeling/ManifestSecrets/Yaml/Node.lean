import ManifestSecrets.Yaml.Event

/-!
From events to documents. An alias refers to a node by number, and a document keeps which node each
number stands for. The number of an anchor is how many other names there are before it, so that an anchor
whose name is used again may share its number with a later one; the later one then holds it.
-/

set_option autoImplicit false

namespace ManifestSecrets.Yaml

inductive Node where
  | alias (number : Nat)
  | scalar (tag : Option String) (plain : Bool) (text : String)
  | sequence (tag : Option String) (items : List Node)
  | mapping (tag : Option String) (entries : List (Node × Node))
deriving Inhabited

-- A document: its root, if the stream has any, how many events it has, and its anchored nodes by the
-- number and by the event that they start at.
structure Composed where
  root : Option Node
  size : Nat
  starts : List (Nat × Nat)
  anchored : List (Nat × Node)

namespace Composed

def void : Composed := ⟨none, 1, [], []⟩

def node? (d : Composed) (number : Nat) : Option Node := do d.anchored.lookup (← d.starts.lookup number)

end Composed

inductive Frame where
  | sequence (tag : Option String) (start : Option Nat) (items : List Node)
  | mapping (tag : Option String) (start : Option Nat) (entries : List (Node × Node)) (key : Option Node)

structure Composer where
  root : Option Node := none
  position : Nat := 0
  names : List (String × Nat) := []
  starts : List (Nat × Nat) := []
  anchored : List (Nat × Node) := []
  frames : List Frame := []

namespace Composer

def anchor (c : Composer) (name : Option String) : Composer × Option Nat :=
  match name with
  | none => (c, none)
  | some name =>
      let number := c.names.length
      let others := c.names.filter (·.1 != name)
      ({ c with names := (name, number) :: others, starts := (number, c.position) :: c.starts }, some c.position)

def place (c : Composer) (start : Option Nat) (node : Node) : Composer :=
  let c := match start with
    | some position => { c with anchored := (position, node) :: c.anchored }
    | none => c
  match c.frames with
  | [] => { c with root := some node }
  | .sequence tag start items :: rest => { c with frames := .sequence tag start (node :: items) :: rest }
  | .mapping tag start entries none :: rest =>
      { c with frames := .mapping tag start entries (some node) :: rest }
  | .mapping tag start entries (some key) :: rest =>
      { c with frames := .mapping tag start ((key, node) :: entries) none :: rest }

def advance (c : Composer) : Composer := { c with position := c.position + 1 }

def take? (c : Composer) : Event → Option Composer
  | .alias name => do
      let number ← c.names.lookup name
      return (c.place none (.alias number)).advance
  | .scalar p plain text =>
      let (c, start) := c.anchor p.anchor
      some (c.place start (.scalar p.tag plain text)).advance
  | .sequenceStart p =>
      let (c, start) := c.anchor p.anchor
      some { c.advance with frames := .sequence p.tag start [] :: c.frames }
  | .mappingStart p =>
      let (c, start) := c.anchor p.anchor
      some { c.advance with frames := .mapping p.tag start [] none :: c.frames }
  | .sequenceEnd | .mappingEnd =>
      match c.frames with
      | .sequence tag start items :: rest =>
          some (({ c with frames := rest }.place start (.sequence tag items.reverse)).advance)
      | .mapping tag start entries _ :: rest =>
          some (({ c with frames := rest }.place start (.mapping tag entries.reverse)).advance)
      | [] => none
  | _ => some c

def finish (c : Composer) : Composed := ⟨c.root, c.position, c.starts, c.anchored⟩

end Composer

def composeAll : List Event → Composer → List (Option Composed) → List (Option Composed)
  | [], _, seen => seen.reverse
  | .fault :: _, _, seen => (none :: seen).reverse
  | .streamEnd :: _, _, seen => if seen.isEmpty then [some .void] else seen.reverse
  | .documentStart :: rest, _, seen => composeAll rest {} seen
  | .documentEnd :: rest, c, seen => composeAll rest {} (some c.finish :: seen)
  | event :: rest, c, seen =>
      match c.take? event with
      | some c => composeAll rest c seen
      | none => (none :: seen).reverse

-- The documents of a text. An empty stream has one document without a root.
def Composed.ofText (s : String) : List (Option Composed) := composeAll (Event.ofText s) {} []

def Composed.single? (s : String) : Option Composed :=
  match Composed.ofText s with
  | [some d] => some d
  | _ => none

end ManifestSecrets.Yaml
