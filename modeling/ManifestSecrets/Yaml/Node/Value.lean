import ManifestSecrets.Yaml.Node
import ManifestSecrets.Yaml.Plain

/-!
The value of a document. Nodes may stand inside each other 128 deep, also through aliases, and aliases
may be followed a hundred times as often as the document has events. No key may stand twice in a mapping.
-/

set_option autoImplicit false

namespace ManifestSecrets.Yaml

def ownTag? (tag : Option String) : Option String :=
  match tag.map String.toList with
  | some ['!'] => some "!"
  | some ('!' :: rest) => some (String.ofList rest)
  | _ => none

def coreTag (name : String) : String := "tag:yaml.org,2002:" ++ name

def plainValue? (s : String) : Option Yaml :=
  match Plain.meaning s with
  | .null => some .null
  | .bool b => some (.bool b)
  | .number n => some (.number n)
  | .tooLarge => none
  | .text => some (.text s)

def integerValue? (s : String) : Option Yaml :=
  match (Plain.integer? s.toList).bind Plain.integerMeaning with
  | some (.number n) => some (.number n)
  | _ => none

-- The value of a scalar. A tag of the core schema has to fit; under any other tag it is a text.
def scalarValue? (tag : Option String) (plain : Bool) (s : String) : Option Yaml :=
  match tag with
  | none => if plain then plainValue? s else some (.text s)
  | some tag =>
      if tag = coreTag "bool" then (Plain.bool? s).map .bool
      else if tag = coreTag "int" then integerValue? s
      else if tag = coreTag "float" then (Plain.float? s).map fun x => .number (.float x)
      else if tag = coreTag "null" then if Plain.isNull s then some .null else none
      else some (.text s)

def greatestDepth : Nat := 128

def jumpsPerEvent : Nat := 100

namespace Composed

abbrev Reading := StateT Nat Option

def follow (d : Composed) : Node → Reading Node
  | .alias label => do
      let jumps ← get
      if d.size * jumpsPerEvent < jumps + 1 then failure
      else
        set (jumps + 1)
        match d.node? label with
        | some node => return node
        | none => failure
  | node => return node

def withTag (tag : Option String) (value : Yaml) : Yaml :=
  match ownTag? tag with
  | some own => .tagged own value
  | none => value

-- Adds an entry to those before it, in reverse; a key that is there already is refused.
def addEntry (key value : Yaml) (seen : List (Yaml × Yaml)) : Reading (List (Yaml × Yaml)) :=
  if seen.any fun entry => entry.1.sameKey key then failure else return (key, value) :: seen

def nodeValue (d : Composed) : Nat → Node → Reading Yaml
  | 0, node => do
      match ← d.follow node with
      | .scalar tag plain s => scalar tag plain s
      | _ => failure
  | depth + 1, node => do
      match ← d.follow node with
      | .scalar tag plain s => scalar tag plain s
      | .sequence tag items => return withTag tag (.sequence (← items.mapM (nodeValue d depth)))
      | .mapping tag entries =>
          let seen ← entries.foldlM (fun seen (key, value) => do
            let key ← nodeValue d depth key
            addEntry key (← nodeValue d depth value) seen) []
          return withTag tag (.mapping seen.reverse)
      | .alias _ => failure
where
  scalar (tag : Option String) (plain : Bool) (s : String) : Reading Yaml :=
    match ownTag? tag with
    | some own => (scalarValue? none plain s).map (.tagged own)
    | none => scalarValue? tag plain s

def value? (d : Composed) : Option Yaml :=
  match d.root with
  | none => some .null
  | some root => ((d.nodeValue greatestDepth root).run 0).map Prod.fst

end Composed

end ManifestSecrets.Yaml
