import ManifestSecrets.Yaml.Node.Value

set_option autoImplicit false

namespace ManifestSecrets.Yaml

def scalarJson? (tag : Option String) (plain : Bool) (s : String) : Option Json :=
  if (ownTag? tag).isSome then none
  else match scalarValue? tag plain s with
    | some (.bool b) => some (.bool b)
    | some (.number n) => some (if n.isFinite then .number n else .null)
    | some (.text s) => some (.text s)
    | some .null => some .null
    | _ => none

namespace Composed

def keyText (d : Composed) (key : Node) : Reading String := do
  match ← d.follow key with
  | .scalar _ _ s => return s
  | _ => failure

def fields (d : Composed) (read : Node → Reading Json) (entries : List (Node × Node)) : Reading (KeyMap Json) :=
  entries.foldlM (fun seen (key, value) => do
    let name ← d.keyText key
    return seen.insert name (← read value)) []

def nodeJson (d : Composed) : Nat → Node → Reading Json
  | 0, node => do
      match ← d.follow node with
      | .scalar tag plain s => scalarJson? tag plain s
      | _ => failure
  | depth + 1, node => do
      match ← d.follow node with
      | .scalar tag plain s => scalarJson? tag plain s
      | .sequence tag items =>
          if (ownTag? tag).isSome then failure else return .array (← items.mapM (nodeJson d depth))
      | .mapping tag entries =>
          if (ownTag? tag).isSome then failure else return .object (← d.fields (nodeJson d depth) entries)
      | .alias _ => failure

def json? (d : Composed) : Option Json :=
  match d.root with
  | none => some .null
  | some root => ((d.nodeJson greatestDepth root).run 0).map Prod.fst

-- The fields of a document that has to be a mapping, whatever its tag. An empty document has none.
def map? (d : Composed) : Option (KeyMap Json) :=
  match d.root with
  | none => some []
  | some (.scalar _ true "") => some []
  | some (.mapping _ entries) =>
      ((d.fields (d.nodeJson (greatestDepth - 1)) entries).run 0).map Prod.fst
  | some _ => none

end Composed

def readFrom (index : Nat) : List (Option Composed) → Except Nat (List Yaml)
  | [] => .ok []
  | document :: rest =>
      match document.bind Composed.value? with
      | some value => do return value :: (← readFrom (index + 1) rest)
      | none => .error index

def readAll (s : String) : Except Nat (List Yaml) := readFrom 0 (Composed.ofText s)

def readJson? (s : String) : Option Json := do (← Composed.single? s).json?

def readMap? (s : String) : Option (KeyMap Json) := do (← Composed.single? s).map?

end ManifestSecrets.Yaml
