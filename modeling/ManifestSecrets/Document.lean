import ManifestSecrets.Tree
import ManifestSecrets.Yaml.Value

set_option autoImplicit false

namespace ManifestSecrets

inductive StructuralError where
  | notAMapping (path found : String)
  | nonStringKey (path key : String)
  | tagged (path tag : String)
  | invalidNumber (path value : String)
deriving DecidableEq, Repr

def StructuralError.message : StructuralError → String
  | .notAMapping path found => "expected a mapping at '" ++ path ++ "', found " ++ found
  | .nonStringKey path key => "mapping at '" ++ path ++ "' has non-string key " ++ key
  | .tagged path tag => "tagged value " ++ tag ++ " at '" ++ path ++ "' is not supported"
  | .invalidNumber path value => "number " ++ value ++ " at '" ++ path ++ "' cannot be represented"

namespace Tree

def childPath (path key : String) : String := if path = "" then key else path ++ "." ++ key

def itemPath (path : String) (index : Nat) : String := path ++ "[" ++ toString index ++ "]"

def keyText? : Yaml → Option String
  | .text s => some s
  | .number n => some (n.write .yaml)
  | .bool b => some (Yaml.boolText b)
  | _ => none

mutual
def ofYaml (path : String) : Yaml → Except StructuralError Tree
  | .mapping entries => do return .mapping (← entriesOfYaml path [] entries)
  | .sequence items => do return .sequence (← itemsOfYaml path 0 items)
  | .text s => .ok (.text s)
  | .bool b => .ok (.bool b)
  | .null => .ok .null
  | .number n =>
      match n.carried? with
      | some carried => .ok (.number carried)
      | none => .error (.invalidNumber path (n.write .yaml))
  | .tagged tag _ => .error (.tagged path (Yaml.tagText tag))

def itemsOfYaml (path : String) (index : Nat) : List Yaml → Except StructuralError (List Tree)
  | [] => .ok []
  | item :: rest => do
      let decoded ← ofYaml (itemPath path index) item
      return decoded :: (← itemsOfYaml path (index + 1) rest)

def entriesOfYaml (path : String) (seen : KeyMap Tree) :
    List (Yaml × Yaml) → Except StructuralError (KeyMap Tree)
  | [] => .ok seen
  | (key, value) :: rest =>
      match keyText? key with
      | none => .error (.nonStringKey path key.describe)
      | some name => do
          let decoded ← ofYaml (childPath path name) value
          entriesOfYaml path (seen.insert name decoded) rest
end

end Tree

structure Document where
  root : KeyMap Tree

namespace Document

def ofTree : Tree → Except StructuralError Document
  | .mapping root => .ok ⟨root⟩
  | other => .error (.notAMapping "" other.typeName)

def ofYaml (value : Yaml) : Except StructuralError Document := do ofTree (← Tree.ofYaml "" value)

def ofJson (value : Json) : Except StructuralError Document := ofTree (.ofJson value)

def kind? (d : Document) : Option String :=
  match d.root.find? "kind" with
  | some (.text s) => some s
  | _ => none

def toJson (d : Document) : Json := (Tree.mapping d.root).toJson

def put (d : Document) (key : String) (value : Tree) : Document := ⟨d.root.insert key value⟩

end Document

end ManifestSecrets
