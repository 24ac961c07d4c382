import ManifestSecrets.Shape.Mismatch
import ManifestSecrets.Text.Bytes

/-!
Decoding values into shapes. A record is decoded from an object by the names of its fields, whose
values are decoded in the order of their names; what is required and absent is found after that. A
record that keeps no unknown fields is also decoded from an array, by position.
-/

set_option autoImplicit false

namespace ManifestSecrets.Shape

abbrev Decoder (α : Type) := Json → Except Mismatch α

namespace Decoder

variable {α : Type}

def value : Decoder Json := .ok

def text : Decoder String
  | .text s => .ok s
  | other => .error (.wrongType other "a string")

def bool : Decoder Bool
  | .bool b => .ok b
  | other => .error (.wrongType other "a boolean")

def integer (name : String) (least greatest : Int) : Decoder Integer64
  | .number (.integer n) =>
      if least ≤ n.value ∧ n.value ≤ greatest then .ok n else .error (.outOfRange n name)
  | other => .error (.wrongType other name)

def bytes : Decoder (List UInt8)
  | .text s =>
      match Text.decodeBase64 s with
      | .ok b => .ok b
      | .error fault => .error (.base64 fault)
  | other => .error (.wrongType other "a string")

def optional (d : Decoder α) : Decoder (Option α)
  | .null => .ok none
  | other => (d other).map some

def entries (d : Decoder α) : List (String × Json) → Except Mismatch (KeyMap α)
  | [] => .ok []
  | (key, v) :: rest => do
      let decoded ← d v
      return (key, decoded) :: (← entries d rest)

def map (d : Decoder α) : Decoder (KeyMap α)
  | .object fields => entries d fields
  | other => .error (.wrongType other "a map")

def list : Decoder (List Json)
  | .array items => .ok items
  | other => .error (.wrongType other "a sequence")

-- One of a set of names, alone or as the only key of an object with the value null.
def variant (known : List (String × α)) : Decoder α
  | .text s => named s
  | .object [(name, content)] => do
      let found ← named name
      match content with
      | .null => return found
      | other => throw (.wrongType other "unit")
  | .object _ => .error .notOneVariant
  | other => .error (.wrongType other "string or map")
where
  named (name : String) : Except Mismatch α :=
    match KeyMap.find? name known with
    | some found => .ok found
    | none => .error (.unknownVariant name (known.map Prod.fst))

def field? (fields : List (String × Json)) (name : String) (d : Decoder α) :
    Except Mismatch (Option α) :=
  match KeyMap.find? name fields with
  | some v => (d v).map some
  | none => .ok none

def required (name : String) : Option α → Except Mismatch α
  | some v => .ok v
  | none => .error (.missingField name)

def others (known : List String) (fields : List (String × Json)) : KeyMap Json :=
  fields.filter fun (name, _) => !known.contains name

abbrev Positional := StateT (List Json) (Except Mismatch)

def next? (d : Decoder α) : Positional (Option α) := do
  match ← get with
  | [] => return none
  | v :: rest =>
      set rest
      return some (← d v)

def next (index : Nat) (expected : String) (d : Decoder α) : Positional α := do
  match ← next? d with
  | some v => return v
  | none => throw (.tooFew index expected)

def positions (read : Positional α) (items : List Json) : Except Mismatch α := do
  let (v, rest) ← read.run items
  if rest.isEmpty then return v else throw (.tooMany items.length)

end Decoder

def field (name : String) : Option Json → List (String × Json)
  | some v => [(name, v)]
  | none => []

def mapField {α : Type} (name : String) (write : α → Json) : KeyMap α → List (String × Json)
  | [] => []
  | entries => [(name, .object (entries.map fun (k, v) => (k, write v)))]

def bytesJson (b : List UInt8) : Json := .text (Text.Base64.encode b)

end ManifestSecrets.Shape
