import ManifestSecrets.Yaml.Style

/-!
YAML text of a value of JSON shape, in block style. Fields are written in the order of the value. A
sequence that is the value of a key stands at the indentation of the key; all other nested collections
are indented by two. Keys of several lines or more than 128 bytes are written with a question mark.
-/

set_option autoImplicit false

namespace ManifestSecrets.Yaml

inductive Place where
  | top
  | afterKey
  | afterMark
deriving DecidableEq, Repr

namespace Writer

def pad (indent : Nat) : String := String.ofList (Style.spaces indent)

def gap : Place → String
  | .top => ""
  | _ => " "

def opening (place : Place) (indent : Nat) : String :=
  match place with
  | .top => ""
  | .afterKey => "\n" ++ pad indent
  | .afterMark => " "

def mappingIndent (place : Place) (indent : Nat) : Nat :=
  match place with
  | .top => indent
  | _ => indent + 2

def sequenceIndent (place : Place) (indent : Nat) : Nat :=
  match place with
  | .afterMark => indent + 2
  | _ => indent

def isSimpleKey (key : String) : Bool := !key.toList.any isBreak && key.utf8ByteSize ≤ 128

def keyText (indent : Nat) (key : String) : String × Place :=
  let line := Style.line (indent + 2) key
  if isSimpleKey key then (String.ofList line.toList.dropLast ++ ":", .afterKey)
  else ("? " ++ line ++ pad indent ++ ":", .afterMark)

mutual
def value (place : Place) (indent : Nat) : Json → String
  | .null => gap place ++ "null\n"
  | .bool b => gap place ++ boolText b ++ "\n"
  | .number n => gap place ++ n.write .yaml ++ "\n"
  | .text s => gap place ++ Style.line (indent + 2) s
  | .array [] => gap place ++ "[]\n"
  | .array (item :: rest) =>
      let inner := sequenceIndent place indent
      opening place inner ++ "-" ++ value .afterMark inner item ++ items inner rest
  | .object [] => gap place ++ "\x7b\x7d\n"
  | .object ((key, v) :: rest) =>
      let inner := mappingIndent place indent
      let (shown, after) := keyText inner key
      opening place inner ++ shown ++ value after inner v ++ fields inner rest

def items (indent : Nat) : List Json → String
  | [] => ""
  | item :: rest => pad indent ++ "-" ++ value .afterMark indent item ++ items indent rest

def fields (indent : Nat) : List (String × Json) → String
  | [] => ""
  | (key, v) :: rest =>
      let (shown, after) := keyText indent key
      pad indent ++ shown ++ value after indent v ++ fields indent rest
end

end Writer

def write (v : Json) : String := Writer.value .top 0 v

end ManifestSecrets.Yaml
