import ManifestSecrets.Json.Writer
import ManifestSecrets.Placeholder.Cut
import ManifestSecrets.Tree

set_option autoImplicit false

namespace ManifestSecrets

inductive ReplacementError where
  | missingPlaceholder (key value placeholder : String)
  | unsupportedValue (key placeholder found : String)
deriving DecidableEq, Repr

namespace ReplacementError

def message : ReplacementError → String
  | .missingPlaceholder key value placeholder =>
      "missing secret value for placeholder <" ++ placeholder ++ "> in field " ++ key ++ ": " ++ value
  | .unsupportedValue key placeholder found =>
      "secret value for placeholder <" ++ placeholder ++ "> in field " ++ key ++ " is a " ++ found
        ++ " and cannot be stored as bytes"

def list (errors : List ReplacementError) : String :=
  "\n".intercalate (errors.map fun e => "  - " ++ e.message)

end ReplacementError

namespace Placeholder

structure Resolution where
  value : Tree
  errors : List ReplacementError

def insertedText : Json → String
  | .text s => s
  | other => other.write

def Piece.replaced (secrets : SecretMap) : Piece → String
  | .literal chars => String.ofList chars
  | .token inner =>
      match KeyMap.find? (name inner) secrets with
      | some secret => insertedText secret
      | none => (Piece.token inner).text

def missing (key value : String) (secrets : SecretMap) (pieces : List Piece) : List ReplacementError :=
  ((names pieces).filter fun n => !KeyMap.contains n secrets).map fun n =>
    .missingPlaceholder key value n

-- The secret that replaces the whole field: one token and nothing else, naming no text.
def whole? (secrets : SecretMap) : List Piece → Option Json
  | [.token inner] =>
      match KeyMap.find? (name inner) secrets with
      | some (.text _) => none
      | found => found
  | _ => none

def resolve (key value : String) (secrets : SecretMap) : Resolution :=
  let pieces := cut value.toList
  match whole? secrets pieces with
  | some secret => ⟨.ofJson secret, []⟩
  | none =>
      ⟨.text (String.join (pieces.map (Piece.replaced secrets))), missing key value secrets pieces⟩

end Placeholder

end ManifestSecrets
