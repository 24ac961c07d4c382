import ManifestSecrets.Environment.Assignment
import ManifestSecrets.Environment.Line
import ManifestSecrets.Files.Tree

set_option autoImplicit false

namespace ManifestSecrets.Environment

def fileName : FilePath := ".env"

def valueOf (environment : Environment) (before : KeyMap String) (name : String) : String :=
  if name = "" then ""
  else ((environment.text? name) <|> KeyMap.find? name before).getD ""

def readLines (environment : Environment) (before : KeyMap String) : List (List Char) → Environment
  | [] => environment
  | line :: rest =>
      match readLine? (valueOf environment before) line with
      | none => environment
      | some none => readLines environment before rest
      | some (some (name, value)) =>
          readLines (environment.offer name value) (KeyMap.insert name value before) rest

-- The lines of bytes that are text, up to the first that is none.
def textLines (bytes : List UInt8) : List Char :=
  match Text.ofUtf8? bytes with
  | some s => s.toList
  | none =>
      let upTo (n : Nat) : List UInt8 := bytes.take (n + 1)
      let ends := (bytes.zipIdx.filter fun (b, _) => b == 10).map Prod.snd
      (ends.reverse.findSome? fun n => Text.ofUtf8? (upTo n)).elim [] String.toList

def withoutMark : List Char → List Char
  | '\uFEFF' :: rest => rest
  | cs => cs

def pathOf (place : List FilePath) : FilePath := (place ++ [fileName]).flatMap (FilePath.slash :: ·)

-- The file of the deepest place above the working directory that has one. A place that cannot be looked at ends the
-- search.
def nearest? (files : FileTree) : Nat → Option FileEntry
  | 0 => none
  | depth + 1 =>
      match files.look (pathOf (files.here.take depth)) with
      | .ok entry => if entry.isFile then some entry else nearest? files depth
      | .error .missing => nearest? files depth
      | .error _ => none

def file? (files : FileTree) : Option FileEntry := nearest? files (files.here.length + 1)

def withFile (environment : Environment) (files : FileTree) : Environment :=
  match (file? files).map FileEntry.bytes with
  | some (.ok content) => readLines environment [] (lines (withoutMark (textLines content.data.toList)))
  | _ => environment

end ManifestSecrets.Environment
