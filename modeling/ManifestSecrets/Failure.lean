import ManifestSecrets.Files.Tree
import ManifestSecrets.Store.Error
import ManifestSecrets.Template

set_option autoImplicit false

namespace ManifestSecrets

inductive Cause where
  | plain (text : String)
  | yaml
  | json
  | misfit (mismatch : Shape.Mismatch)
  | file (fault : FileFault)
  | template (error : TemplateError)
  | store (error : StoreError)

namespace Cause

def texts : Cause → List String
  | .plain text => [text]
  | .yaml => ["invalid YAML"]
  | .json => ["invalid JSON"]
  | .misfit mismatch => [mismatch.message]
  | .file fault => [fault.message]
  | .template (.structural under) => [(TemplateError.structural under).message, under.message]
  | .template e => [e.message]
  | .store (.file fault) => [(StoreError.file fault).message, fault.message]
  | .store e => [e.message]

end Cause

structure Failure where
  cause : Cause
  context : List String := []

namespace Failure

def texts (f : Failure) : List String := f.context ++ f.cause.texts

def message (f : Failure) : String := f.texts.headD ""

def hanging (column : Nat) (text : String) : String :=
  String.ofList (text.toList.flatMap fun c => if c = '\n' then '\n' :: List.replicate column ' ' else [c])

def numeral (n : Nat) : String :=
  let digits := toString n
  String.ofList (List.replicate (5 - digits.length) ' ') ++ digits ++ ": "

def numbered : Nat → List String → String
  | _, [] => ""
  | n, text :: rest => numeral n ++ hanging 7 text ++ "\n" ++ numbered (n + 1) rest

def report (f : Failure) : String :=
  let first := "Error: " ++ f.message ++ "\n"
  match f.texts.drop 1 with
  | [] => first
  | [text] => first ++ "\nCaused by:\n    " ++ hanging 4 text ++ "\n"
  | causes => first ++ "\nCaused by:\n" ++ numbered 0 causes

end Failure

namespace FileTree

def sizeLimit : Nat := 10 * 1024 * 1024

def inQuotes (path : FilePath) : String := " '" ++ path.shown ++ "'"

def readText (files : FileTree) (noun : String) (path : FilePath) : Except Failure String :=
  match files.look path with
  | .error fault => .error ⟨.file fault, ["Cannot stat " ++ noun ++ inQuotes path]⟩
  | .ok entry =>
      if sizeLimit < entry.size then
        .error ⟨.plain (noun.capitalize ++ inQuotes path ++ " is " ++ toString entry.size
          ++ " bytes, exceeds limit of " ++ toString sizeLimit ++ " bytes"), []⟩
      else
        match entry.text with
        | .ok s => .ok s
        | .error fault => .error ⟨.file fault, ["Failed to read " ++ noun ++ inQuotes path]⟩

end FileTree

end ManifestSecrets
