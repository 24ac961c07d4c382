import ManifestSecrets.Failure
import ManifestSecrets.Log
import ManifestSecrets.Yaml.Stream

set_option autoImplicit false

namespace ManifestSecrets

structure Manifest where
  source : String
  value : Yaml

namespace Manifest

def label (source : String) (index : Nat) : String := source ++ "[" ++ toString index ++ "]"

-- Labels the values of a stream by their position in it, which counts those that are left out.
def ofValues (source : String) (index : Nat) : List Yaml → List Manifest
  | [] => []
  | value :: rest =>
      if value.isNull then ofValues source (index + 1) rest
      else ⟨label source index, value⟩ :: ofValues source (index + 1) rest

def parse (source content : String) : Except Failure (List Manifest) :=
  match Yaml.readAll content with
  | .ok values => .ok (ofValues source 0 values)
  | .error index =>
      .error ⟨.yaml, ["Invalid YAML in " ++ source ++ " (document " ++ toString index ++ ")"]⟩

end Manifest

namespace Manifest

def noun : String := "manifest"

def extensions : List FilePath := ["yaml", "yml", "json"]

def isManifestFile (files : FileTree) (directory name : FilePath) : Bool :=
  (FilePath.extension? name).any extensions.contains
    && match files.look (FilePath.inside directory name) with
      | .ok entry => entry.isFile
      | .error _ => false

def inOrder (names : List FilePath) : List FilePath := names.mergeSort fun a b => decide (a ≤ b)

def paths (files : FileTree) (path : FilePath) : Run Failure (List FilePath) :=
  match files.names? path with
  | none => pure [path]
  | some (.error fault) => .ofExcept (.error ⟨.file fault, ["Cannot read directory" ++ FileTree.inQuotes path]⟩)
  | some (.ok names) =>
      let found := inOrder (names.filter (isManifestFile files path))
      ⟨[.debug ("Found " ++ toString found.length ++ " manifest file(s) in " ++ path.shown)],
        .ok (found.map path.inside)⟩

def readFile (files : FileTree) (path : FilePath) : Except Failure (List Manifest) := do
  parse path.shown (← files.readText noun path)

def readFiles (files : FileTree) : List FilePath → Except Failure (List Manifest)
  | [] => .ok []
  | path :: rest => do
      let first ← readFile files path
      return first ++ (← readFiles files rest)

def readInput (input : FileEntry) : Except Failure (List Manifest) :=
  match input.text with
  | .ok content => parse "stdin" content
  | .error fault => .error ⟨.file fault, ["Failed to read manifests from stdin"]⟩

def readAll (files : FileTree) (input : FileEntry) (path : FilePath) : Run Failure (List Manifest) :=
  if FilePath.isDash path then .ofExcept (readInput input)
  else do .ofExcept (readFiles files (← paths files path))

end Manifest

end ManifestSecrets
