import ManifestSecrets.Failure
import ManifestSecrets.Json.Reader
import ManifestSecrets.Log
import ManifestSecrets.Settings.Override
import ManifestSecrets.Settings.Shape
import ManifestSecrets.Yaml.Stream
import ManifestSecrets.Yaml.Writer

set_option autoImplicit false

namespace ManifestSecrets.Settings

def noun : String := "config file"

-- The value that a settings file holds: JSON if its name ends so, else YAML.
def readValue (files : FileTree) (path : FilePath) : Except Failure Json := do
  let content ← files.readText noun path
  if FilePath.extension? path = some (Text.utf8 "json") then
    match Json.read? content with
    | some value => return value
    | none => throw ⟨.json, ["Invalid JSON in" ++ FileTree.inQuotes path]⟩
  else
    match Yaml.readJson? content with
    | some value => return value
    | none => throw ⟨.yaml, ["Invalid YAML in" ++ FileTree.inQuotes path]⟩

def read (files : FileTree) (path : FilePath) : Except Failure Settings := do
  (decode (← readValue files path)).mapError fun mismatch => ⟨.misfit mismatch, []⟩

def toYaml (s : Settings) : String := Yaml.write s.written

-- Puts the settings into a file, as YAML whatever its name is.
def writeFile (files : FileTree) (path : FilePath) (s : Settings) : Except Failure FileTree :=
  (files.write path s.toYaml).mapError fun fault =>
    ⟨.file fault, ["Failed to write " ++ noun ++ FileTree.inQuotes path]⟩

def candidates : List FilePath := ["vault-inject.yaml", "vault-inject.yml", "vault-inject.json"]

structure Loaded where
  settings : Settings
  source : Option FilePath
  ignored : List String

def load (files : FileTree) (environment : Environment) (path : Option FilePath) : Except Failure Loaded := do
  let source := path <|> candidates.find? files.has
  let fromFile ← source.elim (.ok {}) (read files)
  let overridden := fromFile.override environment
  return ⟨overridden.settings, source, overridden.ignored⟩

def Loaded.logs (l : Loaded) : List LogLine :=
  let start := match l.source with
    | some path => "Loaded config from " ++ path.shown
    | none => "No config file found, using environment only"
  .info start :: l.ignored.map .warn

end ManifestSecrets.Settings
