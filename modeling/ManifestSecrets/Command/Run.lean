import ManifestSecrets.Command.Basic
import ManifestSecrets.Environment.File
import ManifestSecrets.Manifest.Generate
import ManifestSecrets.Settings.File
import ManifestSecrets.Settings.Validation
import ManifestSecrets.Store.Vault

/-!
Running commands. A run is a function of the files, the standard input, the environment, the server and the standard
output, and says what is written where and with which code the program ends.

Some of a real run has no place here: arguments that are no text, a zero in a value of the file of variables, links other
than as what they lead to, files that change meanwhile or are written in part, a proxy, the time an answer takes and how a
connection is secured, the level and the form of the log, and the words with which a panic, the help and the libraries
explain themselves.
-/

set_option autoImplicit false

namespace ManifestSecrets

-- The standard output. Where it has no room for all that is written, the rest is refused.
structure Output where
  room : Option (Nat × FileFault) := none

namespace Output

def taken (o : Output) (text : String) : List UInt8 :=
  match o.room with
  | none => Text.utf8 text
  | some (room, _) => (Text.utf8 text).take room

def refusal? (o : Output) (text : String) : Option FileFault := do
  let (room, fault) ← o.room
  if room < (Text.utf8 text).length then return fault else none

end Output

structure World where
  files : FileTree
  input : FileEntry
  environment : Environment
  server : Server
  web : Web
  output : Output := {}

structure Outcome where
  exitCode : Nat
  output : List UInt8
  report : String
  logs : List LogLine
  files : FileTree
  written : Option (String × String)

namespace Command

def versionText : String := "vault-inject 2026.10.0\n"

def usage : String :=
  "Inject Vault secrets into Kubernetes manifests\n\nUsage:\n"
    ++ "  vault-inject generate [-c FILE] [-s SECRETS_FILE] [-p PATH_PREFIX] PATH\n"
    ++ "  vault-inject config [-c FILE] show|validate|init\n"
    ++ "  vault-inject version\n"

def loadSettings (w : World) (file : Option String) : Run Failure Settings := do
  let loaded ← .ofExcept (Settings.load w.files w.environment (file.map Text.utf8))
  Run.andThen ⟨loaded.logs, .ok ()⟩ fun _ => return loaded.settings

def withPrefix (s : Settings) (pathPrefix : Option String) : Settings :=
  { s with vault := { s.vault with pathPrefix := pathPrefix <|> s.vault.pathPrefix } }

def storeFor (w : World) (s : Settings) (secretsFile : Option String) :
    Run Failure (SecretStore Conversation) :=
  match secretsFile with
  | some file => do
      let secrets ← (SecretMap.read w.files file).mapError fun e =>
        ⟨.store e, ["Failed to load secrets file '" ++ file ++ "'"]⟩
      return .fixed secrets
  | none => do
      .ofExcept (s.validate w.web.naming)
      (s.vault.store w.web.naming).mapError fun e => ⟨.store e, []⟩

def runGenerate (w : World) (options : GenerateOptions) : Run Failure String := do
  let settings ← loadSettings w options.settingsFile
  let settings := withPrefix settings options.pathPrefix
  let store ← storeFor w settings options.secretsFile
  (Manifest.generate w.files w.input options.path store (settings.vault.pathPrefix.getD "")
    { server := w.server, web := w.web }).run

def runDisplay (w : World) (file : Option String) : Run Failure String := do
  return (← loadSettings w file).redacted.toYaml ++ "\n"

def runValidate (w : World) (file : Option String) : Run Failure String := do
  .ofExcept ((← loadSettings w file).validate w.web.naming)
  Run.log (.info "Configuration is valid")
  return ""

def defaultFile : String := "vault-inject.yaml"

def runCreate (w : World) (file : Option String) : Run Failure FileTree := do
  let path := file.getD defaultFile
  let _ ← loadSettings w file
  let files ← .ofExcept (({} : Settings).writeFile w.files path)
  Run.log (.info ("Configuration file created at " ++ path))
  return files

-- How the program ends when its output is refused: with a failure, or by a panic.
def failing (fault : FileFault) : Nat × String := (1, (Failure.mk (.file fault) []).report)

def panicking (fault : FileFault) : Nat × String := (101, "failed printing to stdout: " ++ fault.message ++ "\n")

def ended (w : World) (broken : FileFault → Nat × String) (r : Run Failure String) : Outcome :=
  match r.result with
  | .ok text =>
      let (code, report) := (w.output.refusal? text).elim (0, "") broken
      ⟨code, w.output.taken text, report, r.logs, w.files, none⟩
  | .error f => ⟨1, [], f.report, r.logs, w.files, none⟩

def created (w : World) (path : String) (r : Run Failure FileTree) : Outcome :=
  match r.result with
  | .ok files => ⟨0, [], "", r.logs, files, some (path, ({} : Settings).toYaml)⟩
  | .error f => ⟨1, [], f.report, r.logs, w.files, none⟩

def run (w : World) : Command → Outcome
  | .generate options => ended w failing (runGenerate w options)
  | .settings file .display => ended w panicking (runDisplay w file)
  | .settings file .validate => ended w panicking (runValidate w file)
  | .settings file .create => created w (file.getD defaultFile) (runCreate w file)
  | .version => ended w panicking (pure versionText)

def refused (w : World) (fault : ArgumentFault) : Outcome :=
  let output := match fault with
    | .version => versionText
    | .help => usage
    | _ => ""
  let report := if fault.exitCode = 0 then "" else "error: " ++ fault.message ++ "\n\n" ++ usage
  ⟨fault.exitCode, w.output.taken output, report, [], w.files, none⟩

def runArguments (w : World) (args : List String) : Outcome :=
  let w := { w with environment := w.environment.withFile w.files }
  match parse w.environment args with
  | .ok command => run w command
  | .error fault => refused w fault

end Command

end ManifestSecrets
