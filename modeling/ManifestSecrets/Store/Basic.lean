import ManifestSecrets.Files.Tree
import ManifestSecrets.Log
import ManifestSecrets.Store.Error
import ManifestSecrets.Yaml.Stream

set_option autoImplicit false

namespace ManifestSecrets

structure Call (σ ε α : Type) where
  state : σ
  run : Run ε α

structure SecretStore (σ : Type) where
  name : String
  login : σ → Call σ StoreError Unit
  secretsAt : String → σ → Call σ StoreError SecretMap

namespace SecretStore

def fixed {σ : Type} (secrets : SecretMap) : SecretStore σ where
  name := "static"
  login s := ⟨s, pure ()⟩
  secretsAt _ s := ⟨s, pure secrets⟩

end SecretStore

namespace SecretMap

def sizeLimit : Nat := 1024 * 1024

def content (files : FileTree) (path : FilePath) : Except StoreError String := do
  let entry ← (files.look path).mapError .file
  if sizeLimit < entry.size then throw (.tooLarge path.shown entry.size sizeLimit)
  else entry.text.mapError .file

def read (files : FileTree) (path : FilePath) : Run StoreError SecretMap := do
  let content ← .ofExcept (content files path)
  match Yaml.readMap? content with
  | some secrets =>
      Run.log (.debug ("Loaded " ++ toString secrets.length ++ " secret(s) from " ++ path.shown))
      return secrets
  | none => .ofExcept (.error (.unreadable path.shown "no mapping of names to values"))

end SecretMap

end ManifestSecrets
