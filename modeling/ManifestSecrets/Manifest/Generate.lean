import ManifestSecrets.Manifest.Files
import ManifestSecrets.Manifest.Render
import ManifestSecrets.Store.Basic

set_option autoImplicit false

namespace ManifestSecrets.Manifest

variable {σ : Type}

def fetch (store : SecretStore σ) (path : String) (s : σ) : Call σ Failure SecretMap :=
  let entered := store.login s
  match entered.run.result with
  | .error e =>
      ⟨entered.state, entered.run.logs,
        .error ⟨.store e, ["Failed to authenticate with " ++ store.name ++ " store"]⟩⟩
  | .ok _ =>
      let got := store.secretsAt path entered.state
      let logs := entered.run.logs ++ got.run.logs
      match got.run.result with
      | .error e => ⟨got.state, logs, .error ⟨.store e, ["Failed to fetch secrets from " ++ path]⟩⟩
      | .ok secrets =>
          let line := "Fetched " ++ toString secrets.length ++ " secret(s) from " ++ path
          ⟨got.state, logs ++ [.info line], .ok secrets⟩

def renderFetched (manifests : List Manifest) (store : SecretStore σ) (path : String) (s : σ) :
    Call σ Failure String :=
  let fetched := fetch store path s
  ⟨fetched.state, do renderAll manifests (← fetched.run)⟩

def generate (files : FileTree) (input : FileEntry) (path : FilePath) (store : SecretStore σ)
    (secretsPath : String) (s : σ) : Call σ Failure String :=
  let read := readAll files input path
  match read.result with
  | .error e => ⟨s, read.logs, .error e⟩
  | .ok manifests =>
      let line := "Read " ++ toString manifests.length ++ " manifest(s) from " ++ path.shown
      let rendered := renderFetched manifests store secretsPath s
      ⟨rendered.state, read.logs ++ [.info line] ++ rendered.run.logs, rendered.run.result⟩

end ManifestSecrets.Manifest
