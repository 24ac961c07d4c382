import ManifestSecrets.Settings.Basic
import ManifestSecrets.Store.Client

set_option autoImplicit false

namespace ManifestSecrets

namespace SecretStore

def token (client : Client) (token : String) : SecretStore Conversation where
  name := "vault-token"
  login s := ⟨s, pure ()⟩
  secretsAt path s := client.read path token s

def loginPath : String := "auth/approle/login"

-- A login that is refused is a failure of authentication.
def refused : StoreError → StoreError
  | .status code _ message => .auth ("AppRole login rejected (" ++ toString code ++ "): " ++ message)
  | other => other

def grantedToken? (answer : Json) : Option String := do
  let token ← (← (← answer.field? "auth").field? "client_token").text?
  if token = "" then none else some token

def roleLogin (client : Client) (roleId secretId : String) (s : Conversation) :
    Call Conversation StoreError Unit :=
  let payload := Json.ofFields [("role_id", .text roleId), ("secret_id", .text secretId)]
  let posted := client.post loginPath payload s
  match posted.run.result with
  | .error e => ⟨posted.state, posted.run.logs, .error (refused e)⟩
  | .ok answer =>
      match grantedToken? answer with
      | none =>
          ⟨posted.state, posted.run.logs,
            .error (.unexpectedFormat "login response has no auth.client_token")⟩
      | some token =>
          let line := "Authenticated to Vault at " ++ client.address.text ++ " with AppRole"
          ⟨{ posted.state with token := some token }, posted.run.logs ++ [.info line], .ok ()⟩

def roleSecrets (client : Client) (path : String) (s : Conversation) :
    Call Conversation StoreError SecretMap :=
  match s.token with
  | some token => client.read path token s
  | none => ⟨s, [], .error (.auth "AppRole store used before login")⟩

def appRole (client : Client) (roleId secretId : String) : SecretStore Conversation where
  name := "vault-approle"
  login := roleLogin client roleId secretId
  secretsAt := roleSecrets client

end SecretStore

namespace VaultSettings

def required (field : String) (value : Option String) : Except StoreError String :=
  match value with
  | some text => .ok text
  | none => .error (.config ("vault.auth." ++ field ++ " is not set"))

def storeAt (naming : Url.Naming) (v : VaultSettings) (address : String) : Except StoreError (SecretStore Conversation) := do
  let client ← Client.ofAddress naming address v.namespaceName v.kvVersion
  match v.auth.method with
  | .appRole => return .appRole client (← required "roleId" v.auth.roleId) (← required "secretId" v.auth.secretId)
  | .token => return .token client (← required "token" v.auth.token)

def store (naming : Url.Naming) (v : VaultSettings) : Run StoreError (SecretStore Conversation) :=
  match v.address with
  | none => .ofExcept (.error (.config "Vault address is not set"))
  | some address => do
      let store ← .ofExcept (v.storeAt naming address)
      Run.log (.info ("Using " ++ store.name ++ " secret store at " ++ address))
      return store

end VaultSettings

end ManifestSecrets
