import ManifestSecrets.Environment.Assignment
import ManifestSecrets.Settings.Basic

set_option autoImplicit false

namespace ManifestSecrets

inductive Variable where
  | address
  | namespaceName
  | pathPrefix
  | kvVersion
  | authMethod
  | roleId
  | secretId
  | token
  | logFormat
deriving DecidableEq, Repr

namespace Variable

def name : Variable → String
  | .address => "VAULT_ADDR"
  | .namespaceName => "VAULT_NAMESPACE"
  | .pathPrefix => "VAULT_PATH_PREFIX"
  | .kvVersion => "AVP_KV_VERSION"
  | .authMethod => "AVP_AUTH_TYPE"
  | .roleId => "AVP_ROLE_ID"
  | .secretId => "AVP_SECRET_ID"
  | .token => "VAULT_TOKEN"
  | .logFormat => "AVP_LOG_FORMAT"

def all : List Variable :=
  [.address, .namespaceName, .pathPrefix, .kvVersion, .authMethod, .roleId, .secretId, .token, .logFormat]

def text? (v : Variable) (environment : Environment) : Option String :=
  (environment.text? v.name).filter (· != "")

end Variable

namespace Settings

def assign (s : Settings) (v : Variable) (text : String) : Except String Settings :=
  match v with
  | .address => .ok { s with vault := { s.vault with address := some text } }
  | .namespaceName => .ok { s with vault := { s.vault with namespaceName := some text } }
  | .pathPrefix => .ok { s with vault := { s.vault with pathPrefix := some text } }
  | .kvVersion =>
      match KvVersion.ofText text with
      | .ok version => .ok { s with vault := { s.vault with kvVersion := version } }
      | .error e => .error e.message
  | .authMethod => do
      let method ← AuthMethod.ofText text
      return { s with vault := { s.vault with auth := { s.vault.auth with method } } }
  | .roleId => .ok { s with vault := { s.vault with auth := { s.vault.auth with roleId := some text } } }
  | .secretId => .ok { s with vault := { s.vault with auth := { s.vault.auth with secretId := some text } } }
  | .token => .ok { s with vault := { s.vault with auth := { s.vault.auth with token := some text } } }
  | .logFormat => do
      let format ← LogFormat.ofText text
      return { s with logging := { s.logging with format } }

structure Overridden where
  settings : Settings
  ignored : List String

def ignoring (v : Variable) (reason : String) : String := "Ignoring " ++ v.name ++ ": " ++ reason

def overrideBy (environment : Environment) (o : Overridden) (v : Variable) : Overridden :=
  match v.text? environment with
  | none => o
  | some text =>
      match o.settings.assign v text with
      | .ok settings => { o with settings }
      | .error reason => { o with ignored := o.ignored ++ [ignoring v reason] }

def override (s : Settings) (environment : Environment) : Overridden :=
  Variable.all.foldl (overrideBy environment) ⟨s, []⟩

end Settings

end ManifestSecrets
