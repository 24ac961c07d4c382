import ManifestSecrets.Failure
import ManifestSecrets.Settings.Basic
import ManifestSecrets.Url.Parse

set_option autoImplicit false

namespace ManifestSecrets

inductive Problem where
  | noAddress
  | unsupportedScheme (scheme : String)
  | invalidAddress (fault : Url.Fault)
  | noPathPrefix
  | noTimeout
  | noRoleId
  | noSecretId
  | noToken
deriving DecidableEq, Repr

namespace Problem

def path : Problem → String
  | .noAddress => "vault.address"
  | .unsupportedScheme _ => "vault.address"
  | .invalidAddress _ => "vault.address"
  | .noPathPrefix => "vault.pathPrefix"
  | .noTimeout => "vault.timeoutSecs"
  | .noRoleId => "vault.auth.roleId"
  | .noSecretId => "vault.auth.secretId"
  | .noToken => "vault.auth.token"

def message : Problem → String
  | .noAddress => "Vault address is required (VAULT_ADDR)"
  | .unsupportedScheme scheme => "Unsupported scheme '" ++ scheme ++ "', expected http or https"
  | .invalidAddress fault => "Invalid URL: " ++ fault.message
  | .noPathPrefix => "Secret path prefix is required (VAULT_PATH_PREFIX)"
  | .noTimeout => "Timeout must be greater than 0"
  | .noRoleId => "AppRole auth requires a role id (AVP_ROLE_ID)"
  | .noSecretId => "AppRole auth requires a secret id (AVP_SECRET_ID)"
  | .noToken => "Token auth requires a token (VAULT_TOKEN)"

def line (p : Problem) : String := p.path ++ ": " ++ p.message

end Problem

namespace VaultSettings

def addressProblems (naming : Url.Naming) (v : VaultSettings) : List Problem :=
  match v.address with
  | none => [.noAddress]
  | some address =>
      match Url.parse naming address with
      | .ok url => if url.scheme = "http" || url.scheme = "https" then [] else [.unsupportedScheme url.scheme]
      | .error fault => [.invalidAddress fault]

def isBlankText (s : String) : Bool := Text.trim s == ""

def authProblems (auth : AuthSettings) : List Problem :=
  match auth.method with
  | .appRole =>
      (if auth.roleId.isNone then [.noRoleId] else []) ++ if auth.secretId.isNone then [.noSecretId] else []
  | .token => if auth.token.isNone then [.noToken] else []

def problems (naming : Url.Naming) (v : VaultSettings) : List Problem :=
  v.addressProblems naming ++ (if v.pathPrefix.all isBlankText then [.noPathPrefix] else [])
    ++ (if v.timeoutSecs = 0 then [.noTimeout] else []) ++ authProblems v.auth

end VaultSettings

namespace Settings

def problems (naming : Url.Naming) (s : Settings) : List Problem := s.vault.problems naming

def problemsText (problems : List Problem) : String :=
  "Configuration validation failed:\n" ++ "\n".intercalate (problems.map Problem.line)

def validate (naming : Url.Naming) (s : Settings) : Except Failure Unit :=
  if (s.problems naming).isEmpty then .ok () else .error ⟨.plain (problemsText (s.problems naming)), []⟩

end Settings

end ManifestSecrets
