import ManifestSecrets.Settings.Basic

set_option autoImplicit false

namespace ManifestSecrets

open Shape (Decoder field)
open Shape.Decoder

namespace KvVersion

def decode : Decoder KvVersion := fun v => do
  let n ← integer "u8" 0 255 v
  match ofNumber n.value.toNat with
  | .ok version => return version
  | .error e => throw (.other e.message)

end KvVersion

namespace AuthSettings

def ofPositions : Positional AuthSettings := do
  let method ← next? (variant AuthMethod.names)
  let roleId ← next? (optional text)
  let secretId ← next? (optional text)
  let token ← next? (optional text)
  return ⟨method.getD .appRole, roleId.join, secretId.join, token.join⟩

def decode : Decoder AuthSettings
  | .object fields => do
      let method ← field? fields "method" (variant AuthMethod.names)
      let roleId ← field? fields "roleId" (optional text)
      let secretId ← field? fields "secretId" (optional text)
      let token ← field? fields "token" (optional text)
      return ⟨method.getD .appRole, roleId.join, secretId.join, token.join⟩
  | .array items => positions ofPositions items
  | other => .error (.wrongType other "struct VaultAuthConfig")

def written (a : AuthSettings) : Json :=
  .object ([("method", .text a.method.name)] ++ field "roleId" (a.roleId.map .text)
    ++ field "secretId" (a.secretId.map .text) ++ field "token" (a.token.map .text))

def mask : String := "***"

-- The secret id and the token are masked; a role id is no secret.
def redacted (a : AuthSettings) : AuthSettings :=
  { a with secretId := a.secretId.map fun _ => mask, token := a.token.map fun _ => mask }

end AuthSettings

namespace VaultSettings

def seconds : Decoder UInt64 := fun v => (integer "u64" 0 0xFFFFFFFFFFFFFFFF v).map fun n => .ofNat n.value.toNat

def ofPositions : Positional VaultSettings := do
  let address ← next? (optional text)
  let namespaceName ← next? (optional text)
  let pathPrefix ← next? (optional text)
  let kvVersion ← next? KvVersion.decode
  let timeoutSecs ← next? seconds
  let auth ← next? AuthSettings.decode
  return {
    address := address.join, namespaceName := namespaceName.join, pathPrefix := pathPrefix.join
    kvVersion := kvVersion.getD .one, timeoutSecs := timeoutSecs.getD 30
    auth := auth.getD {} }

def decode : Decoder VaultSettings
  | .object fields => do
      let address ← field? fields "address" (optional text)
      let auth ← field? fields "auth" AuthSettings.decode
      let kvVersion ← field? fields "kvVersion" KvVersion.decode
      let namespaceName ← field? fields "namespace" (optional text)
      let pathPrefix ← field? fields "pathPrefix" (optional text)
      let timeoutSecs ← field? fields "timeoutSecs" seconds
      return {
        address := address.join, namespaceName := namespaceName.join, pathPrefix := pathPrefix.join
        kvVersion := kvVersion.getD .one, timeoutSecs := timeoutSecs.getD 30
        auth := auth.getD {} }
  | .array items => positions ofPositions items
  | other => .error (.wrongType other "struct VaultConfig")

def written (v : VaultSettings) : Json :=
  .object (field "address" (v.address.map .text) ++ field "namespace" (v.namespaceName.map .text)
    ++ field "pathPrefix" (v.pathPrefix.map .text)
    ++ [("kvVersion", .ofUnsigned (.ofNat v.kvVersion.number)), ("timeoutSecs", .ofUnsigned v.timeoutSecs),
      ("auth", v.auth.written)])

end VaultSettings

namespace LogSettings

def ofPositions : Positional LogSettings := do
  let level ← next? (optional text)
  let format ← next? (variant LogFormat.names)
  return ⟨level.join, format.getD .text⟩

def decode : Decoder LogSettings
  | .object fields => do
      let format ← field? fields "format" (variant LogFormat.names)
      let level ← field? fields "level" (optional text)
      return ⟨level.join, format.getD .text⟩
  | .array items => positions ofPositions items
  | other => .error (.wrongType other "struct LoggingConfig")

def written (l : LogSettings) : Json :=
  .object (field "level" (l.level.map .text) ++ [("format", .text l.format.name)])

end LogSettings

namespace Settings

def ofPositions : Positional Settings := do
  let vault ← next? VaultSettings.decode
  let logging ← next? LogSettings.decode
  return ⟨vault.getD {}, logging.getD {}⟩

def decode : Decoder Settings
  | .object fields => do
      let logging ← field? fields "logging" LogSettings.decode
      let vault ← field? fields "vault" VaultSettings.decode
      return ⟨vault.getD {}, logging.getD {}⟩
  | .array items => positions ofPositions items
  | other => .error (.wrongType other "struct Config")

def written (s : Settings) : Json :=
  .object [("vault", s.vault.written), ("logging", s.logging.written)]

def redacted (s : Settings) : Settings :=
  { s with vault := { s.vault with auth := s.vault.auth.redacted } }

end Settings

end ManifestSecrets
