import ManifestSecrets.Proofs.Document
import ManifestSecrets.Proofs.Manifest.Generate
import ManifestSecrets.Settings.Validation
import ManifestSecrets.Store.Vault

/-!
Valid settings have a store. Validation reports every problem, and opening a store stops at the first one that
it meets; whatever it stops at is one of the problems that were reported.
-/

set_option autoImplicit false

namespace ManifestSecrets

namespace VaultSettings

variable (naming : Url.Naming)

inductive Describes (v : VaultSettings) : SecretStore Conversation → Prop
  | appRole (address : String) (url : Url) (roleId secretId : String) (given : v.address = some address)
      (parsed : Url.parse naming address = .ok url) (method : v.auth.method = .appRole)
      (role : v.auth.roleId = some roleId) (secret : v.auth.secretId = some secretId) :
      Describes v (.appRole ⟨url.withSlash, v.namespaceName, v.kvVersion⟩ roleId secretId)
  | token (address : String) (url : Url) (token : String) (given : v.address = some address)
      (parsed : Url.parse naming address = .ok url) (method : v.auth.method = .token) (held : v.auth.token = some token) :
      Describes v (.token ⟨url.withSlash, v.namespaceName, v.kvVersion⟩ token)

def credentials (v : VaultSettings) : List (String × Option String) :=
  match v.auth.method with
  | .appRole => [("roleId", v.auth.roleId), ("secretId", v.auth.secretId)]
  | .token => [("token", v.auth.token)]

inductive Blames (v : VaultSettings) : StoreError → String → Prop
  | addressUnset (unset : v.address = none) : Blames v (.config "Vault address is not set") "vault.address"
  | addressInvalid (address : String) (fault : Url.Fault) (given : v.address = some address)
      (invalid : Url.parse naming address = .error fault) :
      Blames v (.config ("invalid Vault address '" ++ address ++ "': " ++ fault.message)) "vault.address"
  | credentialUnset (field : String) (unset : (field, none) ∈ v.credentials) :
      Blames v (.config ("vault.auth." ++ field ++ " is not set")) ("vault.auth." ++ field)

-- What validation asks for and no store does.
def Unasked (p : Problem) : Prop :=
  (∃ scheme, p = .unsupportedScheme scheme) ∨ p = .noPathPrefix ∨ p = .noTimeout

def Reported (v : VaultSettings) (e : StoreError) : Prop := ∃ p ∈ v.problems naming, ¬ Unasked p ∧ v.Blames naming e p.path

variable (v : VaultSettings)

theorem mem_problems (p : Problem) : p ∈ v.problems naming ↔
    p ∈ v.addressProblems naming ∨ (p = .noPathPrefix ∧ v.pathPrefix.all isBlankText = true) ∨
      (p = .noTimeout ∧ v.timeoutSecs = 0) ∨ p ∈ authProblems v.auth := by
  have alone (problem : Problem) (b : Prop) [Decidable b] :
      p ∈ (if b then [problem] else []) ↔ p = problem ∧ b := by
    split <;> simp [*]
  simp only [problems, List.mem_append, alone, or_assoc]

theorem store_result : (v.store naming).result =
    v.address.elim (.error (.config "Vault address is not set")) (v.storeAt naming) := by
  unfold store
  cases v.address with
  | none => rfl
  | some address =>
    rw [Option.elim_some, Run.bind_result]
    change (v.storeAt naming address >>= _) = _
    cases v.storeAt naming address <;> rfl

theorem store_at_invalid (address : String) (fault : Url.Fault) (invalid : Url.parse naming address = .error fault) :
    v.storeAt naming address = .error (.config ("invalid Vault address '" ++ address ++ "': " ++ fault.message)) := by
  simp only [storeAt, Client.ofAddress, invalid]
  rfl

theorem store_at_parsed (address : String) (url : Url) (parsed : Url.parse naming address = .ok url) :
    v.storeAt naming address =
      match v.auth.method with
      | .appRole => do
          let roleId ← required "roleId" v.auth.roleId
          let secretId ← required "secretId" v.auth.secretId
          return .appRole ⟨url.withSlash, v.namespaceName, v.kvVersion⟩ roleId secretId
      | .token => do
          return .token ⟨url.withSlash, v.namespaceName, v.kvVersion⟩ (← required "token" v.auth.token) := by
  simp only [storeAt, Client.ofAddress, parsed]
  rfl

theorem reported_address (p : Problem) (e : StoreError) (found : p ∈ v.addressProblems naming) (asked : ¬ Unasked p)
    (blames : v.Blames naming e p.path) : v.Reported naming e :=
  ⟨p, (v.mem_problems naming p).mpr (.inl found), asked, blames⟩

theorem reported_credential (p : Problem) (field : String) (found : p ∈ authProblems v.auth) (asked : ¬ Unasked p)
    (path : p.path = "vault.auth." ++ field) (unset : (field, none) ∈ v.credentials) :
    v.Reported naming (.config ("vault.auth." ++ field ++ " is not set")) := by
  refine ⟨p, (v.mem_problems naming p).mpr (.inr (.inr (.inr found))), asked, ?_⟩
  rw [path]
  exact .credentialUnset field unset

theorem store_or_credential (address : String) (url : Url) (given : v.address = some address)
    (parsed : Url.parse naming address = .ok url) :
    (∃ store, v.storeAt naming address = .ok store ∧ v.Describes naming store) ∨
      ∃ e, v.storeAt naming address = .error e ∧ v.Reported naming e := by
  rw [v.store_at_parsed naming address url parsed]
  cases method : v.auth.method with
  | appRole =>
    cases role : v.auth.roleId with
    | none =>
      refine .inr ⟨_, rfl, v.reported_credential naming .noRoleId "roleId" ?_ (by simp [Unasked]) rfl ?_⟩
      · simp [authProblems, method, role]
      · simp [credentials, method, role]
    | some roleId =>
      cases secret : v.auth.secretId with
      | none =>
        refine .inr ⟨_, rfl, v.reported_credential naming .noSecretId "secretId" ?_ (by simp [Unasked]) rfl ?_⟩
        · simp [authProblems, method, secret]
        · simp [credentials, method, secret]
      | some secretId => exact .inl ⟨_, rfl, .appRole address url roleId secretId given parsed method role secret⟩
  | token =>
    cases held : v.auth.token with
    | none =>
      refine .inr ⟨_, rfl, v.reported_credential naming .noToken "token" ?_ (by simp [Unasked]) rfl ?_⟩
      · simp [authProblems, method, held]
      · simp [credentials, method, held]
    | some token => exact .inl ⟨_, rfl, .token address url token given parsed method held⟩

-- One way through the checks of both: at each of them the store fails and a problem is listed, or both go on.
theorem store_or_problem :
    (∃ store, (v.store naming).result = .ok store ∧ v.Describes naming store) ∨
      ∃ e, (v.store naming).result = .error e ∧ v.Reported naming e := by
  rw [store_result]
  cases given : v.address with
  | none =>
    refine .inr ⟨_, rfl, v.reported_address naming .noAddress _ ?_ (by simp [Unasked]) (.addressUnset given)⟩
    simp [addressProblems, given]
  | some address =>
    rw [Option.elim_some]
    cases parsed : Url.parse naming address with
    | error fault =>
      refine .inr ⟨_, v.store_at_invalid naming address fault parsed, v.reported_address naming (.invalidAddress fault) _ ?_
        (by simp [Unasked]) (.addressInvalid address fault given parsed)⟩
      simp [addressProblems, given, parsed]
    | ok url => exact v.store_or_credential naming address url given parsed

theorem described_unasked (store : SecretStore Conversation) (describes : v.Describes naming store) (p : Problem)
    (listed : p ∈ v.problems naming) : Unasked p := by
  have address (given : ∃ address url, v.address = some address ∧ Url.parse naming address = .ok url)
      (found : p ∈ v.addressProblems naming) : Unasked p := by
    obtain ⟨address, url, given, parsed⟩ := given
    simp only [addressProblems, given, parsed] at found
    split at found
    · simp at found
    · exact .inl ⟨url.scheme, List.mem_singleton.mp found⟩
  rcases (v.mem_problems naming p).mp listed with found | ⟨rfl, -⟩ | ⟨rfl, -⟩ | found
  · cases describes with
    | appRole a url _ _ given parsed => exact address ⟨a, url, given, parsed⟩ found
    | token a url _ given parsed => exact address ⟨a, url, given, parsed⟩ found
  · exact .inr (.inl rfl)
  · exact .inr (.inr rfl)
  · cases describes with
    | appRole _ _ _ _ _ _ method role secret => simp [authProblems, method, role, secret] at found
    | token _ _ _ _ _ method held => simp [authProblems, method, held] at found

end VaultSettings

namespace Settings

theorem store_validated (naming : Url.Naming) (s : Settings) :
    (s.problems naming = [] → ∃ store, (s.vault.store naming).result = .ok store ∧ s.vault.Describes naming store) ∧
      (∀ e, (s.vault.store naming).result = .error e → ∃ p ∈ s.problems naming, s.vault.Blames naming e p.path) ∧
      ((∃ store, (s.vault.store naming).result = .ok store) ↔ ∀ p ∈ s.problems naming, VaultSettings.Unasked p) := by
  rcases s.vault.store_or_problem naming with ⟨store, opened, describes⟩ | ⟨e, failed, p, listed, asked, blames⟩
  · refine ⟨fun _ => ⟨store, opened, describes⟩, ?_, ?_⟩
    · intro e failed
      simp [opened] at failed
    · exact iff_of_true ⟨store, opened⟩ (s.vault.described_unasked naming store describes)
  · refine ⟨?_, ?_, ?_⟩
    · intro valid
      rw [show s.vault.problems naming = [] from valid] at listed
      exact absurd listed List.not_mem_nil
    · intro other same
      obtain rfl := Except.error.inj (failed.symm.trans same)
      exact ⟨p, listed, blames⟩
    · refine iff_of_false ?_ fun all => asked (all p listed)
      rintro ⟨store, opened⟩
      simp [failed] at opened

def roleSettings : Settings where
  vault := {
    address := some "https://vault.example.com:8200", pathPrefix := some "secret/app"
    auth := { roleId := some "role", secretId := some "secret" } }

def ftpSettings : Settings where
  vault := { address := some "ftp://vault", timeoutSecs := 0, auth := { method := .token, roleId := some "role" } }

theorem store_validated_both_ways :
    roleSettings.problems Web.usual.naming = [] ∧
      (∃ store, (roleSettings.vault.store Web.usual.naming).result = .ok store ∧
        roleSettings.vault.Describes Web.usual.naming store) ∧
      (ftpSettings.vault.store Web.usual.naming).result = .error (.config "vault.auth.token is not set") ∧
      (∃ p ∈ ftpSettings.problems Web.usual.naming,
        ftpSettings.vault.Blames Web.usual.naming (.config "vault.auth.token is not set") p.path) ∧
      (ftpSettings.problems Web.usual.naming).map Problem.path =
        ["vault.address", "vault.pathPrefix", "vault.timeoutSecs", "vault.auth.token"] := by
  have valid : roleSettings.problems Web.usual.naming = [] := by decide +kernel
  have parsed : Url.parse Web.usual.naming "ftp://vault" =
      .ok ⟨"ftp", some ⟨"", .name "vault", none⟩, .segments [""], none, none⟩ := ok_of_to_option (by decide +kernel)
  have failed : (ftpSettings.vault.store Web.usual.naming).result = .error (.config "vault.auth.token is not set") := by
    rw [VaultSettings.store_result]
    exact VaultSettings.store_at_parsed _ _ _ _ parsed
  exact ⟨valid, (store_validated _ roleSettings).1 valid, failed, (store_validated _ ftpSettings).2.1 _ failed,
    by decide +kernel⟩

end Settings

end ManifestSecrets
