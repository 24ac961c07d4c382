import ManifestSecrets.Proofs.Url.Join
import ManifestSecrets.Store.Vault

set_option autoImplicit false

namespace ManifestSecrets.SecretStore

variable (naming : Url.Naming) (client : Client)

theorem of_address_parsed (address : String) (namespaceName : Option String) (kvVersion : KvVersion) (url : Url)
    (parsed : (Url.parse naming address).toOption = some url) :
    Client.ofAddress naming address namespaceName kvVersion = .ok ⟨url.withSlash, namespaceName, kvVersion⟩ := by
  unfold Client.ofAddress
  cases read : Url.parse naming address with
  | error fault => simp [read, Except.toOption] at parsed
  | ok found =>
    obtain rfl : found = url := by simpa [read, Except.toOption] using parsed
    rfl

theorem login_url (base : List String) (path : client.address.path = .segments (base ++ [""]))
    (noFile : Url.isFile client.address.scheme = false) :
    client.urlOf loginPath = .ok { client.address with
      path := .segments (base ++ ["v1", "auth", "approle", "login"]), query := none, fragment := none } := by
  have split : ∀ special, Url.splitPath special (Url.stripped ("v1/" ++ Client.bare loginPath)) =
      ("v1/auth/approle/login".toList, none, none) := by decide
  have segments : ∀ special, Url.segmentsOf special "v1/auth/approle/login".toList =
      ["v1", "auth", "approle", "login"] := by decide
  have plain : ∀ s ∈ ["v1", "auth", "approle", "login"], Url.isDoubleDot s = false ∧ Url.isDot s = false := by
    decide
  have joined := Url.join_plain client.address base _ ("v1/" ++ Client.bare loginPath) _ path noFile (split _)
    (segments _) plain
  rw [Client.urlOf, joined]

theorem login_text (base : List String) (path : client.address.path = .segments (base ++ [""])) :
    (Url.Path.segments (base ++ ["v1", "auth", "approle", "login"])).text =
      client.address.path.text ++ "v1/auth/approle/login" := by
  have slash : (Url.Path.segments [""]).text = "/" := by decide
  have added : (Url.Path.segments ["v1", "auth", "approle", "login"]).text = "/" ++ "v1/auth/approle/login" := by
    decide
  rw [path, Url.segments_text base, Url.segments_text base, slash, added, String.append_assoc]

section Address

variable (address : String) (namespaceName : Option String) (kvVersion : KvVersion)
  (made : Client.ofAddress naming address namespaceName kvVersion = .ok client)

include made

theorem client_namespace : client.namespaceName = namespaceName := by
  unfold Client.ofAddress at made
  split at made
  next => rw [← Except.ok.inj made]
  next => simp at made

theorem client_path (noFile : Url.isFile client.address.scheme = false)
    (special : Url.isSpecial client.address.scheme = true) :
    ∃ base, client.address.path = .segments (base ++ [""]) := by
  unfold Client.ofAddress at made
  split at made
  next url parsed =>
    obtain rfl := Except.ok.inj made
    rw [Url.with_slash_scheme] at noFile special
    obtain ⟨parts, path⟩ := Url.parse_web naming address url parsed noFile special
    obtain ⟨base, same⟩ := Url.with_slash_path url parts path
    exact ⟨base, congrArg Url.path same⟩
  next => simp at made

theorem login_address (web : client.address.scheme = "http" ∨ client.address.scheme = "https") :
    ∃ url, client.urlOf loginPath = .ok url ∧ url.scheme = client.address.scheme ∧
      url.authority = client.address.authority ∧
      url.path.text = client.address.path.text ++ "v1/auth/approle/login" ∧ url.query = none := by
  have noFile : Url.isFile client.address.scheme = false := by
    cases web with
    | inl plain => simp [plain, Url.isFile]
    | inr secure => simp [secure, Url.isFile]
  have special : Url.isSpecial client.address.scheme = true := by
    cases web with
    | inl plain => simp [plain, Url.isSpecial, Url.defaultPort?]
    | inr secure => simp [secure, Url.isSpecial, Url.defaultPort?]
  obtain ⟨base, path⟩ := client_path naming client address namespaceName kvVersion made noFile special
  exact ⟨_, login_url client base path noFile, rfl, rfl, login_text client base path, rfl⟩

end Address

end ManifestSecrets.SecretStore
