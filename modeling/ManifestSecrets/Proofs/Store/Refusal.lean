import ManifestSecrets.Proofs.Store.Login

set_option autoImplicit false

namespace ManifestSecrets

namespace Client

def Lists (body text : String) : Prop :=
  ∃ fields items, Json.read? body = some (.object fields) ∧ KeyMap.find? "errors" fields = some (.array items) ∧
    text = "; ".intercalate (items.filterMap Json.text?)

def Says (body message : String) : Prop :=
  (Lists body message ∧ message ≠ "") ∨ ((∀ text, Lists body text → text = "") ∧ message = Text.trim body)

def listed? (body : String) : Option String := do
  match ← (← Json.read? body).field? "errors" with
  | .array items => some ("; ".intercalate (items.filterMap Json.text?))
  | _ => none

theorem listed_iff (body text : String) : listed? body = some text ↔ Lists body text := by
  simp only [listed?, bind, Option.bind_eq_some_iff, SecretStore.field_eq_iff, Lists]
  constructor
  · rintro ⟨_, read, errors, ⟨fields, rfl, found⟩, joined⟩
    cases errors with
    | array items => exact ⟨fields, items, read, found, (Option.some.inj joined).symm⟩
    | _ => simp at joined
  · rintro ⟨fields, items, read, found, rfl⟩
    exact ⟨_, read, .array items, ⟨fields, rfl, found⟩, rfl⟩

theorem error_text_listed (body : String) :
    errorText body = ((listed? body).filter (· != "")).getD (Text.trim body) := by
  unfold errorText
  dsimp only
  split
  · next text kept =>
    have found : (listed? body).filter (· != "") = some text := kept
    rw [found, Option.getD_some]
  · next kept =>
    have lacking : (listed? body).filter (· != "") = none := kept
    rw [lacking, Option.getD_none]

theorem says_iff (body message : String) : Says body message ↔ message = errorText body := by
  rw [error_text_listed, Says]
  simp only [← listed_iff]
  cases found : listed? body with
  | none => simp
  | some text =>
    by_cases empty : text = ""
    · simp [empty, Option.filter_some, eq_comm]
    · simp only [Option.filter_some, bne_iff_ne, ne_eq, empty, not_false_eq_true, if_true, Option.getD_some]
      constructor
      · rintro (⟨same, -⟩ | ⟨lacking, -⟩)
        · exact (Option.some.inj same).symm
        · exact absurd (lacking text rfl) empty
      · rintro rfl
        exact .inl ⟨rfl, empty⟩

theorem answer_refused (path : String) (r : Response) (refused : r.isSuccess = false) :
    answerOf path r =
      .error (if r.status = 404 then .notFound path else .status r.status path (errorText r.text)) := by
  have denied : ¬ r.isSuccess = true := by simp [refused]
  rw [answerOf, checked, if_neg denied]
  split <;> rfl

end Client

namespace SecretStore

variable (client : Client) (roleId secretId : String)

def rejection (r : Response) (message : String) : StoreError :=
  .auth ("AppRole login rejected (" ++ toString r.status ++ "): " ++ message)

-- What a login comes to whose exchange ends with an answer that rejects it: the stored token stays, and the failure is one
-- of authentication, unless the answer is that nothing was found.
structure Rejects (c after : Conversation) (r : Response) (called : Call Conversation StoreError Unit) : Prop where
  state : called.state = after
  token : after.token = c.token
  failure : ∃ message, (∀ other, Client.Says r.text other ↔ other = message) ∧
    (called.run.failure? = some (rejection r message) ↔ r.status ≠ 404) ∧
    (r.status = 404 → called.run.failure? = some (.notFound loginPath))

theorem role_login_refused (url : Url) (address : client.urlOf loginPath = .ok url) (c : Conversation) (r : Response)
    (after : Conversation) (exchanged : c.exchange (loginRequest client roleId secretId url) = (.ok r, after))
    (denied : r.isSuccess = false) :
    (roleLogin client roleId secretId c).state = after ∧
      (roleLogin client roleId secretId c).run.failure? =
        some (if r.status = 404 then .notFound loginPath else rejection r (Client.errorText r.text)) := by
  have asked := Client.ask_exchange loginPath (loginRequest client roleId secretId url) c
  rw [exchanged] at asked
  simp only [loginRequest, bind, Except.bind, Client.answer_refused loginPath r denied] at asked
  simp only [roleLogin, Client.post, login_payload, address, asked]
  by_cases unknown : r.status = 404
  · simp only [if_pos unknown]
    exact ⟨trivial, rfl⟩
  · simp only [if_neg unknown]
    exact ⟨trivial, rfl⟩

theorem rejected_login_authentication (url : Url) (address : client.urlOf loginPath = .ok url) (c : Conversation)
    (r : Response) (after : Conversation)
    (exchanged : c.exchange (loginRequest client roleId secretId url) = (.ok r, after))
    (rejected : 400 ≤ r.status ∧ r.status < 600) :
    Rejects c after r ((appRole client roleId secretId).login c) := by
  have denied : r.isSuccess = false := by
    simp only [Response.isSuccess, Bool.and_eq_false_iff, decide_eq_false_iff_not]
    omega
  obtain ⟨state, failure⟩ := role_login_refused client roleId secretId url address c r after exchanged denied
  have token : after.token = c.token := by
    have kept := c.exchange_token (loginRequest client roleId secretId url)
    rwa [exchanged] at kept
  refine ⟨state, token, Client.errorText r.text, Client.says_iff r.text, ?_, ?_⟩
  · simp only [appRole, failure]
    by_cases unknown : r.status = 404
    · simp [unknown, rejection]
    · simp [unknown]
  · intro unknown
    simp only [appRole, failure, if_pos unknown]

def proxiedLogin : Url :=
  ⟨"https", some ⟨"", .name "vault.example.com", none⟩, .segments ["proxy", "v1", "auth", "approle", "login"], none, none⟩

theorem proxied_login_url : proxied.urlOf loginPath = .ok proxiedLogin :=
  login_url proxied ["proxy"] rfl (by decide)

def deniedResponse : Response :=
  { status := 403, body := Text.utf8 "\uFEFFpermission denied " ++ [0xFF] ++ Text.utf8 "\n" }

def deniedAgain : Conversation := { opening .usual [deniedResponse] with token := some "s.first" }

def deniedAfter : Conversation :=
  { opening .usual [] with received := [loginRequest proxied "my-role" "my-secret" proxiedLogin], token := some "s.first" }

theorem rejected_login_authentication_denied :
    proxied.urlOf loginPath = .ok proxiedLogin ∧
      deniedAgain.exchange (loginRequest proxied "my-role" "my-secret" proxiedLogin) = (.ok deniedResponse, deniedAfter) ∧
      (400 ≤ deniedResponse.status ∧ deniedResponse.status < 600) ∧
      (proxiedStore.login deniedAgain).state.token = some "s.first" ∧
      (proxiedStore.login deniedAgain).run.failure? =
        some (.auth "AppRole login rejected (403): \uFEFFpermission denied \uFFFD") := by
  have can : (loginRequest proxied "my-role" "my-secret" proxiedLogin).canBeSent Web.usual = true := by decide +kernel
  have exchanged : deniedAgain.exchange (loginRequest proxied "my-role" "my-secret" proxiedLogin) =
      (.ok deniedResponse, deniedAfter) :=
    deniedAgain.exchange_answered _ deniedResponse _ rfl can (Request.next_redirect _ _ _ (by decide))
  have told : Client.Says deniedResponse.text "\uFEFFpermission denied \uFFFD" :=
    (Client.says_iff _ _).mpr (by decide +kernel)
  have rejects := rejected_login_authentication proxied "my-role" "my-secret" proxiedLogin proxied_login_url deniedAgain
    deniedResponse deniedAfter exchanged (by decide)
  obtain ⟨message, only, refused, -⟩ := rejects.failure
  obtain rfl := (only _).mp told
  exact ⟨proxied_login_url, exchanged, by decide, congrArg Conversation.token rejects.state, refused.mpr (by decide)⟩

def unrouted : Response := .ofText 404 "\x7b\"errors\":[\"no handler for route\"]\x7d"

theorem unrouted_login_not_found :
    (proxiedStore.login (opening .usual [unrouted])).run.failure? = some (.notFound "auth/approle/login") ∧
      Client.Says unrouted.text "no handler for route" ∧
      ∀ reason, (proxiedStore.login (opening .usual [unrouted])).run.failure? ≠ some (.auth reason) := by
  have missing : (proxiedStore.login (opening .usual [unrouted])).run.failure? =
      some (.notFound "auth/approle/login") := by decide
  refine ⟨missing, (Client.says_iff _ _).mpr (by decide +kernel), fun reason => ?_⟩
  simp [missing]

end SecretStore

end ManifestSecrets
