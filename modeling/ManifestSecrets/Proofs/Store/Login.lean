import ManifestSecrets.Proofs.Document
import ManifestSecrets.Proofs.Store.Address
import ManifestSecrets.Proofs.Store.History

/-!
Runs on a store that logs in with the ids of a role: which requests each call sends, and whose token they carry. A call
sends one request of its own and those that redirections ask for. `RoleCall` says once what a call can do; the rest is an
induction over the run.
-/

set_option autoImplicit false

namespace ManifestSecrets

namespace SecretStore

def Grants (r : Response) (token : String) : Prop :=
  r.isSuccess = true ∧ token ≠ "" ∧ ∃ fields auth, r.json? = some (.object fields) ∧
    KeyMap.find? "auth" fields = some (.object auth) ∧ KeyMap.find? "client_token" auth = some (.text token)

theorem field_eq_iff (v : Json) (name : String) (found : Json) :
    v.field? name = some found ↔ ∃ fields, v = .object fields ∧ KeyMap.find? name fields = some found := by
  cases v <;> simp [Json.field?]

theorem text_eq_iff (v : Json) (s : String) : v.text? = some s ↔ v = .text s := by
  cases v <;> simp [Json.text?]

theorem granted_token_iff (answer : Json) (token : String) :
    grantedToken? answer = some token ↔ token ≠ "" ∧ ∃ fields auth, answer = .object fields ∧
      KeyMap.find? "auth" fields = some (.object auth) ∧ KeyMap.find? "client_token" auth = some (.text token) := by
  unfold grantedToken?
  constructor
  · intro granted
    simp only [bind, Option.bind_eq_some_iff, field_eq_iff, text_eq_iff] at granted
    obtain ⟨_, ⟨fields, rfl, outer⟩, _, ⟨auth, rfl, inner⟩, text, rfl, same⟩ := granted
    by_cases empty : text = ""
    · simp [empty] at same
    · rw [if_neg empty] at same
      obtain rfl := Option.some.inj same
      exact ⟨empty, fields, auth, rfl, outer, inner⟩
  · rintro ⟨body, fields, auth, rfl, outer, inner⟩
    simp [Json.field?, outer, inner, Json.text?, body]

theorem grants_iff (path : String) (r : Response) (token : String) :
    Grants r token ↔ ∃ answer, Client.answerOf path r = .ok answer ∧ grantedToken? answer = some token := by
  simp only [Client.answer_ok_iff, granted_token_iff, Grants]
  constructor
  · rintro ⟨success, body, fields, auth, read, rest⟩
    exact ⟨_, ⟨success, read⟩, body, fields, auth, rfl, rest⟩
  · rintro ⟨_, ⟨success, read⟩, body, fields, auth, rfl, rest⟩
    exact ⟨success, body, fields, auth, read, rest⟩

variable (web : Web) (responses : List Response) (client : Client) (roleId secretId : String)

def loginRequest (url : Url) : Request :=
  ⟨.post, url, none, client.namespaceName, some (.object [("role_id", .text roleId), ("secret_id", .text secretId)])⟩

def readRequest (url : Url) (token : String) : Request := ⟨.get, url, some token, client.namespaceName, none⟩

structure Sends (c : Conversation) (request : Request) (sent : List Request) (result : Except StoreError Response) :
    Prop where
  exchanged : Conversation.Sent c.web responses c.received.length request sent result
  short : sent.length ≤ c.web.longestChain + 1

inductive RoleCall (c : Conversation) : Event → Prop
  | loginUnsent (reason : StoreError) (cannot : ∀ url, client.urlOf loginPath = .ok url →
        ¬ (loginRequest client roleId secretId url).canBeSent c.web = true) :
      RoleCall c ⟨.login, c, c, some reason⟩
  | loginRefused (url : Url) (sent : List Request) (result : Except StoreError Response) (reason : StoreError)
      (address : client.urlOf loginPath = .ok url)
      (sends : Sends responses c (loginRequest client roleId secretId url) sent result) :
      RoleCall c ⟨.login, c, c.sending responses sent, some reason⟩
  | loginGranted (url : Url) (sent : List Request) (r : Response) (token : String)
      (address : client.urlOf loginPath = .ok url)
      (sends : Sends responses c (loginRequest client roleId secretId url) sent (.ok r)) (grants : Grants r token) :
      RoleCall c ⟨.login, c, { c.sending responses sent with token := some token }, none⟩
  | readEarly (path reason : String) (early : c.token = none) :
      RoleCall c ⟨.secretsAt path, c, c, some (.auth reason)⟩
  | readUnsent (path token : String) (reason : StoreError) (held : c.token = some token) :
      RoleCall c ⟨.secretsAt path, c, c, some reason⟩
  | readSent (path token : String) (url : Url) (sent : List Request) (result : Except StoreError Response)
      (failure : Option StoreError) (held : c.token = some token)
      (sends : Sends responses c (readRequest client url token) sent result) :
      RoleCall c ⟨.secretsAt path, c, c.sending responses sent, failure⟩

theorem login_payload : Json.ofFields [("role_id", .text roleId), ("secret_id", .text secretId)] =
    .object [("role_id", .text roleId), ("secret_id", .text secretId)] := by
  have rises : ¬ "secret_id" < "role_id" := by decide
  have different : "secret_id" ≠ "role_id" := by decide
  simp only [Json.ofFields, KeyMap.ofList, List.foldl, KeyMap.insert, if_neg rises, if_neg different]

theorem role_login (c : Conversation) (follows : c.Follows responses) :
    RoleCall responses client roleId secretId c (eventOf (appRole client roleId secretId) .login c) := by
  simp only [eventOf, appRole, roleLogin, Client.post, login_payload]
  cases address : client.urlOf loginPath with
  | error e =>
    refine .loginUnsent _ fun url same => ?_
    simp [address] at same
  | ok url =>
    by_cases can : (loginRequest client roleId secretId url).canBeSent c.web = true
    · obtain ⟨sent, result, exchanged, short, exchange⟩ := c.exchange_sent responses _ follows can
      have asked := Client.ask_exchange loginPath (loginRequest client roleId secretId url) c
      rw [exchange] at asked
      simp only [loginRequest] at asked
      have sends : Sends responses c (loginRequest client roleId secretId url) sent result := ⟨exchanged, short⟩
      cases answer : result >>= Client.answerOf loginPath with
      | error e =>
        simp only [asked, answer]
        exact .loginRefused url sent result _ address sends
      | ok json =>
        cases given : grantedToken? json with
        | none =>
          simp only [asked, answer, given]
          exact .loginRefused url sent result _ address sends
        | some token =>
          simp only [asked, answer, given]
          obtain ⟨r, rfl, ok⟩ := bind_ok answer
          exact .loginGranted url sent r token address sends ((grants_iff loginPath r token).mpr ⟨json, ok, given⟩)
    · have asked := Client.ask_exchange loginPath (loginRequest client roleId secretId url) c
      rw [c.exchange_unsent _ can] at asked
      simp only [loginRequest] at asked
      simp only [asked, bind, Except.bind]
      refine .loginUnsent _ fun other same => ?_
      obtain rfl := Except.ok.inj (address.symm.trans same)
      exact can

theorem role_secrets (path : String) (c : Conversation) (follows : c.Follows responses) :
    RoleCall responses client roleId secretId c (eventOf (appRole client roleId secretId) (.secretsAt path) c) := by
  simp only [eventOf, appRole, roleSecrets]
  cases held : c.token with
  | none => exact .readEarly path _ held
  | some token =>
    simp only [Client.read]
    cases address : client.urlOf path with
    | error e => exact .readUnsent path token _ held
    | ok url =>
      have asked := Client.ask_exchange path (readRequest client url token) c
      by_cases can : (readRequest client url token).canBeSent c.web = true
      · obtain ⟨sent, result, exchanged, short, exchange⟩ := c.exchange_sent responses _ follows can
        rw [exchange] at asked
        simp only [readRequest] at asked
        simp only [asked]
        exact .readSent path token url sent result _ held ⟨exchanged, short⟩
      · rw [c.exchange_unsent _ can] at asked
        simp only [readRequest] at asked
        simp only [asked, bind, Except.bind]
        exact .readUnsent path token _ held

theorem role_call (ask : Ask) (c : Conversation) (follows : c.Follows responses) :
    RoleCall responses client roleId secretId c (eventOf (appRole client roleId secretId) ask c) := by
  cases ask with
  | login => exact role_login responses client roleId secretId c follows
  | secretsAt path => exact role_secrets responses client roleId secretId path c follows

def Event.answer (e : Event) : Response := Server.reply responses (e.after.received.length - 1)

-- The token of the last login that succeeded, or none where no login has.
def LastGranted (past : List Event) : Option String → Prop
  | none => ∀ e ∈ past, ¬ e.LoggedIn
  | some token => ∃ front login between, past = front ++ login :: between ∧ login.LoggedIn ∧
      Grants (login.answer responses) token ∧ ∀ e ∈ between, ¬ e.LoggedIn

structure Tracks (past : List Event) (c : Conversation) : Prop where
  web : c.web = web
  follows : c.Follows responses
  token : LastGranted responses past c.token

theorem none_logged_in (past : List Event) (next : Event) (before : ∀ e ∈ past, ¬ e.LoggedIn)
    (other : ¬ next.LoggedIn) : ∀ e ∈ past ++ [next], ¬ e.LoggedIn :=
  List.forall_mem_append.mpr ⟨before, List.forall_mem_singleton.mpr other⟩

theorem last_granted_kept (past : List Event) (e : Event) (token : Option String)
    (last : LastGranted responses past token) (other : ¬ e.LoggedIn) :
    LastGranted responses (past ++ [e]) token := by
  cases token with
  | none => exact none_logged_in past e last other
  | some token =>
    obtain ⟨front, login, between, rfl, loggedIn, grants, since⟩ := last
    refine ⟨front, login, between ++ [e], by simp, loggedIn, grants, ?_⟩
    exact none_logged_in between e since other

theorem last_granted_none (past : List Event) (token : Option String) (last : LastGranted responses past token)
    (noLogin : ∀ e ∈ past, ¬ e.LoggedIn) : token = none := by
  cases token with
  | none => rfl
  | some token =>
    obtain ⟨front, login, between, rfl, loggedIn, -⟩ := last
    exact absurd loggedIn (noLogin login (by simp))

theorem last_granted_now (past : List Event) (e : Event) (token : String) (loggedIn : e.LoggedIn)
    (grants : Grants (e.answer responses) token) :
    LastGranted responses (past ++ [e]) (some token) :=
  ⟨past, e, [], rfl, loggedIn, grants, by simp⟩

theorem tracks_call (past : List Event) (c : Conversation) (event : Event) (tracks : Tracks web responses past c)
    (call : RoleCall responses client roleId secretId c event) :
    Tracks web responses (past ++ [event]) event.after := by
  have kept (e : Event) (other : ¬ e.LoggedIn) := last_granted_kept responses past e c.token tracks.token other
  cases call with
  | loginUnsent => exact ⟨tracks.web, tracks.follows, kept _ (by simp [Event.LoggedIn])⟩
  | loginRefused => exact ⟨tracks.web, c.sending_follows responses _, kept _ (by simp [Event.LoggedIn])⟩
  | loginGranted url sent r token _ sends grants =>
    refine ⟨tracks.web, c.sending_follows responses _, last_granted_now responses past _ token ⟨rfl, rfl⟩ ?_⟩
    rw [sends.exchanged.last r rfl] at grants
    simpa [Event.answer] using grants
  | readEarly => exact ⟨tracks.web, tracks.follows, kept _ (by simp [Event.LoggedIn])⟩
  | readUnsent => exact ⟨tracks.web, tracks.follows, kept _ (by simp [Event.LoggedIn])⟩
  | readSent => exact ⟨tracks.web, c.sending_follows responses _, kept _ (by simp [Event.LoggedIn])⟩

def opening : Conversation := { server := .scripted responses, web }

theorem tracks_run (asks : List Ask) :
    Tracks web responses (history (appRole client roleId secretId) asks (opening web responses))
      (stateAfter (appRole client roleId secretId) asks (opening web responses)) := by
  have start : Tracks web responses [] (opening web responses) := ⟨rfl, rfl, by simp [LastGranted, opening]⟩
  apply history_invariant (appRole client roleId secretId) (Tracks web responses) ?_ asks [] _ start
  intro past c ask tracks
  have call := role_call responses client roleId secretId ask c tracks.follows
  exact tracks_call web responses client roleId secretId past c _ tracks call

structure Posts (r : Request) : Prop where
  method : r.method = .post
  scheme : r.url.scheme = client.address.scheme
  authority : r.url.authority = client.address.authority
  target : r.target = client.address.path.text ++ "v1/auth/approle/login"
  body : r.body = some (.object [("role_id", .text roleId), ("secret_id", .text secretId)])

-- What a call sends, given the calls before it: first a request of its own, and after each request the one that a
-- redirection in the answer to it asks for.
structure Event.Authorized (namespaceName : Option String) (earlier : List Event) (event : Event) : Prop where
  received : event.after.received = event.before.received ++ event.sent
  chain : ∀ i next, event.sent[i + 1]? = some next → ∃ r, event.sent[i]? = some r ∧
    r.next? web (Server.reply responses (event.before.received.length + i)) = some next
  short : event.sent.length ≤ web.longestChain + 1
  read : ∀ path, event.ask = .secretsAt path → ∀ r ∈ event.sent, r.method = .get ∧
    ∃ token, LastGranted responses earlier (some token) ∧ r.token = some token
  kept : event.ask = .login → event.failure ≠ none → event.after.token = event.before.token
  early : ∀ path, event.ask = .secretsAt path → (∀ e ∈ earlier, ¬ e.LoggedIn) →
    event.sent = [] ∧ ∃ reason, event.failure = some (.auth reason)
  tokenless : event.ask = .login → ∀ r ∈ event.sent, r.token = none
  posts : event.ask = .login → client.address.scheme = "http" ∨ client.address.scheme = "https" →
    (∀ url, client.urlOf loginPath = .ok url → web.isTarget url = true) →
    (∀ name, namespaceName = some name → ∀ c ∈ name.toList, 0x20 ≤ c.toNat ∧ c.toNat < 0x7F) →
    ∃ r rest, event.sent = r :: rest ∧ Posts client roleId secretId r ∧
      ((Server.reply responses event.before.received.length).isRedirect = false → rest = [])
  named : ∀ r ∈ event.sent, r.namespaceName = namespaceName

theorem login_can_be_sent (url : Url) (scheme : url.scheme = "http" ∨ url.scheme = "https")
    (target : web.isTarget url = true)
    (visible : ∀ name, client.namespaceName = some name → ∀ c ∈ name.toList, 0x20 ≤ c.toNat ∧ c.toNat < 0x7F) :
    (loginRequest client roleId secretId url).canBeSent web = true := by
  have names : ∀ name, client.namespaceName = some name → name.toList.all Request.isNameChar = true := by
    intro name named
    rw [List.all_eq_true]
    intro c member
    obtain ⟨low, high⟩ := visible name named c member
    have inside : c.toNat ≠ 0x7F := by omega
    simp [Request.isNameChar, low, inside]
  cases named : client.namespaceName with
  | none => simp [Request.canBeSent, Request.isWeb, loginRequest, scheme, target, named]
  | some name => simp [Request.canBeSent, Request.isWeb, loginRequest, scheme, target, named, names name named]

theorem sent_nothing (ask : Ask) (c : Conversation) (failure : Option StoreError) :
    (Event.mk ask c c failure).sent = [] :=
  List.drop_length

theorem sent_those (ask : Ask) (c after : Conversation) (failure : Option StoreError) (sent : List Request)
    (received : after.received = c.received ++ sent) : (Event.mk ask c after failure).sent = sent := by
  rw [Event.sent, received, List.drop_left]

inductive SentBy (c : Conversation) (event : Event) : Prop
  | nothing (before : event.before = c) (after : event.after.received = c.received) (sent : event.sent = [])
  | requests (request : Request) (result : Except StoreError Response) (before : event.before = c)
      (after : event.after.received = c.received ++ event.sent) (sends : Sends responses c request event.sent result)
      (named : request.namespaceName = client.namespaceName)
      (read : ∀ path, event.ask = .secretsAt path → request.method = .get ∧ request.token = c.token ∧ c.token ≠ none)
      (login : event.ask = .login → request.token = none ∧
        ∃ url, client.urlOf loginPath = .ok url ∧ request = loginRequest client roleId secretId url)

section Call

variable (c : Conversation) (event : Event) (call : RoleCall responses client roleId secretId c event)

include call

theorem call_sent : SentBy responses client roleId secretId c event := by
  cases call with
  | loginUnsent => exact .nothing rfl rfl (sent_nothing _ c _)
  | loginRefused url sent result reason address sends =>
    have those : (Event.mk .login c (c.sending responses sent) (some reason)).sent = sent := sent_those _ c _ _ _ rfl
    exact .requests _ result rfl (by rw [those]; rfl) (by rwa [those]) rfl (by simp) fun _ => ⟨rfl, url, address, rfl⟩
  | loginGranted url sent r token address sends =>
    have those : (Event.mk .login c { c.sending responses sent with token := some token } none).sent = sent :=
      sent_those _ c _ _ _ rfl
    exact .requests _ _ rfl (by rw [those]; rfl) (by rwa [those]) rfl (by simp) fun _ => ⟨rfl, url, address, rfl⟩
  | readEarly => exact .nothing rfl rfl (sent_nothing _ c _)
  | readUnsent => exact .nothing rfl rfl (sent_nothing _ c _)
  | readSent path token url sent result failure held sends =>
    have those : (Event.mk (.secretsAt path) c (c.sending responses sent) failure).sent = sent := sent_those _ c _ _ _ rfl
    exact .requests _ result rfl (by rw [those]; rfl) (by rwa [those]) rfl
      (fun _ _ => ⟨rfl, held.symm, by simp [held]⟩) (by simp)

theorem call_kept (failed : event.failure ≠ none) : event.after.token = c.token := by
  cases call with
  | loginGranted => exact absurd rfl failed
  | _ => rfl

theorem call_early (path : String) (ask : event.ask = .secretsAt path) (early : c.token = none) :
    event.sent = [] ∧ ∃ reason, event.failure = some (.auth reason) := by
  cases call with
  | readEarly _ reason => exact ⟨sent_nothing _ c _, reason, rfl⟩
  | readUnsent _ _ _ held => simp [early] at held
  | readSent _ _ _ _ _ _ held => simp [early] at held
  | _ => simp at ask

theorem call_posts (ask : event.ask = .login) (url : Url) (address : client.urlOf loginPath = .ok url)
    (can : (loginRequest client roleId secretId url).canBeSent c.web = true) : ∃ rest,
    event.sent = loginRequest client roleId secretId url :: rest ∧
      ((Server.reply responses c.received.length).isRedirect = false → rest = []) := by
  have first (sent : List Request) (result : Except StoreError Response)
      (sends : Sends responses c (loginRequest client roleId secretId url) sent result) : ∃ rest,
      sent = loginRequest client roleId secretId url :: rest ∧
        ((Server.reply responses c.received.length).isRedirect = false → rest = []) := by
    obtain ⟨rest, same, alone⟩ := sends.exchanged.first
    exact ⟨rest, same, fun final => alone (Request.next_redirect c.web _ _ final)⟩
  cases call with
  | loginUnsent _ cannot => exact absurd can (cannot url address)
  | loginRefused other sent result _ same sends =>
    obtain rfl := Except.ok.inj (address.symm.trans same)
    rw [sent_those _ c _ _ sent rfl]
    exact first sent result sends
  | loginGranted other sent r _ same sends =>
    obtain rfl := Except.ok.inj (address.symm.trans same)
    rw [sent_those _ c _ _ sent rfl]
    exact first sent _ sends
  | _ => simp at ask

end Call

theorem call_posts_made (address : String) (namespaceName : Option String) (kvVersion : KvVersion)
    (made : Client.ofAddress web.naming address namespaceName kvVersion = .ok client) (c : Conversation) (event : Event)
    (call : RoleCall responses client roleId secretId c event) (same : c.web = web) (ask : event.ask = .login)
    (secure : client.address.scheme = "http" ∨ client.address.scheme = "https")
    (target : ∀ url, client.urlOf loginPath = .ok url → web.isTarget url = true)
    (visible : ∀ name, namespaceName = some name → ∀ c ∈ name.toList, 0x20 ≤ c.toNat ∧ c.toNat < 0x7F) :
    ∃ r rest, event.sent = r :: rest ∧ Posts client roleId secretId r ∧
      ((Server.reply responses c.received.length).isRedirect = false → rest = []) := by
  obtain ⟨url, found, scheme, authority, path, query⟩ :=
    login_address web.naming client address namespaceName kvVersion made secure
  rw [← client_namespace web.naming client address namespaceName kvVersion made] at visible
  rw [← scheme] at secure
  have can := login_can_be_sent web client roleId secretId url secure (target url found) visible
  rw [← same] at can
  obtain ⟨rest, sent, alone⟩ := call_posts responses client roleId secretId c event call ask url found can
  have aimed : (loginRequest client roleId secretId url).target = client.address.path.text ++ "v1/auth/approle/login" := by
    rw [Request.target, loginRequest, path, query, Option.elim_none, String.append_empty]
  exact ⟨_, rest, sent, ⟨rfl, scheme, authority, aimed, rfl⟩, alone⟩

theorem role_run_authorized (address : String) (namespaceName : Option String) (kvVersion : KvVersion)
    (made : Client.ofAddress web.naming address namespaceName kvVersion = .ok client) (asks : List Ask)
    (earlier later : List Event) (event : Event)
    (split : history (appRole client roleId secretId) asks (opening web responses) = earlier ++ event :: later) :
    event.Authorized web responses client roleId secretId namespaceName earlier := by
  obtain ⟨front, ask, rfl, same⟩ := history_split _ asks _ earlier later event split
  have tracks := tracks_run web responses client roleId secretId front
  have call := role_call responses client roleId secretId ask _ tracks.follows
  rw [← same] at call
  generalize stateAfter (appRole client roleId secretId) front (opening web responses) = c at tracks call
  have named := client_namespace web.naming client address namespaceName kvVersion made
  have kept (failed : event.failure ≠ none) := call_kept responses client roleId secretId c event call failed
  have early (path : String) (asked : event.ask = .secretsAt path)
      (noLogin : ∀ e ∈ history (appRole client roleId secretId) front (opening web responses), ¬ e.LoggedIn) :=
    call_early responses client roleId secretId c event call path asked
      (last_granted_none responses _ _ tracks.token noLogin)
  have posts (asked : event.ask = .login) :=
    call_posts_made web responses client roleId secretId address namespaceName kvVersion made c event call tracks.web asked
  cases call_sent responses client roleId secretId c event call with
  | nothing before after sent =>
    refine ⟨by rw [after, before, sent, List.append_nil], by simp [sent], by simp [sent], by simp [sent],
      fun _ failed => before ▸ kept failed, early, by simp [sent], before ▸ posts, by simp [sent]⟩
  | requests request result before after sends name read login =>
    refine ⟨by rw [before, after], ?_, tracks.web ▸ sends.short, ?_, fun _ failed => before ▸ kept failed, early, ?_,
      before ▸ posts, ?_⟩
    · rw [before, ← tracks.web]
      exact sends.exchanged.chain
    · intro path asked r member
      obtain ⟨get, held, given⟩ := read path asked
      obtain ⟨token, token'⟩ := Option.ne_none_iff_exists'.mp given
      obtain ⟨same, -, gets⟩ := sends.exchanged.kept r member
      exact ⟨gets get, token, token' ▸ tracks.token, by rw [same, held, token']⟩
    · intro asked r member
      rw [(sends.exchanged.kept r member).1, (login asked).1]
    · intro r member
      rw [(sends.exchanged.kept r member).2.1, name, named]

def proxied : Client :=
  ⟨⟨"https", some ⟨"", .name "vault.example.com", none⟩, .segments ["proxy", ""], none, none⟩, some "team", .one⟩

def proxiedStore : SecretStore Conversation := appRole proxied "my-role" "my-secret"

def redirection (status : Nat) (location : String) : Response :=
  { status, body := [], location := some (Text.utf8 location) }

def proxiedResponses : List Response :=
  [redirection 307 "https://standby.example.com/v1/auth/approle/login", .ofText 400 "\x7b\"errors\":[\"no\"]\x7d",
    .ofText 200 "\x7b\"auth\":\x7b\"client_token\":\"s.first\"\x7d\x7d",
    .ofText 200 "\x7b\"auth\":\x7b\x7d\x7d", redirection 302 "https://standby.example.com/v1/secret/app",
    .ofText 200 "\x7b\"data\":\x7b\"pw\":\"s3cr3t\"\x7d\x7d"]

def proxiedStart : Conversation := opening .usual proxiedResponses

def proxiedRead : Event :=
  eventOf proxiedStore (.secretsAt "/secret/app") (stateAfter proxiedStore [.login, .login, .login] proxiedStart)

theorem role_run_authorized_proxied :
    Client.ofAddress Web.usual.naming "https://vault.example.com/proxy" (some "team") .one = .ok proxied ∧
      history proxiedStore [.login, .login, .login, .secretsAt "/secret/app"] proxiedStart =
        history proxiedStore [.login, .login, .login] proxiedStart ++ [proxiedRead] ∧
      proxiedRead.Authorized .usual proxiedResponses proxied "my-role" "my-secret" (some "team")
        (history proxiedStore [.login, .login, .login] proxiedStart) ∧
      (history proxiedStore [.login, .login, .login] proxiedStart).map (fun e => (e.failure.isNone, e.sent.length)) =
        [(false, 2), (true, 1), (false, 1)] ∧
      proxiedRead.sent.map (fun r => (r.method, r.url.text, r.token, r.namespaceName)) =
        [(.get, "https://vault.example.com/proxy/v1/secret/app", some "s.first", some "team"),
          (.get, "https://standby.example.com/v1/secret/app", some "s.first", some "team")] := by
  have made : Client.ofAddress Web.usual.naming "https://vault.example.com/proxy" (some "team") .one = .ok proxied := by
    have parsed : (Url.parse Web.usual.naming "https://vault.example.com/proxy").toOption = some
        ⟨"https", some ⟨"", .name "vault.example.com", none⟩, .segments ["proxy"], none, none⟩ := by decide
    exact of_address_parsed _ _ _ _ _ parsed
  have authorized := role_run_authorized .usual proxiedResponses proxied "my-role" "my-secret"
    "https://vault.example.com/proxy" (some "team") .one made [.login, .login, .login, .secretsAt "/secret/app"]
    (history proxiedStore [.login, .login, .login] proxiedStart) [] proxiedRead rfl
  exact ⟨made, rfl, authorized, by decide +kernel, by decide +kernel⟩

def firstMethods (client : Client) (responses : List Response) : List Method :=
  (eventOf (appRole client "my-role" "my-secret") .login (opening .usual responses)).sent.map Request.method

-- A store at an address that is not of the web sends nothing at all, nor does one whose host no request can have, and a
-- login that is redirected is sent again, or looked for before any login has succeeded.
theorem logins_not_one_post :
    (∃ client, Client.ofAddress Web.usual.naming "ftp://vault.example.com" none .one = .ok client ∧
        firstMethods client [] = []) ∧
      (∃ client, Client.ofAddress Web.usual.naming "http://\x7bvault\x7d:8200" none .one = .ok client ∧
        firstMethods client [] = []) ∧
      firstMethods proxied proxiedResponses = [.post, .post] ∧
      firstMethods proxied [redirection 302 "https://standby.example.com/login"] = [.post, .get] := by
  have ftp : (Url.parse Web.usual.naming "ftp://vault.example.com").toOption = some
      ⟨"ftp", some ⟨"", .name "vault.example.com", none⟩, .segments [""], none, none⟩ := by decide
  have braces : (Url.parse Web.usual.naming "http://\x7bvault\x7d:8200").toOption = some
      ⟨"http", some ⟨"", .name "\x7bvault\x7d", some 8200⟩, .segments [""], none, none⟩ := by decide
  exact ⟨⟨_, of_address_parsed _ _ _ _ _ ftp, by decide⟩, ⟨_, of_address_parsed _ _ _ _ _ braces, by decide⟩,
    by decide +kernel, by decide +kernel⟩

end SecretStore

end ManifestSecrets
