import ManifestSecrets.Proofs.Json.Places
import ManifestSecrets.Proofs.Json.Same
import ManifestSecrets.Proofs.Store.Refusal
import ManifestSecrets.Proofs.Text.Utf8

set_option autoImplicit false

namespace ManifestSecrets

def KvVersion.place : KvVersion → Path
  | .one => [.key "data"]
  | .two => [.key "data", .key "data"]

namespace Client

def Unfit (data : Json) : Prop := data ≠ .null ∧ ∀ fields, data ≠ .object fields

inductive Outcome (path : String) (version : KvVersion) (r : Response) : Except StoreError SecretMap → Prop
  | unknown (status : r.status = 404) : Outcome path version r (.error (.notFound path))
  | denied (message : String) (failed : r.isSuccess = false) (other : r.status ≠ 404) (said : Says r.text message) :
      Outcome path version r (.error (.status r.status path message))
  | unreadable (reason : String) (success : r.isSuccess = true) (unread : r.json? = none) :
      Outcome path version r (.error (.http reason))
  | secrets (body : Json) (m : SecretMap) (success : r.isSuccess = true) (read : r.json? = some body)
      (there : body.at? version.place = some (.object m)) : Outcome path version r (.ok m)
  | deleted (body : Json) (success : r.isSuccess = true) (read : r.json? = some body)
      (there : body.at? version.place = some .null) : Outcome path version r (.error (.notFound path))
  | misplaced (body : Json) (reason : String) (success : r.isSuccess = true) (read : r.json? = some body)
      (lacking : ∀ data, body.at? version.place = some data → Unfit data) :
      Outcome path version r (.error (.unexpectedFormat reason))

theorem data_child (body : Json) : body.child? (.key "data") = dataOf? body := by
  cases body <;> rfl

theorem place_one (body : Json) : body.at? KvVersion.one.place = dataOf? body := by
  rw [KvVersion.place, Json.at?, data_child]
  cases dataOf? body <;> rfl

theorem place_two (body : Json) : body.at? KvVersion.two.place = (dataOf? body).bind dataOf? := by
  rw [KvVersion.place, Json.at?, data_child]
  exact congrArg (Option.bind _) (funext place_one)

variable (path : String) (version : KvVersion) (body : Json)

theorem extract_found (data : Json) (found : body.at? version.place = some data) :
    extract path version body =
      match data with
      | .object m => .ok m
      | .null => .error (.notFound path)
      | other => .error (.unexpectedFormat ("data for " ++ path ++ " is not an object: " ++ other.write)) := by
  cases version with
  | one =>
    have here : dataOf? body = some data := (place_one body).symm.trans found
    simp only [extract, here, bind, Except.bind]
    cases data <;> rfl
  | two =>
    obtain ⟨envelope, here, inner⟩ := Option.bind_eq_some_iff.mp ((place_two body).symm.trans found)
    simp only [extract, here, inner, bind, Except.bind]
    cases data <;> rfl

theorem extract_lacking (lacking : body.at? version.place = none) :
    ∃ reason, extract path version body = .error (.unexpectedFormat reason) := by
  cases here : dataOf? body with
  | none =>
    simp only [extract, here, bind, Except.bind]
    exact ⟨_, rfl⟩
  | some envelope =>
    cases version with
    | one => simp [place_one, here] at lacking
    | two =>
      rw [place_two, here, Option.bind_some] at lacking
      simp only [extract, here, lacking, bind, Except.bind]
      exact ⟨_, rfl⟩

theorem answer_outcome (r : Response) : Outcome path version r (answerOf path r >>= extract path version) := by
  cases success : r.isSuccess with
  | false =>
    rw [answer_refused path r success]
    by_cases unknown : r.status = 404
    · rw [if_pos unknown]
      exact .unknown unknown
    · rw [if_neg unknown]
      exact .denied _ success unknown ((says_iff _ _).mpr rfl)
  | true =>
    cases read : r.json? with
    | none =>
      have unread : answerOf path r = .error (.http "error decoding response body") := by
        simp only [answerOf, checked, success, if_true, bind, Except.bind, Response.json, read]
      rw [unread]
      exact .unreadable _ success read
    | some body =>
      rw [(answer_ok_iff path r body).mpr ⟨success, read⟩]
      change Outcome path version r (extract path version body)
      cases here : body.at? version.place with
      | none =>
        obtain ⟨reason, failed⟩ := extract_lacking path version body here
        rw [failed]
        exact .misplaced body reason success read (by simp [here])
      | some data =>
        rw [extract_found path version body data here]
        cases data with
        | object m => exact .secrets body m success read here
        | null => exact .deleted body success read here
        | _ => exact .misplaced body _ success read (by simp [here, Unfit])

def Spells (r : Response) (body : Json) : Prop :=
  r.whole = true ∧ ∃ text, r.body = Text.utf8 text ∧ Json.read? text = some body

theorem spells_iff (r : Response) (body : Json) : Spells r body ↔ r.json? = some body := by
  rw [Spells, Response.json?]
  cases r.whole with
  | false => simp
  | true =>
    simp only [true_and, if_true, Option.bind_eq_some_iff]
    constructor
    · rintro ⟨text, bytes, read⟩
      exact ⟨text, by rw [bytes, Text.of_utf8_utf8], read⟩
    · rintro ⟨text, bytes, read⟩
      exact ⟨text, (Text.of_utf8_some _ _ bytes).symm, read⟩

def Holds (version : KvVersion) (r : Response) (data : Json) : Prop :=
  ∃ body, Spells r body ∧ body.at? version.place = some data

def Unspelled (r : Response) : Prop := ∀ body, ¬ Spells r body

def Misses (version : KvVersion) (r : Response) : Prop :=
  ∃ body, Spells r body ∧ ∀ data, body.at? version.place = some data → Unfit data

-- How a read is classified, by the status of the answer and what stands in it.
structure Classified (path : String) (version : KvVersion) (r : Response) (result : Except StoreError SecretMap) :
    Prop where
  secrets : ∀ m, result = .ok m ↔ r.status < 300 ∧ Holds version r (.object m)
  notFound : ∀ p, result = .error (.notFound p) ↔
    p = path ∧ (r.status = 404 ∨ r.status < 300 ∧ Holds version r .null)
  denied : ∀ code p message, result = .error (.status code p message) ↔
    400 ≤ r.status ∧ r.status ≠ 404 ∧ code = r.status ∧ p = path ∧ Says r.text message
  unreadable : (∃ reason, result = .error (.http reason)) ↔ r.status < 300 ∧ Unspelled r
  misplaced : (∃ reason, result = .error (.unexpectedFormat reason)) ↔ r.status < 300 ∧ Misses version r

theorem outcome_classified (r : Response) (result : Except StoreError SecretMap)
    (classes : (200 ≤ r.status ∧ r.status < 300) ∨ (400 ≤ r.status ∧ r.status < 600))
    (outcome : Outcome path version r result) : Classified path version r result := by
  have successful : r.isSuccess = true ↔ r.status < 300 := by
    simp only [Response.isSuccess, Bool.and_eq_true, decide_eq_true_eq]
    omega
  have granted (success : r.isSuccess = true) : r.status < 300 ∧ r.status ≠ 404 ∧ ¬ 400 ≤ r.status := by
    have low := successful.mp success
    omega
  cases outcome with
  | unknown status => constructor <;> simp [status, eq_comm]
  | denied message failed other said =>
    have failure : ¬ r.status < 300 := by simp [← successful, failed]
    have refused : 400 ≤ r.status := by omega
    have same := (says_iff _ _).mp said
    constructor <;> simp [failure, refused, other, says_iff, same, eq_comm]
  | unreadable reason success unread =>
    constructor <;> simp [granted success, Holds, Unspelled, Misses, spells_iff, unread]
  | secrets body m success read there =>
    constructor <;> simp [granted success, Holds, Unspelled, Misses, spells_iff, read, there, Unfit]
  | deleted body success read there =>
    constructor <;> simp [granted success, Holds, Unspelled, Misses, spells_iff, read, there, Unfit, eq_comm]
  | misplaced body reason success read lacking =>
    have noObject (m : SecretMap) : body.at? version.place ≠ some (.object m) :=
      fun here => (lacking _ here).2 m rfl
    have noNull : body.at? version.place ≠ some .null := fun here => (lacking _ here).1 rfl
    constructor
    case misplaced => simpa [granted success, Misses, spells_iff, read] using lacking
    all_goals simp [granted success, Holds, Unspelled, spells_iff, read, noObject, noNull]

open SecretStore in
theorem read_classified (client : Client) (token : String) (url : Url) (address : client.urlOf path = .ok url)
    (c : Conversation) (r : Response) (after : Conversation)
    (exchanged : c.exchange (readRequest client url token) = (.ok r, after))
    (classes : (200 ≤ r.status ∧ r.status < 300) ∨ (400 ≤ r.status ∧ r.status < 600)) :
    (client.read path token c).state = after ∧
      Classified path client.kvVersion r (client.read path token c).run.result := by
  have asked := ask_exchange path (readRequest client url token) c
  rw [exchanged] at asked
  simp only [readRequest] at asked
  simp only [read, address, asked]
  exact ⟨trivial, outcome_classified path client.kvVersion r _ classes (answer_outcome path client.kvVersion r)⟩

def versioned : Client := { SecretStore.proxied with kvVersion := .two }

def versionedUrl : Url :=
  ⟨"https", some ⟨"", .name "vault.example.com", none⟩, .segments ["proxy", "v1", "secret", "app"], none, none⟩

def versionedBody : Json :=
  .object [("data", .object [("data", .object [("data", .null), ("pw", .text "s3cr3t")]),
    ("metadata", .object [("version", .ofUnsigned 3)])]), ("request_id", .text "r")]

def versionedResponse : Response := .ofText 200 versionedBody.write

open SecretStore in
def versionedAfter : Conversation :=
  { opening .usual [] with received := [readRequest versioned versionedUrl "s.first"] }

open SecretStore in
theorem read_classified_versioned :
    versioned.urlOf "/secret/app" = .ok versionedUrl ∧
      (opening .usual [versionedResponse]).exchange (readRequest versioned versionedUrl "s.first") =
        (.ok versionedResponse, versionedAfter) ∧
      (200 ≤ versionedResponse.status ∧ versionedResponse.status < 300) ∧
      (versioned.read "/secret/app" "s.first" (opening .usual [versionedResponse])).run.result =
        .ok [("data", .null), ("pw", .text "s3cr3t")] ∧
      (versioned.read "/secret/app" "s.first" (opening .usual [versionedResponse])).state.received =
        [readRequest versioned versionedUrl "s.first"] := by
  have address : versioned.urlOf "/secret/app" = .ok versionedUrl := ok_of_to_option (by decide +kernel)
  have can : (readRequest versioned versionedUrl "s.first").canBeSent Web.usual = true := by decide +kernel
  have exchanged : (opening .usual [versionedResponse]).exchange (readRequest versioned versionedUrl "s.first") =
      (.ok versionedResponse, versionedAfter) :=
    Conversation.exchange_answered _ _ versionedResponse _ rfl can (Request.next_redirect _ _ _ (by decide))
  have success : 200 ≤ versionedResponse.status ∧ versionedResponse.status < 300 := by decide
  have json : Json.read? versionedBody.write = some versionedBody := by decide +kernel
  obtain ⟨state, classified⟩ := read_classified "/secret/app" versioned "s.first" versionedUrl address
    (opening .usual [versionedResponse]) versionedResponse versionedAfter exchanged (.inl success)
  have holds : Holds .two versionedResponse (.object [("data", .null), ("pw", .text "s3cr3t")]) :=
    ⟨versionedBody, ⟨rfl, _, rfl, json⟩, rfl⟩
  exact ⟨address, exchanged, success, (classified.secrets _).mpr ⟨success.2, holds⟩, congrArg _ state⟩

end Client

end ManifestSecrets
