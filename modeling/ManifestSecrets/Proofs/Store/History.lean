import ManifestSecrets.Store.Client

set_option autoImplicit false

namespace ManifestSecrets

def Run.failure? {ε α : Type} (r : Run ε α) : Option ε :=
  match r.result with
  | .ok _ => none
  | .error e => some e

def Server.reply (responses : List Response) (i : Nat) : Response :=
  responses[i]?.getD (.ofText 500 "no scripted response")

theorem Request.next_kept (web : Web) (r next : Request) (answer : Response) (asked : r.next? web answer = some next) :
    next.token = r.token ∧ next.namespaceName = r.namespaceName ∧ (r.method = .get → next.method = .get) := by
  unfold Request.next? at asked
  split at asked
  next =>
    simp only [bind, Option.bind_eq_some_iff] at asked
    obtain ⟨location, -, url, -, asked⟩ := asked
    split at asked
    all_goals
      obtain rfl := Option.some.inj asked
      simp
  next => simp at asked

theorem Request.next_redirect (web : Web) (r : Request) (answer : Response) (final : answer.isRedirect = false) :
    r.next? web answer = none := by
  simp [Request.next?, final]

namespace Conversation

-- What is left of the script is what the requests so far have not used up.
def Follows (responses : List Response) (c : Conversation) : Prop :=
  c.server = .scripted (responses.drop c.received.length)

def sending (responses : List Response) (requests : List Request) (c : Conversation) : Conversation :=
  { c with
    server := .scripted (responses.drop (c.received.length + requests.length)), received := c.received ++ requests }

-- What a request comes to when so many were answered before: the requests that are sent, and how the exchange ends.
inductive Sent (web : Web) (responses : List Response) :
    Nat → Request → List Request → Except StoreError Response → Prop
  | answered (i : Nat) (r : Request) (final : r.next? web (Server.reply responses i) = none) :
      Sent web responses i r [r] (.ok (Server.reply responses i))
  | stopped (i : Nat) (r next : Request) (reason : String) (asked : r.next? web (Server.reply responses i) = some next) :
      Sent web responses i r [r] (.error (.http reason))
  | moved (i : Nat) (r next : Request) (rest : List Request) (result : Except StoreError Response)
      (asked : r.next? web (Server.reply responses i) = some next) (later : Sent web responses (i + 1) next rest result) :
      Sent web responses i r (r :: rest) result

section Sent

variable {web : Web} {responses : List Response} {i : Nat} {r : Request} {sent : List Request}
  {result : Except StoreError Response} (exchanged : Sent web responses i r sent result)

include exchanged

theorem Sent.first : ∃ rest, sent = r :: rest ∧
    (r.next? web (Server.reply responses i) = none → rest = []) := by
  cases exchanged with
  | answered => exact ⟨[], rfl, fun _ => rfl⟩
  | stopped => exact ⟨[], rfl, fun _ => rfl⟩
  | moved _ _ next rest result asked => exact ⟨rest, rfl, fun final => by simp [final] at asked⟩

theorem Sent.chain (j : Nat) (next : Request) (there : sent[j + 1]? = some next) :
    ∃ before, sent[j]? = some before ∧ before.next? web (Server.reply responses (i + j)) = some next := by
  induction exchanged generalizing j with
  | answered => simp at there
  | stopped => simp at there
  | moved i r second rest result asked later ih =>
    rw [List.getElem?_cons_succ] at there
    cases j with
    | zero =>
      obtain ⟨others, rfl, -⟩ := later.first
      obtain rfl : second = next := by simpa using there
      exact ⟨r, rfl, asked⟩
    | succ j =>
      obtain ⟨before, here, moves⟩ := ih j there
      exact ⟨before, here, by rwa [Nat.add_right_comm] at moves⟩

theorem Sent.last (answer : Response) (ok : result = .ok answer) :
    answer = Server.reply responses (i + sent.length - 1) := by
  induction exchanged with
  | answered => exact (Except.ok.inj ok).symm
  | stopped => cases ok
  | moved i r next rest result asked later ih =>
    rw [ih ok, List.length_cons]
    congr 1
    omega

theorem Sent.kept (request : Request) (member : request ∈ sent) :
    request.token = r.token ∧ request.namespaceName = r.namespaceName ∧ (r.method = .get → request.method = .get) := by
  induction exchanged with
  | answered => simp [List.mem_singleton.mp member]
  | stopped => simp [List.mem_singleton.mp member]
  | moved i r next rest result asked later ih =>
    rcases List.mem_cons.mp member with rfl | there
    · simp
    · obtain ⟨token, name, get⟩ := Request.next_kept web r next _ asked
      obtain ⟨token', name', get'⟩ := ih there
      exact ⟨token'.trans token, name'.trans name, fun read => get' (get read)⟩

end Sent

variable (responses : List Response) (request : Request) (c : Conversation)

@[simp] theorem sending_received (sent : List Request) :
    (c.sending responses sent).received = c.received ++ sent := rfl

theorem sending_follows (sent : List Request) : (c.sending responses sent).Follows responses := by
  rw [Follows, sending_received, List.length_append]
  rfl

theorem sending_cons (rest : List Request) :
    (c.sending responses [request]).sending responses rest = c.sending responses (request :: rest) := by
  simp only [sending, List.length_append, List.length_cons, List.length_nil, List.append_assoc, List.singleton_append,
    Nat.add_assoc, Nat.zero_add, Nat.add_comm 1]

theorem next_reply (i : Nat) :
    (Server.scripted (responses.drop i)).next =
      (.answered (Server.reply responses i), .scripted (responses.drop (i + 1))) := by
  rw [Server.reply]
  by_cases inside : i < responses.length
  · rw [List.drop_eq_getElem_cons inside, List.getElem?_eq_getElem inside]
    rfl
  · have beyond : responses.length ≤ i := Nat.le_of_not_lt inside
    rw [List.drop_eq_nil_of_le beyond, List.drop_eq_nil_of_le (Nat.le_succ_of_le beyond), List.getElem?_eq_none beyond]
    rfl

theorem follows_reply (follows : c.Follows responses) : c.server.next =
    (.answered (Server.reply responses c.received.length), .scripted (responses.drop (c.received.length + 1))) := by
  rw [Follows] at follows
  rw [follows, next_reply]

-- By the redirections that are left: the answer is final, or the last one followed, or the request after it is sent.
theorem send_sent (left : Nat) (follows : c.Follows responses) : ∃ sent result,
    Sent c.web responses c.received.length request sent result ∧ sent.length ≤ left + 1 ∧
      c.send left request = (result, c.sending responses sent) := by
  induction left generalizing request c with
  | zero =>
    rw [send, c.follows_reply responses follows]
    cases asked : request.next? c.web (Server.reply responses c.received.length) with
    | none => exact ⟨_, _, .answered _ _ asked, by simp, by simp only [asked]; rfl⟩
    | some next => exact ⟨_, _, .stopped _ _ next _ asked, by simp, by simp only [asked]; rfl⟩
  | succ left ih =>
    rw [send, c.follows_reply responses follows]
    cases asked : request.next? c.web (Server.reply responses c.received.length) with
    | none => exact ⟨_, _, .answered _ _ asked, by simp, by simp only [asked]; rfl⟩
    | some next =>
      by_cases web : next.isWeb = true
      · obtain ⟨sent, result, exchanged, short, same⟩ :=
          ih next (c.sending responses [request]) (c.sending_follows responses _)
        rw [sending_received, List.length_append] at exchanged
        refine ⟨_, result, .moved _ _ next sent result asked exchanged, by simpa using short, ?_⟩
        simp only [asked, web, if_true]
        exact same.trans (by rw [sending_cons])
      · refine ⟨_, _, .stopped _ _ next "URL scheme is not allowed" asked, by simp, ?_⟩
        simp only [asked, web]
        rfl

theorem exchange_sent (follows : c.Follows responses) (can : request.canBeSent c.web = true) : ∃ sent result,
    Sent c.web responses c.received.length request sent result ∧ sent.length ≤ c.web.longestChain + 1 ∧
      c.exchange request = (result, c.sending responses sent) := by
  rw [exchange, if_pos can]
  exact c.send_sent responses request _ follows

theorem exchange_unsent (cannot : ¬ request.canBeSent c.web = true) :
    c.exchange request = (.error (.http "request cannot be built"), c) := by
  rw [exchange, if_neg cannot]

theorem send_token (left : Nat) : (c.send left request).2.token = c.token := by
  induction left generalizing request c with
  | zero =>
    rw [send]
    split
    · rfl
    · dsimp only
      split <;> rfl
  | succ left ih =>
    rw [send]
    split
    · rfl
    · dsimp only
      split
      · rfl
      · split
        · exact ih _ _
        · rfl

theorem exchange_token : (c.exchange request).2.token = c.token := by
  unfold exchange
  split
  · exact c.send_token request _
  · rfl

theorem exchange_answered (r : Response) (after : Server) (reply : c.server.next = (.answered r, after))
    (can : request.canBeSent c.web = true) (final : request.next? c.web r = none) :
    c.exchange request = (.ok r, { c with server := after, received := c.received ++ [request] }) := by
  rw [exchange, if_pos can]
  cases c.web.longestChain <;> simp only [send, reply, final]

end Conversation

namespace Client

def answerOf (path : String) (r : Response) : Except StoreError Json := do (← checked path r).json

theorem ask_exchange (path : String) (request : Request) (c : Conversation) :
    ask path request c = ((c.exchange request).1 >>= answerOf path, (c.exchange request).2) := by
  rw [ask]
  rfl

theorem checked_refused (path : String) (r : Response) (refused : ¬ r.isSuccess = true) :
    ∃ e, checked path r = .error e := by
  rw [checked, if_neg refused]
  split
  · exact ⟨_, rfl⟩
  · exact ⟨_, rfl⟩

theorem answer_ok_iff (path : String) (r : Response) (answer : Json) :
    answerOf path r = .ok answer ↔ r.isSuccess = true ∧ r.json? = some answer := by
  by_cases success : r.isSuccess = true
  · simp only [answerOf, checked, success, if_true, bind, Except.bind, Response.json, true_and]
    cases read : r.json? <;> simp
  · obtain ⟨e, refused⟩ := checked_refused path r success
    simp [answerOf, refused, success, bind, Except.bind]

end Client

namespace SecretStore

inductive Ask where
  | login
  | secretsAt (path : String)
deriving DecidableEq

structure Event where
  ask : Ask
  before : Conversation
  after : Conversation
  failure : Option StoreError

def Event.sent (e : Event) : List Request := e.after.received.drop e.before.received.length

def Event.LoggedIn (e : Event) : Prop := e.ask = .login ∧ e.failure = none

def eventOf (store : SecretStore Conversation) (ask : Ask) (c : Conversation) : Event :=
  match ask with
  | .login => ⟨ask, c, (store.login c).state, (store.login c).run.failure?⟩
  | .secretsAt path => ⟨ask, c, (store.secretsAt path c).state, (store.secretsAt path c).run.failure?⟩

def history (store : SecretStore Conversation) : List Ask → Conversation → List Event
  | [], _ => []
  | ask :: rest, c => eventOf store ask c :: history store rest (eventOf store ask c).after

def stateAfter (store : SecretStore Conversation) : List Ask → Conversation → Conversation
  | [], c => c
  | ask :: rest, c => stateAfter store rest (eventOf store ask c).after

variable (store : SecretStore Conversation)

theorem history_split (asks : List Ask) (c : Conversation) (earlier later : List Event) (event : Event)
    (split : history store asks c = earlier ++ event :: later) :
    ∃ front ask, earlier = history store front c ∧ event = eventOf store ask (stateAfter store front c) := by
  induction earlier generalizing asks c with
  | nil =>
    cases asks with
    | nil => simp [history] at split
    | cons ask rest =>
      obtain ⟨same, -⟩ := List.cons.inj split
      exact ⟨[], ask, rfl, same.symm⟩
  | cons first earlier ih =>
    cases asks with
    | nil => simp [history] at split
    | cons ask rest =>
      obtain ⟨rfl, tail⟩ := List.cons.inj split
      obtain ⟨front, last, same, here⟩ := ih rest _ tail
      exact ⟨ask :: front, last, by rw [same, history], here⟩

-- What holds at the start and is kept by each call holds all along a run.
theorem history_invariant (holds : List Event → Conversation → Prop)
    (kept : ∀ past c ask, holds past c → holds (past ++ [eventOf store ask c]) (eventOf store ask c).after)
    (asks : List Ask) (past : List Event) (c : Conversation) (start : holds past c) :
    holds (past ++ history store asks c) (stateAfter store asks c) := by
  induction asks generalizing past c with
  | nil => rwa [history, List.append_nil]
  | cons ask rest ih =>
    have later := ih _ _ (kept past c ask start)
    rwa [List.append_assoc] at later

end SecretStore

end ManifestSecrets
