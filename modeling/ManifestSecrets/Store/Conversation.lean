import ManifestSecrets.Json.Reader
import ManifestSecrets.Store.Basic
import ManifestSecrets.Url.Domain
import ManifestSecrets.Url.Parse

/-!
Conversations with a server: requests one after the other, each with a reply, and those that a redirection repeats. A
server is what it will say: the replies of a script in their order, and after them always the same one.
-/

set_option autoImplicit false

namespace ManifestSecrets

structure Web where
  naming : Url.Naming
  isTarget : Url → Bool
  leadsTo? : Url → List UInt8 → Option Url
  longestChain : Nat

namespace Web

def isTargetChar (c : Char) : Bool := c.isAlphanum || "!$&'()*+,-.:;=[]_~".toList.contains c

-- A part of what the libraries for names, addresses and requests decide: it leaves out the letters that `Url.Domain` does
-- not know and the locations that are no whole address.
def usual : Web where
  naming := Url.Domain.toAscii?
  isTarget url := url.text.utf8ByteSize < 65535 && url.authority.all fun a => a.host.text.toList.all isTargetChar
  leadsTo? _ location := do (Url.parse Url.Domain.toAscii? (← Text.ofUtf8? location)).toOption
  longestChain := 10

end Web

inductive Method where
  | get
  | post
deriving DecidableEq, Repr

def Method.name : Method → String
  | .get => "GET"
  | .post => "POST"

structure Request where
  method : Method
  url : Url
  token : Option String
  namespaceName : Option String
  body : Option Json

namespace Request

def target (r : Request) : String := r.url.path.text ++ r.url.query.elim "" fun q => "?" ++ q

def isTokenChar (c : Char) : Bool := c == '\t' || (0x20 ≤ c.toNat && c.toNat < 0x7F)

def isNameChar (c : Char) : Bool := c == '\t' || (0x20 ≤ c.toNat && c.toNat != 0x7F)

def isWeb (r : Request) : Bool := r.url.scheme == "http" || r.url.scheme == "https"

def canBeSent (web : Web) (r : Request) : Bool :=
  r.isWeb && web.isTarget r.url && r.token.all (fun t => t.toList.all isTokenChar)
    && r.namespaceName.all fun n => n.toList.all isNameChar

end Request

structure Response where
  status : Nat
  body : List UInt8
  whole : Bool := true
  location : Option (List UInt8) := none
deriving DecidableEq, Repr

namespace Response

def ofText (status : Nat) (body : String) : Response := { status, body := Text.utf8 body }

def isSuccess (r : Response) : Bool := 200 ≤ r.status && r.status < 300

def isRedirect (r : Response) : Bool := [301, 302, 303, 307, 308].contains r.status

def text (r : Response) : String := if r.whole then Text.lossy r.body else ""

def json? (r : Response) : Option Json :=
  if r.whole then (Text.ofUtf8? r.body).bind Json.read? else none

def json (r : Response) : Except StoreError Json :=
  match r.json? with
  | some v => .ok v
  | none => .error (.http "error decoding response body")

end Response

-- The request that a redirection asks for. Two of them repeat the one before, the others are for a look.
def Request.next? (web : Web) (r : Request) (answer : Response) : Option Request :=
  if answer.isRedirect then do
    let url ← web.leadsTo? r.url (← answer.location)
    if answer.status = 307 || answer.status = 308 then return { r with url }
    else return { r with url, method := .get, body := none }
  else none

inductive Reply where
  | answered (response : Response)
  | unanswered (reason : String)

structure Server where
  script : List Reply
  afterwards : Reply

namespace Server

def next (s : Server) : Reply × Server :=
  match s.script with
  | reply :: rest => (reply, { s with script := rest })
  | [] => (s.afterwards, s)

def scripted (responses : List Response) : Server :=
  ⟨responses.map .answered, .answered (.ofText 500 "no scripted response")⟩

def unreachable (reason : String) : Server := ⟨[], .unanswered reason⟩

end Server

structure Conversation where
  server : Server
  web : Web
  received : List Request := []
  token : Option String := none

namespace Conversation

def send (c : Conversation) (left : Nat) (request : Request) : Except StoreError Response × Conversation :=
  match c.server.next with
  | (.unanswered reason, server) => (.error (.http reason), { c with server })
  | (.answered response, server) =>
      let after := { c with server, received := c.received ++ [request] }
      match request.next? c.web response with
      | none => (.ok response, after)
      | some next =>
          match left with
          | 0 => (.error (.http "too many redirects"), after)
          | left + 1 =>
              if next.isWeb then after.send left next else (.error (.http "URL scheme is not allowed"), after)

def exchange (c : Conversation) (request : Request) : Except StoreError Response × Conversation :=
  if request.canBeSent c.web then c.send c.web.longestChain request
  else (.error (.http "request cannot be built"), c)

end Conversation

end ManifestSecrets
