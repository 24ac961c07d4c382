import ManifestSecrets.Store.Conversation
import ManifestSecrets.Store.KvVersion
import ManifestSecrets.Json.Writer
import ManifestSecrets.Url.Parse

set_option autoImplicit false

namespace ManifestSecrets

structure Client where
  address : Url
  namespaceName : Option String
  kvVersion : KvVersion

namespace Client

def ofAddress (naming : Url.Naming) (address : String) (namespaceName : Option String) (kvVersion : KvVersion) :
    Except StoreError Client :=
  match Url.parse naming address with
  | .ok url => .ok ⟨url.withSlash, namespaceName, kvVersion⟩
  | .error fault => .error (.config ("invalid Vault address '" ++ address ++ "': " ++ fault.message))

def bare (path : String) : String := String.ofList (path.toList.dropWhile (· == '/'))

def urlOf (c : Client) (path : String) : Except StoreError Url :=
  match c.address.join ("v1/" ++ bare path) with
  | .ok url => .ok url
  | .error fault => .error (.config ("invalid Vault path '" ++ path ++ "': " ++ fault.message))

def errorText (body : String) : String :=
  let listed := do
    match ← (← Json.read? body).field? "errors" with
    | .array items => some ("; ".intercalate (items.filterMap Json.text?))
    | _ => none
  match listed.filter (· != "") with
  | some text => text
  | none => Text.trim body

def checked (path : String) (r : Response) : Except StoreError Response :=
  if r.isSuccess then .ok r
  else if r.status = 404 then .error (.notFound path)
  else .error (.status r.status path (errorText r.text))

def ask (path : String) (request : Request) (s : Conversation) : Except StoreError Json × Conversation :=
  let (answer, after) := s.exchange request
  (do (← checked path (← answer)).json, after)

def post (c : Client) (path : String) (payload : Json) (s : Conversation) :
    Call Conversation StoreError Json :=
  let logs := [LogLine.debug ("Vault write " ++ path)]
  match c.urlOf path with
  | .error e => ⟨s, logs, .error e⟩
  | .ok url =>
      let (answer, after) := ask path ⟨.post, url, none, c.namespaceName, some payload⟩ s
      ⟨after, logs, answer⟩

def dataOf? : Json → Option Json := Json.field? "data"

-- The secrets in an answer. Secrets that were deleted are null.
def extract (path : String) (version : KvVersion) (body : Json) : Except StoreError SecretMap := do
  let outer ← match dataOf? body with
    | some data => .ok data
    | none => .error (.unexpectedFormat ("response for " ++ path ++ " has no data"))
  let data ← match version with
    | .one => .ok outer
    | .two =>
        match dataOf? outer with
        | some data => .ok data
        | none => .error (.unexpectedFormat ("KV v2 response for " ++ path ++ " has no data.data"))
  match data with
  | .object fields => return fields
  | .null => throw (.notFound path)
  | other => throw (.unexpectedFormat ("data for " ++ path ++ " is not an object: " ++ other.write))

def read (c : Client) (path token : String) (s : Conversation) : Call Conversation StoreError SecretMap :=
  let logs := [LogLine.debug ("Vault read " ++ path ++ " (kv v" ++ toString c.kvVersion.number ++ ")")]
  match c.urlOf path with
  | .error e => ⟨s, logs, .error e⟩
  | .ok url =>
      let (answer, after) := ask path ⟨.get, url, some token, c.namespaceName, none⟩ s
      ⟨after, logs, do extract path c.kvVersion (← answer)⟩

end Client

end ManifestSecrets
