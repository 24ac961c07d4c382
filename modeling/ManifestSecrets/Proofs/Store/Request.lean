import ManifestSecrets.Proofs.Store.Address
import ManifestSecrets.Proofs.Url.Plain

set_option autoImplicit false

namespace ManifestSecrets.Client

def IsSegment (s : String) : Prop := s ≠ "" ∧ Url.IsPlain s

instance (s : String) : Decidable (IsSegment s) := inferInstanceAs (Decidable (s ≠ "" ∧ Url.IsPlain s))

def secretPath (slashes : Nat) (path : List String) : String :=
  String.ofList (List.replicate slashes '/') ++ "/".intercalate path

theorem joined_chars (part : String) (rest : List String) :
    ("/".intercalate (part :: rest)).toList = part.toList ++ Url.pathChars rest := by
  induction rest generalizing part with
  | nil => simp [Url.pathChars]
  | cons next rest ih =>
    rw [String.intercalate_cons_cons, String.toList_append, String.toList_append, ih, Url.path_chars_cons,
      List.append_assoc]
    rfl

theorem bare_secret_path (slashes : Nat) (path : List String) (segments : ∀ s ∈ path, IsSegment s)
    (nonempty : path ≠ []) : bare (secretPath slashes path) = "/".intercalate path := by
  obtain ⟨part, rest, rfl⟩ := List.exists_cons_of_ne_nil nonempty
  obtain ⟨named, plain⟩ := segments part List.mem_cons_self
  obtain ⟨c, cs, chars⟩ := List.exists_cons_of_ne_nil (show part.toList ≠ [] by simpa using named)
  have slashes : ∀ c ∈ List.replicate slashes '/', (c == '/') = true := by simp
  have first : (c == '/') = false := by
    have inner := (Url.unreserved_inner c (plain.1 c (by simp [chars]))).1
    simpa using ((Url.inner_iff c).mp inner).1
  rw [bare, secretPath, String.toList_append, String.toList_ofList, List.dropWhile_append_of_pos slashes, joined_chars, chars,
    List.cons_append, List.dropWhile_cons_of_neg (by simp [first]), ← List.cons_append, ← chars, ← joined_chars,
    String.ofList_toList]

theorem written_closed (scheme host : String) (port : Option (List Char)) (base : List String) :
    Url.written scheme host port base ++ "/" = Url.written scheme host port (base ++ [""]) := by
  have slash : (Url.Path.segments [""]).text = "/" := by decide
  rw [Url.written, Url.written, Url.segments_text, slash, String.append_assoc]

theorem client_made (naming : Url.Naming) (scheme host : String) (port : Option (List Char)) (base : List String)
    (closed : Bool) (namespaceName : Option String) (kvVersion : KvVersion) (found : Url.Host) (web : Url.IsWeb scheme)
    (hosted : Url.IsHostText host.toList) (read : Url.Host.parse naming host.toList = .ok found)
    (valid : ∀ digits, port = some digits → Url.IsPort digits) (segments : ∀ s ∈ base, IsSegment s) :
    ofAddress naming (Url.written scheme host port base ++ if closed then "/" else "") namespaceName kvVersion =
      .ok ⟨⟨scheme, some ⟨"", found, Url.portNumber scheme port⟩, .segments (base ++ [""]), none, none⟩,
        namespaceName, kvVersion⟩ := by
  have plain : ∀ s ∈ base, Url.IsPlain s := fun s member => (segments s member).2
  have parsed := Url.parse_written naming scheme host web found hosted read port valid
  cases closed with
  | true =>
    have also : ∀ s ∈ base ++ [""], Url.IsPlain s :=
      List.forall_mem_append.mpr ⟨plain, List.forall_mem_singleton.mpr ⟨by simp, by decide, by decide⟩⟩
    simp only [if_true, written_closed, ofAddress, parsed _ also]
    simp [Url.withSlash, Url.endsInSlash]
  | false =>
    simp only [Bool.false_eq_true, if_false, String.append_empty, ofAddress, parsed _ plain]
    by_cases bare : base = []
    · simp [bare, Url.withSlash, Url.endsInSlash]
    · have last : base.getLast? ≠ some "" := fun same => (segments "" (List.mem_of_getLast? same)).1 rfl
      simp [bare, Url.withSlash, Url.endsInSlash, last]

theorem url_of_plain (client : Client) (base path : List String) (slashes : Nat)
    (web : Url.IsWeb client.address.scheme) (address : client.address.path = .segments (base ++ [""]))
    (segments : ∀ s ∈ path, IsSegment s) (nonempty : path ≠ []) :
    client.urlOf (secretPath slashes path) = .ok { client.address with
      path := .segments (base ++ "v1" :: path), query := none, fragment := none } := by
  obtain ⟨special, noFile⟩ := Url.web_special client.address.scheme web
  have version : Url.IsPlain "v1" := by decide
  have plain : ∀ s ∈ "v1" :: path, Url.IsPlain s :=
    List.forall_mem_cons.mpr ⟨version, fun s member => (segments s member).2⟩
  have chars : ("v1/" ++ "/".intercalate path).toList = "v1".toList ++ Url.pathChars path := by
    obtain ⟨part, rest, rfl⟩ := List.exists_cons_of_ne_nil nonempty
    rw [String.toList_append, joined_chars, Url.path_chars_cons]
    rfl
  have clean : ∀ c ∈ "v1".toList ++ Url.pathChars path, 0x20 < c.toNat ∧ Url.isPathEnd c = false := fun c member =>
    Url.path_chars_clean ("v1" :: path) plain c (by rw [Url.path_chars_cons]; exact List.mem_cons_of_mem _ member)
  have whole := Url.stripped_clean _ fun c member => (clean c member).1
  rw [← chars, String.ofList_toList, chars] at whole
  have split := Url.split_path_plain _ fun c member => (clean c member).2
  have joined := Url.join_plain client.address base ("v1" :: path) ("v1/" ++ "/".intercalate path) _ address noFile
    (by rw [special, whole]; exact split) (by rw [special]; exact Url.segments_of_path "v1" path plain)
    fun s member => Url.plain_stays s (plain s member)
  rw [urlOf, bare_secret_path slashes path segments nonempty, joined]

theorem read_exchange (client : Client) (path token : String) (url : Url) (address : client.urlOf path = .ok url)
    (c : Conversation) :
    (client.read path token c).state = (c.exchange ⟨.get, url, some token, client.namespaceName, none⟩).2 := by
  simp only [read, address, ask]

theorem post_exchange (client : Client) (path : String) (payload : Json) (url : Url)
    (address : client.urlOf path = .ok url) (c : Conversation) :
    (client.post path payload c).state = (c.exchange ⟨.post, url, none, client.namespaceName, some payload⟩).2 := by
  simp only [post, address, ask]

-- Where a client of an address sends its requests for a path: to the scheme, the host and the port of the address, and to
-- its segments, the version of the interface and the segments of the path.
structure Reaches (client : Client) (scheme : String) (host : Url.Host) (port : Option Nat) (base path : List String)
    (asked : String) (url : Url) : Prop where
  address : client.urlOf asked = .ok url
  parts : url = ⟨scheme, some ⟨"", host, port⟩, .segments (base ++ "v1" :: path), none, none⟩
  text : url.text = scheme ++ "://" ++ (Url.Authority.mk "" host port).text ++
    (Url.Path.segments (base ++ "v1" :: path)).text
  read : ∀ token c, (client.read asked token c).state =
    (c.exchange ⟨.get, url, some token, client.namespaceName, none⟩).2
  post : ∀ payload c, (client.post asked payload c).state =
    (c.exchange ⟨.post, url, none, client.namespaceName, some payload⟩).2

theorem request_address (naming : Url.Naming) (scheme host : String) (port : Option (List Char))
    (base path : List String) (closed : Bool) (slashes : Nat) (namespaceName : Option String) (kvVersion : KvVersion)
    (found : Url.Host) (web : Url.IsWeb scheme) (hosted : Url.IsHostText host.toList)
    (read : Url.Host.parse naming host.toList = .ok found) (valid : ∀ digits, port = some digits → Url.IsPort digits)
    (baseSegments : ∀ s ∈ base, IsSegment s) (pathSegments : ∀ s ∈ path, IsSegment s) (nonempty : path ≠ []) :
    ∃ client url,
      ofAddress naming (Url.written scheme host port base ++ if closed then "/" else "") namespaceName kvVersion =
        .ok client ∧
      client.namespaceName = namespaceName ∧
      client.Reaches scheme found (Url.portNumber scheme port) base path (secretPath slashes path) url := by
  have made := client_made naming scheme host port base closed namespaceName kvVersion found web hosted read valid
    baseSegments
  have address := url_of_plain ⟨⟨scheme, some ⟨"", found, Url.portNumber scheme port⟩, .segments (base ++ [""]), none, none⟩,
    namespaceName, kvVersion⟩ base path slashes web rfl pathSegments nonempty
  refine ⟨_, _, made, rfl, address, rfl, ?_, fun token c => ?_, fun payload c => ?_⟩
  · have start : "://" = ":" ++ "//" := by decide
    simp only [Url.text, Url.guard, Option.elim, String.append_empty, start, String.append_assoc]
  · exact read_exchange _ _ token _ address c
  · exact post_exchange _ _ payload _ address c

theorem request_address_proxied :
    Url.IsWeb "https" ∧ Url.IsHostText "Vault.example.com".toList ∧
      Url.Host.parse Web.usual.naming "Vault.example.com".toList = .ok (.name "vault.example.com") ∧
      (∀ digits, some "8200".toList = some digits → Url.IsPort digits) ∧ (∀ s ∈ ["proxy", "team-a"], IsSegment s) ∧
      (∀ s ∈ ["secret", "app"], IsSegment s) ∧ ["secret", "app"] ≠ [] ∧
      ∃ client url,
        ofAddress Web.usual.naming "https://Vault.example.com:8200/proxy/team-a/" none .two = .ok client ∧
        client.urlOf "//secret/app" = .ok url ∧
        url.text = "https://vault.example.com:8200/proxy/team-a/v1/secret/app" := by
  have web : Url.IsWeb "https" := .inr rfl
  have hosted : Url.IsHostText "Vault.example.com".toList := by simp [Url.IsHostText, Url.isBarred]
  have read : Url.Host.parse Web.usual.naming "Vault.example.com".toList = .ok (.name "vault.example.com") := by decide
  have valid : ∀ digits, some "8200".toList = some digits → Url.IsPort digits := by
    rintro digits same
    obtain rfl := Option.some.inj same
    decide
  have base : ∀ s ∈ ["proxy", "team-a"], IsSegment s := by decide
  have path : ∀ s ∈ ["secret", "app"], IsSegment s := by decide
  obtain ⟨client, url, made, -, reaches⟩ := request_address Web.usual.naming "https" "Vault.example.com"
    (some "8200".toList) ["proxy", "team-a"] ["secret", "app"] true 2 none .two (.name "vault.example.com") web hosted
    read valid base path (by simp)
  have start : (Url.written "https" "Vault.example.com" (some "8200".toList) ["proxy", "team-a"] ++
      if true then "/" else "") = "https://Vault.example.com:8200/proxy/team-a/" := by decide
  have asked : secretPath 2 ["secret", "app"] = "//secret/app" := by decide
  refine ⟨web, hosted, read, valid, base, path, by simp, client, url, start ▸ made, asked ▸ reaches.address,
    reaches.text.trans ?_⟩
  decide

end ManifestSecrets.Client
