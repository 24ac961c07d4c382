import ManifestSecrets.Url.Host

set_option autoImplicit false

namespace ManifestSecrets.Url

def defaultPort? (scheme : String) : Option Nat :=
  match scheme with
  | "http" => some 80
  | "ws" => some 80
  | "https" => some 443
  | "wss" => some 443
  | "ftp" => some 21
  | _ => none

def isFile (scheme : String) : Bool := scheme == "file"

def isSpecial (scheme : String) : Bool := isFile scheme || (defaultPort? scheme).isSome

def isSlash (special : Bool) (c : Char) : Bool := c == '/' || (special && c == '\\')

def endsAuthority (special : Bool) (c : Char) : Bool := isSlash special c || c == '?' || c == '#'

def stripped (s : String) : List Char :=
  let isEdge (c : Char) : Bool := c.toNat ≤ 0x20
  let trimmed := ((s.toList.dropWhile isEdge).reverse.dropWhile isEdge).reverse
  trimmed.filter fun c => c != '\t' && c != '\n' && c != '\r'

def isSchemeChar (c : Char) : Bool := c.isAlphanum || c == '+' || c == '-' || c == '.'

def scheme? (cs : List Char) : Option (String × List Char) :=
  if !cs.head?.any Char.isAlpha then none
  else match cs.dropWhile isSchemeChar with
    | ':' :: rest => some (String.ofList ((cs.takeWhile isSchemeChar).map Char.toLower), rest)
    | _ => none

def splitCredentials (cs : List Char) : Option (List Char × List Char) :=
  let after := (cs.reverse.takeWhile (· != '@')).reverse
  if after.length < cs.length then some (cs.take (cs.length - after.length - 1), after) else none

def credentials (cs : List Char) : String :=
  let name := cs.takeWhile (· != ':')
  match cs.dropWhile (· != ':') with
  | ':' :: password =>
      encode inCredentialSet name ++ if password.isEmpty then "" else ":" ++ encode inCredentialSet password
  | _ => encode inCredentialSet name

def splitPort : Bool → List Char → List Char × Option (List Char)
  | _, [] => ([], none)
  | inside, c :: rest =>
      if c == ':' && !inside then ([], some rest)
      else
        let inside := if c == '[' then true else if c == ']' then false else inside
        let (host, port) := splitPort inside rest
        (c :: host, port)

def port? (usual : Option Nat) (cs : List Char) : Except Fault (Option Nat) :=
  let n := cs.foldl (fun n c => n * 10 + (c.toNat - 48)) 0
  if !cs.all Char.isDigit || 65535 < n then .error .port
  else if cs.isEmpty || usual == some n then .ok none
  else .ok (some n)

-- The authority in front of a path, and what is left of it for the path: outside the schemes of the web
-- a backslash ends a port. Where there are credentials there is a host, and so there is where an empty
-- name is followed by a path.
def authority? (naming : Naming) (scheme : String) (atEnd : Bool) (cs : List Char) : Except Fault (Authority × List Char) := do
  let special := isSpecial scheme
  let split := splitCredentials cs
  let (userinfo, rest) := split.getD ([], cs)
  let named := credentials userinfo != "" || (split.isSome && userinfo.isEmpty && !atEnd)
  let (host, port) := splitPort false rest
  if host.isEmpty && (special || port.isSome || named) then throw .emptyHost
  let host ← if special then Host.parse naming host else Host.parseOpaque host
  let digits := (port.getD []).takeWhile (· != '\\')
  let port ← port? (defaultPort? scheme) digits
  return (⟨credentials userinfo, host, port⟩, (splitPort false rest).2.elim [] (·.dropWhile (· != '\\')))

def isDot (s : String) : Bool := s == "." || s == "%2e" || s == "%2E"

def isDoubleDot (s : String) : Bool :=
  ["..", "%2e%2e", "%2e%2E", "%2E%2e", "%2E%2E", "%2e.", "%2E.", ".%2e", ".%2E"].contains s

def isDrive (s : String) : Bool :=
  match s.toList with
  | [letter, mark] => letter.isAlpha && (mark == ':' || mark == '|')
  | _ => false

-- A drive as the only segment of a file's path is not taken away.
def parent (file : Bool) (parts : List String) : List String :=
  match parts with
  | [only] => if file && isDrive only then parts else []
  | parts => parts.dropLast

def addSegment (file : Bool) (parts : List String) (s : String) : List String :=
  if file && parts.isEmpty && isDrive s then [String.ofList (s.toList.take 1) ++ ":"] else parts ++ [s]

-- Adds segments to those before them, of which dots take away; after a dot at the end stands an empty
-- segment.
def addSegments (file : Bool) (parts : List String) : List String → List String
  | [] => parts
  | s :: rest =>
      let parts :=
        if isDoubleDot s then parent file parts ++ (if rest.isEmpty then [""] else [])
        else if isDot s then parts ++ (if rest.isEmpty then [""] else [])
        else addSegment file parts s
      addSegments file parts rest

def splitWhere (p : Char → Bool) : List Char → List (List Char)
  | [] => [[]]
  | c :: rest =>
      if p c then [] :: splitWhere p rest
      else match splitWhere p rest with
        | first :: others => (c :: first) :: others
        | [] => [[c]]

def segmentsOf (special : Bool) (cs : List Char) : List String :=
  (splitWhere (isSlash special) cs).map (encode inPathSet)

def tidy (file : Bool) (parts : List String) : List String :=
  if file then
    match parts.dropWhile (· == "") with
    | [] => [""]
    | rest => rest
  else parts

def isPathEnd (c : Char) : Bool := c == '?' || c == '#'

def splitPath (special : Bool) (cs : List Char) : List Char × Option String × Option String :=
  let path := cs.takeWhile fun c => !isPathEnd c
  match cs.dropWhile fun c => !isPathEnd c with
  | '?' :: rest =>
      let query := rest.takeWhile (· != '#')
      let fragment := match rest.dropWhile (· != '#') with
        | '#' :: rest => some (encode inFragmentSet rest)
        | _ => none
      (path, some (encode (inQuerySet special) query), fragment)
  | '#' :: rest => (path, none, some (encode inFragmentSet rest))
  | _ => (path, none, none)

def rootedPath (scheme : String) (cs : List Char) : Path :=
  let special := isSpecial scheme
  let file := isFile scheme
  match cs with
  | c :: rest =>
      let inner := if isSlash special c then rest else c :: rest
      .segments (tidy file (addSegments file [] (segmentsOf special inner)))
  | [] => .segments (if special then [""] else [])

def afterSlashes (naming : Naming) (scheme : String) (cs : List Char) : Except Fault Url := do
  let special := isSpecial scheme
  let front := cs.takeWhile fun c => !endsAuthority special c
  let behind := cs.drop front.length
  let (authority, left) ← authority? naming scheme behind.isEmpty front
  let (path, query, fragment) := splitPath special (left ++ behind)
  return ⟨scheme, some authority, rootedPath scheme path, query, fragment⟩

def startsWithDrive : Path → Bool
  | .segments (first :: _) => isDrive first
  | _ => false

-- The address of a file: its host may be absent, the name of this machine is no host, and neither is
-- there one in front of a drive.
def fileUrl (naming : Naming) (cs : List Char) : Except Fault Url := do
  let (front, rest) := match cs with
    | a :: b :: rest =>
        if isSlash true a && isSlash true b then
          let front := rest.takeWhile fun c => !endsAuthority true c
          if isDrive (String.ofList front) then ([], rest) else (front, rest.drop front.length)
        else ([], cs)
    | cs => ([], cs)
  let (path, query, fragment) := splitPath true rest
  let host ← if front.isEmpty then .ok (.name "") else Host.parse naming front
  let path := rootedPath "file" path
  let host := if host == .name "localhost" || startsWithDrive path then .name "" else host
  return ⟨"file", some ⟨"", host, none⟩, path, query, fragment⟩

def withScheme (naming : Naming) (scheme : String) (cs : List Char) : Except Fault Url :=
  if isFile scheme then fileUrl naming cs
  else if isSpecial scheme then afterSlashes naming scheme (cs.dropWhile (isSlash true))
  else match cs with
    | '/' :: '/' :: rest => afterSlashes naming scheme rest
    | '/' :: _ =>
        let (path, query, fragment) := splitPath false cs
        .ok ⟨scheme, none, rootedPath scheme path, query, fragment⟩
    | cs =>
        let (path, query, fragment) := splitPath false cs
        .ok ⟨scheme, none, .opaquePath (encode nothing path), query, fragment⟩

def parse (naming : Naming) (s : String) : Except Fault Url :=
  match scheme? (stripped s) with
  | some (scheme, rest) => withScheme naming scheme rest
  | none => .error .noBase

def endsInSlash (u : Url) : Bool :=
  match u.path with
  | .opaquePath text => text.toList.getLast? == some '/'
  | .segments parts => parts.getLast? == some ""

-- The address with a slash at the end of its path, unless there is one. An opaque path that is empty
-- has the slash spelled by a percent sign.
def withSlash (u : Url) : Url :=
  if u.endsInSlash then u
  else match u.path with
    | .opaquePath text => { u with path := .opaquePath (if text = "" then "%2F" else text ++ "/") }
    | .segments parts => { u with path := .segments (parts ++ [""]) }

def join (u : Url) (relative : String) : Except Fault Url :=
  match u.path with
  | .opaquePath _ => .error .opaqueBase
  | .segments parts =>
      let special := isSpecial u.scheme
      let file := isFile u.scheme
      let (path, query, fragment) := splitPath special (stripped relative)
      .ok { u with
        path := .segments (tidy file (addSegments file parts.dropLast (segmentsOf special path))), query, fragment }

end ManifestSecrets.Url
