import ManifestSecrets.Text.Hex

set_option autoImplicit false

namespace ManifestSecrets

namespace Url

inductive Host where
  | name (text : String)
  | v4 (address : Nat)
  | v6 (pieces : List Nat)
deriving DecidableEq, Repr

structure Authority where
  credentials : String
  host : Host
  port : Option Nat
deriving DecidableEq, Repr

inductive Path where
  | opaquePath (text : String)
  | segments (parts : List String)
deriving DecidableEq, Repr

inductive Fault where
  | noBase
  | opaqueBase
  | emptyHost
  | hostName
  | hostCharacter
  | port
  | ipv4
  | ipv6
deriving DecidableEq, Repr

def Fault.message : Fault → String
  | .noBase => "relative URL without a base"
  | .opaqueBase => "relative URL with a cannot-be-a-base base"
  | .emptyHost => "empty host"
  | .hostName => "invalid international domain name"
  | .hostCharacter => "invalid domain character"
  | .port => "invalid port number"
  | .ipv4 => "invalid IPv4 address"
  | .ipv6 => "invalid IPv6 address"

end Url

structure Url where
  scheme : String
  authority : Option Url.Authority
  path : Url.Path
  query : Option String
  fragment : Option String
deriving DecidableEq, Repr

namespace Url

def byteAt (n place : Nat) : String := toString (n / Nat.pow 256 place % 256)

def v4Text (n : Nat) : String := ".".intercalate [byteAt n 3, byteAt n 2, byteAt n 1, byteAt n 0]

def zeroRun (pieces : List Nat) : Nat := (pieces.takeWhile (· == 0)).length

def pieceText (n : Nat) : String := Text.lowerHex (Text.hexWidth n) n

def longestRun : Nat → List Nat → Nat × Nat
  | _, [] => (0, 0)
  | start, piece :: rest =>
      let here := zeroRun (piece :: rest)
      let later := longestRun (start + 1) rest
      if later.2 ≤ here then (start, here) else later

-- A run of at least two zeros, the longest one, is left out.
def v6Text (pieces : List Nat) : String :=
  let (start, length) := longestRun 0 pieces
  if length < 2 then ":".intercalate (pieces.map pieceText)
  else ":".intercalate ((pieces.take start).map pieceText) ++ "::"
    ++ ":".intercalate ((pieces.drop (start + length)).map pieceText)

def Host.text : Host → String
  | .name text => text
  | .v4 address => v4Text address
  | .v6 pieces => "[" ++ v6Text pieces ++ "]"

def Authority.text (a : Authority) : String :=
  (if a.credentials = "" then "" else a.credentials ++ "@") ++ a.host.text
    ++ a.port.elim "" fun p => ":" ++ toString p

def Path.text : Path → String
  | .opaquePath text => text
  | .segments parts => String.join (parts.map fun part => "/" ++ part)

-- A mark that keeps the start of a path from being read as an authority.
def guard (u : Url) : String :=
  match u.authority, u.path with
  | none, .segments ("" :: _ :: _) => "/."
  | _, _ => ""

def text (u : Url) : String :=
  u.scheme ++ ":" ++ (u.authority.elim "" fun a => "//" ++ a.text) ++ u.guard ++ u.path.text
    ++ (u.query.elim "" fun q => "?" ++ q) ++ (u.fragment.elim "" fun f => "#" ++ f)

end Url

end ManifestSecrets
