import ManifestSecrets.Shape.Decoder
import ManifestSecrets.Store.KvVersion

set_option autoImplicit false

namespace ManifestSecrets

inductive AuthMethod where
  | appRole
  | token
deriving DecidableEq, Repr, Inhabited

inductive LogFormat where
  | text
  | json
deriving DecidableEq, Repr, Inhabited

def lowerText (s : String) : String := String.ofList (s.toList.map Char.toLower)

namespace AuthMethod

def name : AuthMethod → String
  | .appRole => "approle"
  | .token => "token"

def names : List (String × AuthMethod) := [("approle", .appRole), ("token", .token)]

def ofText (s : String) : Except String AuthMethod :=
  let word := lowerText (Text.trim s)
  match KeyMap.find? word names with
  | some method => .ok method
  | none => .error ("unknown auth type '" ++ word ++ "', expected 'approle' or 'token'")

end AuthMethod

namespace LogFormat

def name : LogFormat → String
  | .text => "text"
  | .json => "json"

def names : List (String × LogFormat) := [("text", .text), ("json", .json)]

def ofText (s : String) : Except String LogFormat :=
  let word := lowerText (Text.trim s)
  match KeyMap.find? word (names ++ [("pretty", .text)]) with
  | some format => .ok format
  | none => .error ("unknown log format '" ++ word ++ "'")

end LogFormat

structure AuthSettings where
  method : AuthMethod := .appRole
  roleId : Option String := none
  secretId : Option String := none
  token : Option String := none
deriving DecidableEq, Repr, Inhabited

structure VaultSettings where
  address : Option String := none
  namespaceName : Option String := none
  pathPrefix : Option String := none
  kvVersion : KvVersion := .one
  timeoutSecs : UInt64 := 30
  auth : AuthSettings := {}
deriving DecidableEq, Repr, Inhabited

structure LogSettings where
  level : Option String := none
  format : LogFormat := .text
deriving DecidableEq, Repr, Inhabited

structure Settings where
  vault : VaultSettings := {}
  logging : LogSettings := {}
deriving DecidableEq, Repr, Inhabited

end ManifestSecrets
