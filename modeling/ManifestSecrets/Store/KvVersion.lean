import ManifestSecrets.Store.Error
import ManifestSecrets.Text.Classes

set_option autoImplicit false

namespace ManifestSecrets

inductive KvVersion where
  | one
  | two
deriving DecidableEq, Repr, Inhabited

namespace KvVersion

def number : KvVersion → Nat
  | .one => 1
  | .two => 2

def ofNumber (n : Nat) : Except StoreError KvVersion :=
  if n = 1 then .ok .one
  else if n = 2 then .ok .two
  else .error (.config ("unsupported KV version " ++ toString n ++ ", expected 1 or 2"))

def byte? (cs : List Char) : Option Nat :=
  let ds := match cs with
    | '+' :: rest => rest
    | cs => cs
  if ds.isEmpty || !ds.all Char.isDigit then none
  else
    let n := ds.foldl (fun n c => n * 10 + (c.toNat - 48)) 0
    if n < 256 then some n else none

def isVersionMark (c : Char) : Bool := c == 'v' || c == 'V'

def ofText (s : String) : Except StoreError KvVersion :=
  match byte? ((Text.trim s).toList.dropWhile isVersionMark) with
  | some n => ofNumber n
  | none => .error (.config ("invalid KV version '" ++ s ++ "'"))

end KvVersion

end ManifestSecrets
