import ManifestSecrets.Json.Basic
import ManifestSecrets.Text.Quoted

set_option autoImplicit false

namespace ManifestSecrets

inductive Yaml where
  | null
  | bool (value : Bool)
  | number (value : Number)
  | text (value : String)
  | sequence (items : List Yaml)
  | mapping (entries : List (Yaml × Yaml))
  | tagged (tag : String) (value : Yaml)
deriving Inhabited

namespace Yaml

def isNull : Yaml → Bool
  | .null => true
  | .tagged _ value => isNull value
  | _ => false

def boolText (b : Bool) : String := if b then "true" else "false"

def tagText (tag : String) : String :=
  match tag.toList with
  | '!' :: c :: rest => "!" ++ String.ofList (c :: rest)
  | _ => "!" ++ tag

mutual
def describe : Yaml → String
  | .null => "Null"
  | .bool b => "Bool(" ++ boolText b ++ ")"
  | .number n => "Number(" ++ n.write .yaml ++ ")"
  | .text s => "String(" ++ Text.quoted s ++ ")"
  | .sequence items => "Sequence [" ++ ", ".intercalate (describeItems items) ++ "]"
  | .mapping entries => "Mapping \x7b" ++ ", ".intercalate (describeEntries entries) ++ "\x7d"
  | .tagged tag value =>
      "TaggedValue \x7b tag: " ++ tagText tag ++ ", value: " ++ describe value ++ " \x7d"

def describeItems : List Yaml → List String
  | [] => []
  | item :: rest => describe item :: describeItems rest

def describeEntries : List (Yaml × Yaml) → List String
  | [] => []
  | (key, value) :: rest => (describeKey key ++ ": " ++ describe value) :: describeEntries rest

def describeKey : Yaml → String
  | .bool b => boolText b
  | .number n => n.write .yaml
  | .text s => Text.quoted s
  | .null => "Null"
  | .sequence items => "Sequence [" ++ ", ".intercalate (describeItems items) ++ "]"
  | .mapping entries => "Mapping \x7b" ++ ", ".intercalate (describeEntries entries) ++ "\x7d"
  | .tagged tag value =>
      "TaggedValue \x7b tag: " ++ tagText tag ++ ", value: " ++ describe value ++ " \x7d"
end

mutual
-- Equality of keys: numbers by value, mappings in any order of their entries.
def sameKey : Yaml → Yaml → Bool
  | .null, .null => true
  | .bool a, .bool b => a == b
  | .number a, .number b => a.sameValue b
  | .text a, .text b => a == b
  | .sequence a, .sequence b => sameItems a b
  | .mapping a, .mapping b => a.length == b.length && allIn a b
  | .tagged s a, .tagged t b => tagText s == tagText t && sameKey a b
  | _, _ => false

def sameItems : List Yaml → List Yaml → Bool
  | [], [] => true
  | a :: as, b :: bs => sameKey a b && sameItems as bs
  | _, _ => false

def allIn : List (Yaml × Yaml) → List (Yaml × Yaml) → Bool
  | [], _ => true
  | (key, value) :: rest, others => (others.any fun (k, v) => sameKey key k && sameKey value v) && allIn rest others
end

mutual
def ofJson : Json → Yaml
  | .null => .null
  | .bool b => .bool b
  | .number n => .number n
  | .text s => .text s
  | .array items => .sequence (itemsOfJson items)
  | .object fields => .mapping (entriesOfJson fields)

def itemsOfJson : List Json → List Yaml
  | [] => []
  | item :: rest => ofJson item :: itemsOfJson rest

def entriesOfJson : List (String × Json) → List (Yaml × Yaml)
  | [] => []
  | (key, value) :: rest => (.text key, ofJson value) :: entriesOfJson rest
end

end Yaml

end ManifestSecrets
