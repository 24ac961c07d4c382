import ManifestSecrets.Json.Basic
import ManifestSecrets.Text.Bytes

set_option autoImplicit false

namespace ManifestSecrets

inductive Tree where
  | mapping (entries : List (String × Tree))
  | sequence (items : List Tree)
  | text (value : String)
  | bytes (value : List UInt8)
  | null
  | bool (value : Bool)
  | number (value : Number)
deriving Inhabited

namespace Tree

def typeName : Tree → String
  | .mapping _ => "mapping"
  | .sequence _ => "sequence"
  | .text _ => "string"
  | .bytes _ => "bytes"
  | .null => "null"
  | .bool _ => "bool"
  | .number _ => "number"

mutual
def toJson : Tree → Json
  | .mapping entries => .object (entriesToJson entries)
  | .sequence items => .array (itemsToJson items)
  | .text s => .text s
  | .bytes b => .text (Text.Base64.encode b)
  | .null => .null
  | .bool b => .bool b
  | .number n => .number n

def itemsToJson : List Tree → List Json
  | [] => []
  | item :: rest => toJson item :: itemsToJson rest

def entriesToJson : List (String × Tree) → List (String × Json)
  | [] => []
  | (key, value) :: rest => (key, toJson value) :: entriesToJson rest
end

mutual
def ofJson : Json → Tree
  | .object fields => .mapping (entriesOfJson fields)
  | .array items => .sequence (itemsOfJson items)
  | .text s => .text s
  | .number n => .number n
  | .bool b => .bool b
  | .null => .null

def itemsOfJson : List Json → List Tree
  | [] => []
  | item :: rest => ofJson item :: itemsOfJson rest

def entriesOfJson : List (String × Json) → List (String × Tree)
  | [] => []
  | (key, value) :: rest => (key, ofJson value) :: entriesOfJson rest
end

mutual
theorem toJson_ofJson (value : Json) : toJson (ofJson value) = value := by
  cases value with
  | object fields => simp [ofJson, toJson, entriesToJson_entriesOfJson fields]
  | array items => simp [ofJson, toJson, itemsToJson_itemsOfJson items]
  | text s => rfl
  | number n => rfl
  | bool b => rfl
  | null => rfl

theorem itemsToJson_itemsOfJson (items : List Json) : itemsToJson (itemsOfJson items) = items := by
  cases items with
  | nil => rfl
  | cons item rest =>
    simp [itemsOfJson, itemsToJson, toJson_ofJson item, itemsToJson_itemsOfJson rest]

theorem entriesToJson_entriesOfJson (fields : List (String × Json)) :
    entriesToJson (entriesOfJson fields) = fields := by
  cases fields with
  | nil => rfl
  | cons head rest =>
    obtain ⟨key, value⟩ := head
    simp [entriesOfJson, entriesToJson, toJson_ofJson value, entriesToJson_entriesOfJson rest]
end

end Tree

end ManifestSecrets
