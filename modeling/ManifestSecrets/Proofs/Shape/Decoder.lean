import ManifestSecrets.Proofs.KeyMap
import ManifestSecrets.Proofs.Text.Base64
import ManifestSecrets.Shape.ConfigMap
import ManifestSecrets.Shape.Secret

set_option autoImplicit false

namespace ManifestSecrets.Shape

namespace Decoder

variable {α β : Type}

theorem bytes_decoded (b : List UInt8) : bytes (bytesJson b) = .ok b := by
  simp only [bytes, bytesJson, Text.decode_encoded]

theorem entries_decoded (d : Decoder β) (write : β → Json) (decodes : ∀ b, d (write b) = .ok b)
    (stored : KeyMap β) : entries d (KeyMap.mapValues write stored) = .ok stored := by
  induction stored with
  | nil => rfl
  | cons head rest ih =>
    obtain ⟨key, value⟩ := head
    rw [KeyMap.map_values_cons, entries, decodes, ih]
    rfl

theorem field_absent (fields : KeyMap Json) (name : String) (d : Decoder α)
    (absent : KeyMap.find? name fields = none) : field? fields name d = .ok none := by
  rw [field?, absent]

theorem field_present (fields : KeyMap Json) (name : String) (d : Decoder α) (value : Json) (decoded : α)
    (here : KeyMap.find? name fields = some value) (decodes : d value = .ok decoded) :
    field? fields name d = .ok (some decoded) := by
  rw [field?, here]
  simp only [decodes, Except.map]

theorem field_map (fields : KeyMap Json) (name : String) (d : Decoder β) (write : β → Json)
    (decodes : ∀ b, d (write b) = .ok b) (stored : KeyMap β)
    (held : KeyMap.HoldsMap .object fields name (KeyMap.mapValues write stored)) :
    ∃ found, field? fields name (map d) = .ok found ∧ found.getD [] = stored := by
  rcases held with here | ⟨absent, empty⟩
  · exact ⟨some stored, field_present fields name _ _ stored here (entries_decoded d write decodes stored), rfl⟩
  · refine ⟨none, field_absent fields name _ absent, ?_⟩
    exact (List.map_eq_nil_iff.mp empty).symm

end Decoder

section Written

variable {α : Type}

theorem map_field_cons (name : String) (write : α → Json) (entry : String × α) (rest : KeyMap α) :
    mapField name write (entry :: rest) = [(name, .object (KeyMap.mapValues write (entry :: rest)))] := by
  simp only [mapField, KeyMap.mapValues]

theorem find_map_field (name : String) (write : α → Json) (stored : KeyMap α) (back : KeyMap Json)
    (absent : KeyMap.find? name back = none) :
    KeyMap.HoldsMap .object (mapField name write stored ++ back) name (KeyMap.mapValues write stored) := by
  cases stored with
  | nil => exact .inr ⟨absent, rfl⟩
  | cons entry rest =>
    refine .inl ?_
    rw [map_field_cons, List.cons_append, KeyMap.find?, if_pos rfl]

theorem find_map_field_other (name other : String) (write : α → Json) (stored : KeyMap α) (different : other ≠ name) :
    KeyMap.find? other (mapField name write stored) = none := by
  cases stored with
  | nil => rfl
  | cons entry rest => rw [map_field_cons, KeyMap.find?, if_neg different, KeyMap.find?]

theorem find_field_other (name other : String) (value : Option Json) (different : other ≠ name) :
    KeyMap.find? other (field name value) = none := by
  cases value with
  | none => rfl
  | some v => rw [field, KeyMap.find?, if_neg different, KeyMap.find?]

end Written

open Decoder

namespace Secret

def optionals : List String := ["metadata", "type", "immutable"]

def ofPayload (apiVersion kind : String) (data : KeyMap (List UInt8)) (stringData : KeyMap String) : Secret :=
  { apiVersion, kind, metadata := {}, data, stringData, type := none, immutable := none }

theorem payload_decoded (fields : KeyMap Json) (apiVersion kind : String) (data : KeyMap (List UInt8))
    (stringData : KeyMap String) (version : KeyMap.find? "apiVersion" fields = some (.text apiVersion))
    (declared : KeyMap.find? "kind" fields = some (.text kind))
    (others : ∀ name ∈ optionals, KeyMap.find? name fields = none)
    (bytesHeld : KeyMap.HoldsMap .object fields "data" (KeyMap.mapValues bytesJson data))
    (textsHeld : KeyMap.HoldsMap .object fields "stringData" (KeyMap.mapValues .text stringData)) :
    decode (.object fields) = .ok (ofPayload apiVersion kind data stringData) := by
  have versionRead := field_present fields "apiVersion" text _ apiVersion version rfl
  have kindRead := field_present fields "kind" text _ kind declared rfl
  obtain ⟨foundBytes, bytesRead, sameBytes⟩ := field_map fields "data" bytes bytesJson bytes_decoded data bytesHeld
  obtain ⟨foundTexts, textsRead, sameTexts⟩ :=
    field_map fields "stringData" text .text (fun _ => rfl) stringData textsHeld
  have metadataRead := field_absent fields "metadata" Metadata.decode (others _ (by simp [optionals]))
  have typeRead := field_absent fields "type" (optional text) (others _ (by simp [optionals]))
  have immutableRead := field_absent fields "immutable" (optional bool) (others _ (by simp [optionals]))
  simp only [decode, versionRead, bytesRead, immutableRead, kindRead, metadataRead, textsRead, typeRead, required,
    bind, Except.bind, pure, Except.pure, Option.getD_none, Option.join_none, sameBytes, sameTexts, ofPayload]

theorem payload_written (s : Secret) :
    ∃ fields, s.written = .object fields ∧ KeyMap.HoldsMap .object fields "data" (KeyMap.mapValues bytesJson s.data) ∧
      KeyMap.HoldsMap .object fields "stringData" (KeyMap.mapValues .text s.stringData) := by
  refine ⟨_, rfl, ?_, ?_⟩
  · simp only [List.append_assoc]
    refine KeyMap.holds_map_append _ _ _ _ _ (by simp [KeyMap.find?]) (find_map_field _ _ _ _ ?_)
    rw [KeyMap.find_append _ _ _ (find_map_field_other _ _ _ _ (by decide)),
      KeyMap.find_append _ _ _ (find_field_other _ _ _ (by decide)), find_field_other _ _ _ (by decide)]
  · simp only [List.append_assoc]
    refine KeyMap.holds_map_append _ _ _ _ _ (by simp [KeyMap.find?]) ?_
    refine KeyMap.holds_map_append _ _ _ _ _ (find_map_field_other _ _ _ _ (by decide)) (find_map_field _ _ _ _ ?_)
    rw [KeyMap.find_append _ _ _ (find_field_other _ _ _ (by decide)), find_field_other _ _ _ (by decide)]

end Secret

namespace ConfigMap

def optionals : List String := ["metadata", "binaryData", "immutable"]

def ofPayload (apiVersion kind : String) (data : KeyMap String) : ConfigMap :=
  { apiVersion, kind, metadata := {}, data, binaryData := [], immutable := none }

theorem payload_decoded (fields : KeyMap Json) (apiVersion kind : String) (data : KeyMap String)
    (version : KeyMap.find? "apiVersion" fields = some (.text apiVersion))
    (declared : KeyMap.find? "kind" fields = some (.text kind))
    (others : ∀ name ∈ optionals, KeyMap.find? name fields = none)
    (textsHeld : KeyMap.HoldsMap .object fields "data" (KeyMap.mapValues .text data)) :
    decode (.object fields) = .ok (ofPayload apiVersion kind data) := by
  have versionRead := field_present fields "apiVersion" text _ apiVersion version rfl
  have kindRead := field_present fields "kind" text _ kind declared rfl
  obtain ⟨found, textsRead, same⟩ := field_map fields "data" text .text (fun _ => rfl) data textsHeld
  have metadataRead := field_absent fields "metadata" Metadata.decode (others _ (by simp [optionals]))
  have bytesRead := field_absent fields "binaryData" (map bytes) (others _ (by simp [optionals]))
  have immutableRead := field_absent fields "immutable" (optional bool) (others _ (by simp [optionals]))
  simp only [decode, versionRead, bytesRead, immutableRead, kindRead, metadataRead, textsRead, required,
    bind, Except.bind, pure, Except.pure, Option.getD_none, Option.join_none, same, ofPayload]

theorem payload_written (c : ConfigMap) :
    ∃ fields, c.written = .object fields ∧ KeyMap.HoldsMap .object fields "data" (KeyMap.mapValues .text c.data) := by
  refine ⟨_, rfl, ?_⟩
  simp only [List.append_assoc]
  refine KeyMap.holds_map_append _ _ _ _ _ (by simp [KeyMap.find?]) (find_map_field _ _ _ _ ?_)
  rw [KeyMap.find_append _ _ _ (find_map_field_other _ _ _ _ (by decide)), find_field_other _ _ _ (by decide)]

end ConfigMap

end ManifestSecrets.Shape
