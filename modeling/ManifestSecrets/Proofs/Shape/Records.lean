import ManifestSecrets.Proofs.Shape.Slots
import ManifestSecrets.Template

set_option autoImplicit false

namespace ManifestSecrets.Shape

open Decoder

section Reading

variable {α β : Type}

def fetch (source : Option Json) (d : Decoder α) : Except Mismatch (Option α) :=
  match source with
  | some v => (d v).map some
  | none => .ok none

theorem fetch_field (found : KeyMap Json) (name : String) (d : Decoder α) :
    field? found name d = fetch (KeyMap.find? name found) d :=
  rfl

theorem required_ok_iff (name : String) (o : Option α) (a : α) : required name o = .ok a ↔ o = some a := by
  cases o <;> simp [required]

theorem reads_required_iff (source : Option Json) (d : Decoder α) (write : α → Json) (a : α) :
    (Codec.required d write).Reads source a ↔ fetch source d = .ok (some a) := by
  cases source with
  | none => simp [Codec.Reads, Codec.required, fetch]
  | some v => cases decoded : d v <;> simp [Codec.Reads, Codec.required, fetch, decoded, Except.map]

theorem reads_optional_iff (source : Option Json) (d : Decoder α) (write : α → Json) (o : Option α) :
    (Codec.optional d write).Reads source o ↔ ∃ read, fetch source (optional d) = .ok read ∧ read.join = o := by
  cases source with
  | none => simp [Codec.Reads, Codec.optional, fetch]
  | some v => cases decoded : optional d v <;> simp [Codec.Reads, Codec.optional, fetch, decoded, Except.map]

theorem reads_absent_iff (c : Codec α) (value : α) (absent : c.absent = some value) (source : Option Json) (a : α) :
    c.Reads source a ↔ ∃ read, fetch source c.decode = .ok read ∧ read.getD value = a := by
  cases source with
  | none => simp [Codec.Reads, fetch, absent]
  | some v => cases decoded : c.decode v <;> simp [Codec.Reads, fetch, decoded, Except.map]

theorem reads_entries_iff (source : Option Json) (d : Decoder α) (write : α → Json) (m : KeyMap α) :
    (Codec.entries d write).Reads source m ↔ ∃ read, fetch source (map d) = .ok read ∧ read.getD [] = m :=
  reads_absent_iff _ [] rfl source m

theorem reads_items_iff (source : Option Json) (m : List Json) :
    Codec.items.Reads source m ↔ ∃ read, fetch source list = .ok read ∧ read.getD [] = m :=
  reads_absent_iff _ [] rfl source m

theorem reads_defaulted_iff (source : Option Json) (d : Decoder α) (write : α → Json) (value a : α) :
    (Codec.defaulted d write value).Reads source a ↔ ∃ read, fetch source d = .ok read ∧ read.getD value = a :=
  reads_absent_iff _ value rfl source a

theorem next_some_cons (d : Decoder α) (v : Json) (later : List Json) :
    (next? d).run (v :: later) = (d v).map fun a => (some a, later) := by
  change (d v).map (fun a => (a, later)) >>= _ = _
  cases d v <;> rfl

theorem next_cons (index : Nat) (expected : String) (d : Decoder α) (v : Json) (later : List Json) :
    (next index expected d).run (v :: later) = (d v).map fun a => (a, later) := by
  rw [next, StateT.run_bind, next_some_cons]
  cases d v <;> rfl

theorem next_some_ok_iff (d : Decoder α) (items rest : List Json) (o : Option α) :
    (next? d).run items = .ok (o, rest) ↔ fetch items.head? d = .ok o ∧ items.tail = rest := by
  cases items with
  | nil =>
    change Except.ok (none, []) = Except.ok (o, rest) ↔ _
    simp [fetch]
  | cons v later =>
    rw [next_some_cons]
    cases decoded : d v <;> simp [fetch, decoded, Except.map]

theorem next_ok_iff (index : Nat) (expected : String) (d : Decoder α) (items rest : List Json) (a : α) :
    (next index expected d).run items = .ok (a, rest) ↔ fetch items.head? d = .ok (some a) ∧ items.tail = rest := by
  cases items with
  | nil =>
    change Except.error (Mismatch.tooFew index expected) = Except.ok (a, rest) ↔ _
    simp [fetch]
  | cons v later =>
    rw [next_cons]
    cases decoded : d v <;> simp [fetch, decoded, Except.map]

theorem positions_ok (read : Positional α) (items : List Json) (a : α) (ok : positions read items = .ok a) :
    ∃ rest, read.run items = .ok (a, rest) := by
  obtain ⟨⟨found, rest⟩, ran, ok⟩ := bind_ok ok
  cases rest with
  | nil =>
    obtain rfl := Except.ok.inj ok
    exact ⟨[], ran⟩
  | cons item later => simp [throw, throwThe, MonadExceptOf.throw] at ok

theorem map_field_entries (name : String) (d : Decoder α) (write : α → Json) (m : KeyMap α) :
    mapField name write m = field name ((Codec.entries d write).write m) := by
  cases m <;> rfl

end Reading

namespace Metadata

def slots : List (Slot Metadata) :=
  [⟨_, "name", .optional text .text, .whole, name⟩, ⟨_, "namespace", .optional text .text, .whole, namespaceName⟩,
    ⟨_, "labels", .entries text .text, .whole, labels⟩, ⟨_, "annotations", .entries text .text, .whole, annotations⟩]

def outline : Outline := .record (Slot.outlines slots) true

theorem described : Described decode written slots true others where
  distinct := by decide
  lawful := by
    have texts := Codec.verbatim_lawful _ Exact.text.optional_verbatim
    have maps := Codec.verbatim_lawful _ Exact.text.entries_verbatim
    simp only [slots, List.forall_mem_cons]
    exact ⟨texts, texts, maps, maps, List.forall_mem_nil _⟩
  container v r ok := by
    cases v with
    | object found => exact .inl ⟨found, rfl⟩
    | _ => simp [decode] at ok
  object found m := by
    obtain ⟨name, namespaceName, labels, annotations, others⟩ := m
    simp only [decode, bind_ok_iff, fetch_field, Slot.Read, slots, List.forall_mem_cons, reads_optional_iff,
      reads_entries_iff]
    constructor
    · rintro ⟨a, aRead, l, lRead, n, nRead, s, sRead, ok⟩
      obtain ⟨rfl, rfl, rfl, rfl, rfl⟩ := mk.inj (Except.ok.inj ok)
      exact ⟨⟨⟨n, nRead, rfl⟩, ⟨s, sRead, rfl⟩, ⟨l, lRead, rfl⟩, ⟨a, aRead, rfl⟩, List.forall_mem_nil _⟩, rfl⟩
    · rintro ⟨⟨⟨n, nRead, rfl⟩, ⟨s, sRead, rfl⟩, ⟨l, lRead, rfl⟩, ⟨a, aRead, rfl⟩, -⟩, rfl⟩
      exact ⟨a, aRead, l, lRead, n, nRead, s, sRead, rfl⟩
  array items m ok := by simp [decode] at ok
  written m := by
    simp only [written, Slot.fields, slots, List.flatMap_cons, List.flatMap_nil, Slot.written, map_field_entries _ text,
      List.append_assoc, List.nil_append]
    rfl

end Metadata

namespace LabelSelector

def slots : List (Slot LabelSelector) :=
  [⟨_, "matchLabels", .entries text .text, .whole, matchLabels⟩,
    ⟨_, "matchExpressions", .items, .whole, matchExpressions⟩]

def outline : Outline := .record (Slot.outlines slots) false

theorem described : Described decode written slots false (fun _ => []) where
  distinct := by decide
  lawful := by
    simp only [slots, List.forall_mem_cons]
    exact ⟨Codec.verbatim_lawful _ Exact.text.entries_verbatim, Codec.verbatim_lawful _ Exact.items_verbatim,
      List.forall_mem_nil _⟩
  container v r ok := by
    cases v with
    | object found => exact .inl ⟨found, rfl⟩
    | array items => exact .inr ⟨items, rfl⟩
    | _ => simp [decode] at ok
  object found r := by
    obtain ⟨matchLabels, matchExpressions⟩ := r
    simp only [decode, bind_ok_iff, fetch_field, Slot.Read, slots, List.forall_mem_cons, reads_items_iff,
      reads_entries_iff]
    constructor
    · rintro ⟨e, eRead, l, lRead, ok⟩
      obtain ⟨rfl, rfl⟩ := mk.inj (Except.ok.inj ok)
      exact ⟨⟨⟨l, lRead, rfl⟩, ⟨e, eRead, rfl⟩, List.forall_mem_nil _⟩, rfl⟩
    · rintro ⟨⟨⟨l, lRead, rfl⟩, ⟨e, eRead, rfl⟩, -⟩, -⟩
      exact ⟨e, eRead, l, lRead, rfl⟩
  array items r ok := by
    obtain ⟨rest, ok⟩ := positions_ok _ items r ok
    simp only [ofPositions, StateT.run_bind, bind_ok_iff, Prod.exists, next_some_ok_iff] at ok
    obtain ⟨l, _, ⟨lRead, rfl⟩, e, _, ⟨eRead, rfl⟩, ok⟩ := ok
    obtain ⟨rfl, rfl⟩ := Prod.mk.inj (Except.ok.inj ok)
    exact ⟨rfl, rfl, (reads_entries_iff _ _ _ _).mpr ⟨l, lRead, rfl⟩, (reads_items_iff _ _).mpr ⟨e, eRead, rfl⟩,
      trivial⟩
  written r := by
    simp only [written, Slot.fields, slots, List.flatMap_cons, List.flatMap_nil, Slot.written, map_field_entries _ text,
      List.append_nil]
    rfl

end LabelSelector

namespace PodTemplate

def slots : List (Slot PodTemplate) :=
  [⟨_, "metadata", .optional Metadata.decode Metadata.written, Metadata.outline, metadata⟩,
    ⟨_, "spec", .optional value id, .whole, spec⟩]

def outline : Outline := .record (Slot.outlines slots) false

theorem described : Described decode written slots false (fun _ => []) where
  distinct := by decide
  lawful := by
    simp only [slots, List.forall_mem_cons]
    exact ⟨Metadata.described.faithful.optional_lawful, Codec.verbatim_lawful _ Exact.value.optional_verbatim,
      List.forall_mem_nil _⟩
  container v r ok := by
    cases v with
    | object found => exact .inl ⟨found, rfl⟩
    | array items => exact .inr ⟨items, rfl⟩
    | _ => simp [decode] at ok
  object found r := by
    obtain ⟨metadata, spec⟩ := r
    simp only [decode, bind_ok_iff, fetch_field, Slot.Read, slots, List.forall_mem_cons, reads_optional_iff]
    constructor
    · rintro ⟨m, mRead, s, sRead, ok⟩
      obtain ⟨rfl, rfl⟩ := mk.inj (Except.ok.inj ok)
      exact ⟨⟨⟨m, mRead, rfl⟩, ⟨s, sRead, rfl⟩, List.forall_mem_nil _⟩, rfl⟩
    · rintro ⟨⟨⟨m, mRead, rfl⟩, ⟨s, sRead, rfl⟩, -⟩, -⟩
      exact ⟨m, mRead, s, sRead, rfl⟩
  array items r ok := by
    obtain ⟨rest, ok⟩ := positions_ok _ items r ok
    simp only [ofPositions, StateT.run_bind, bind_ok_iff, Prod.exists, next_some_ok_iff] at ok
    obtain ⟨m, _, ⟨mRead, rfl⟩, s, _, ⟨sRead, rfl⟩, ok⟩ := ok
    obtain ⟨rfl, rfl⟩ := Prod.mk.inj (Except.ok.inj ok)
    exact ⟨rfl, rfl, (reads_optional_iff _ _ _ _).mpr ⟨m, mRead, rfl⟩,
      (reads_optional_iff _ _ _ _).mpr ⟨s, sRead, rfl⟩, trivial⟩
  written r := by
    simp only [written, Slot.fields, slots, List.flatMap_cons, List.flatMap_nil, Slot.written, List.append_nil]
    simp [Codec.optional]

end PodTemplate

namespace DeploymentSpec

def slots : List (Slot DeploymentSpec) :=
  [⟨_, "replicas", .optional replicaCount fun n => .number (.integer n), .whole, replicas⟩,
    ⟨_, "selector", .required LabelSelector.decode LabelSelector.written, LabelSelector.outline, selector⟩,
    ⟨_, "template", .required PodTemplate.decode PodTemplate.written, PodTemplate.outline, template⟩]

def outline : Outline := .record (Slot.outlines slots) true

theorem described : Described decode written slots true others where
  distinct := by decide
  lawful := by
    simp only [slots, List.forall_mem_cons]
    exact ⟨Codec.verbatim_lawful _ (Exact.integer _ _ _).optional_verbatim,
      LabelSelector.described.faithful.required_lawful, PodTemplate.described.faithful.required_lawful,
      List.forall_mem_nil _⟩
  container v r ok := by
    cases v with
    | object found => exact .inl ⟨found, rfl⟩
    | _ => simp [decode] at ok
  object found r := by
    obtain ⟨replicas, selector, template, others⟩ := r
    simp only [decode, bind_ok_iff, fetch_field, Slot.Read, slots, List.forall_mem_cons, reads_optional_iff,
      reads_required_iff, required_ok_iff]
    constructor
    · rintro ⟨r, rRead, _, sRead, _, tRead, s, rfl, t, rfl, ok⟩
      obtain ⟨rfl, rfl, rfl, rfl⟩ := mk.inj (Except.ok.inj ok)
      exact ⟨⟨⟨r, rRead, rfl⟩, sRead, tRead, List.forall_mem_nil _⟩, rfl⟩
    · rintro ⟨⟨⟨r, rRead, rfl⟩, sRead, tRead, -⟩, rfl⟩
      exact ⟨r, rRead, _, sRead, _, tRead, _, rfl, _, rfl, rfl⟩
  array items r ok := by simp [decode] at ok
  written r := by
    simp only [written, Slot.fields, slots, List.flatMap_cons, List.flatMap_nil, Slot.written, List.append_assoc]
    rfl

end DeploymentSpec

theorem Metadata.defaulted_lawful :
    (Codec.defaulted Metadata.decode Metadata.written {}).Lawful Metadata.outline :=
  Metadata.described.faithful.defaulted_lawful {} rfl rfl

namespace Deployment

def slots : List (Slot Deployment) :=
  [⟨_, "apiVersion", .required text .text, .whole, apiVersion⟩, ⟨_, "kind", .required text .text, .whole, kind⟩,
    ⟨_, "metadata", .defaulted Metadata.decode Metadata.written {}, Metadata.outline, metadata⟩,
    ⟨_, "spec", .required DeploymentSpec.decode DeploymentSpec.written, DeploymentSpec.outline, spec⟩,
    ⟨_, "status", .optional value id, .whole, status⟩]

def outline : Outline := .record (Slot.outlines slots) false

theorem described : Described decode written slots false (fun _ => []) where
  distinct := by decide
  lawful := by
    have texts := Codec.verbatim_lawful _ Exact.text.required_verbatim
    simp only [slots, List.forall_mem_cons]
    exact ⟨texts, texts, Metadata.defaulted_lawful, DeploymentSpec.described.faithful.required_lawful,
      Codec.verbatim_lawful _ Exact.value.optional_verbatim, List.forall_mem_nil _⟩
  container v r ok := by
    cases v with
    | object found => exact .inl ⟨found, rfl⟩
    | array items => exact .inr ⟨items, rfl⟩
    | _ => simp [decode] at ok
  object found r := by
    obtain ⟨apiVersion, kind, metadata, spec, status⟩ := r
    simp only [decode, bind_ok_iff, fetch_field, Slot.Read, slots, List.forall_mem_cons, reads_optional_iff,
      reads_required_iff, reads_defaulted_iff, required_ok_iff]
    constructor
    · rintro ⟨_, aRead, _, kRead, m, mRead, _, sRead, t, tRead, a, rfl, k, rfl, s, rfl, ok⟩
      obtain ⟨rfl, rfl, rfl, rfl, rfl⟩ := mk.inj (Except.ok.inj ok)
      exact ⟨⟨aRead, kRead, ⟨m, mRead, rfl⟩, sRead, ⟨t, tRead, rfl⟩, List.forall_mem_nil _⟩, rfl⟩
    · rintro ⟨⟨aRead, kRead, ⟨m, mRead, rfl⟩, sRead, ⟨t, tRead, rfl⟩, -⟩, -⟩
      exact ⟨_, aRead, _, kRead, m, mRead, _, sRead, t, tRead, _, rfl, _, rfl, _, rfl, rfl⟩
  array items r ok := by
    obtain ⟨rest, ok⟩ := positions_ok _ items r ok
    simp only [ofPositions, StateT.run_bind, bind_ok_iff, Prod.exists, next_some_ok_iff, next_ok_iff] at ok
    obtain ⟨a, _, ⟨aRead, rfl⟩, k, _, ⟨kRead, rfl⟩, m, _, ⟨mRead, rfl⟩, s, _, ⟨sRead, rfl⟩, t, _, ⟨tRead, rfl⟩,
      ok⟩ := ok
    obtain ⟨rfl, rfl⟩ := Prod.mk.inj (Except.ok.inj ok)
    exact ⟨rfl, rfl, (reads_required_iff _ _ _ _).mpr aRead, (reads_required_iff _ _ _ _).mpr kRead,
      (reads_defaulted_iff _ _ _ _ _).mpr ⟨m, mRead, rfl⟩, (reads_required_iff _ _ _ _).mpr sRead,
      (reads_optional_iff _ _ _ _).mpr ⟨t, tRead, rfl⟩, trivial⟩
  written r := by
    simp only [written, Slot.fields, slots, List.flatMap_cons, List.flatMap_nil, Slot.written, List.append_nil]
    simp [Codec.optional, Codec.required, Codec.defaulted, field]

end Deployment

namespace Secret

def slots : List (Slot Secret) :=
  [⟨_, "apiVersion", .required text .text, .whole, apiVersion⟩, ⟨_, "kind", .required text .text, .whole, kind⟩,
    ⟨_, "metadata", .defaulted Metadata.decode Metadata.written {}, Metadata.outline, metadata⟩,
    ⟨_, "data", .entries bytes bytesJson, .whole, data⟩, ⟨_, "stringData", .entries text .text, .whole, stringData⟩,
    ⟨_, "type", .optional text .text, .whole, type⟩, ⟨_, "immutable", .optional bool .bool, .whole, immutable⟩]

def outline : Outline := .record (Slot.outlines slots) false

theorem described : Described decode written slots false (fun _ => []) where
  distinct := by decide
  lawful := by
    have texts := Codec.verbatim_lawful _ Exact.text.required_verbatim
    simp only [slots, List.forall_mem_cons]
    exact ⟨texts, texts, Metadata.defaulted_lawful, Codec.verbatim_lawful _ Exact.bytes.entries_verbatim,
      Codec.verbatim_lawful _ Exact.text.entries_verbatim, Codec.verbatim_lawful _ Exact.text.optional_verbatim,
      Codec.verbatim_lawful _ Exact.bool.optional_verbatim, List.forall_mem_nil _⟩
  container v r ok := by
    cases v with
    | object found => exact .inl ⟨found, rfl⟩
    | array items => exact .inr ⟨items, rfl⟩
    | _ => simp [decode] at ok
  object found r := by
    obtain ⟨apiVersion, kind, metadata, data, stringData, type, immutable⟩ := r
    simp only [decode, bind_ok_iff, fetch_field, Slot.Read, slots, List.forall_mem_cons, reads_optional_iff,
      reads_required_iff, reads_defaulted_iff, reads_entries_iff, required_ok_iff]
    constructor
    · rintro ⟨_, aRead, d, dRead, i, iRead, _, kRead, m, mRead, s, sRead, t, tRead, a, rfl, k, rfl, ok⟩
      obtain ⟨rfl, rfl, rfl, rfl, rfl, rfl, rfl⟩ := mk.inj (Except.ok.inj ok)
      exact ⟨⟨aRead, kRead, ⟨m, mRead, rfl⟩, ⟨d, dRead, rfl⟩, ⟨s, sRead, rfl⟩, ⟨t, tRead, rfl⟩, ⟨i, iRead, rfl⟩,
        List.forall_mem_nil _⟩, rfl⟩
    · rintro ⟨⟨aRead, kRead, ⟨m, mRead, rfl⟩, ⟨d, dRead, rfl⟩, ⟨s, sRead, rfl⟩, ⟨t, tRead, rfl⟩, ⟨i, iRead, rfl⟩, -⟩, -⟩
      exact ⟨_, aRead, d, dRead, i, iRead, _, kRead, m, mRead, s, sRead, t, tRead, _, rfl, _, rfl, rfl⟩
  array items r ok := by
    obtain ⟨rest, ok⟩ := positions_ok _ items r ok
    simp only [ofPositions, StateT.run_bind, bind_ok_iff, Prod.exists, next_some_ok_iff, next_ok_iff] at ok
    obtain ⟨a, _, ⟨aRead, rfl⟩, k, _, ⟨kRead, rfl⟩, m, _, ⟨mRead, rfl⟩, d, _, ⟨dRead, rfl⟩, s, _, ⟨sRead, rfl⟩, t, _,
      ⟨tRead, rfl⟩, i, _, ⟨iRead, rfl⟩, ok⟩ := ok
    obtain ⟨rfl, rfl⟩ := Prod.mk.inj (Except.ok.inj ok)
    exact ⟨rfl, rfl, (reads_required_iff _ _ _ _).mpr aRead, (reads_required_iff _ _ _ _).mpr kRead,
      (reads_defaulted_iff _ _ _ _ _).mpr ⟨m, mRead, rfl⟩, (reads_entries_iff _ _ _ _).mpr ⟨d, dRead, rfl⟩,
      (reads_entries_iff _ _ _ _).mpr ⟨s, sRead, rfl⟩, (reads_optional_iff _ _ _ _).mpr ⟨t, tRead, rfl⟩,
      (reads_optional_iff _ _ _ _).mpr ⟨i, iRead, rfl⟩, trivial⟩
  written r := by
    simp only [written, Slot.fields, slots, List.flatMap_cons, List.flatMap_nil, Slot.written, List.append_nil]
    simp [Codec.optional, Codec.required, Codec.defaulted, field, map_field_entries _ text, map_field_entries _ bytes]

end Secret

namespace ConfigMap

def slots : List (Slot ConfigMap) :=
  [⟨_, "apiVersion", .required text .text, .whole, apiVersion⟩, ⟨_, "kind", .required text .text, .whole, kind⟩,
    ⟨_, "metadata", .defaulted Metadata.decode Metadata.written {}, Metadata.outline, metadata⟩,
    ⟨_, "data", .entries text .text, .whole, data⟩, ⟨_, "binaryData", .entries bytes bytesJson, .whole, binaryData⟩,
    ⟨_, "immutable", .optional bool .bool, .whole, immutable⟩]

def outline : Outline := .record (Slot.outlines slots) false

theorem described : Described decode written slots false (fun _ => []) where
  distinct := by decide
  lawful := by
    have texts := Codec.verbatim_lawful _ Exact.text.required_verbatim
    simp only [slots, List.forall_mem_cons]
    exact ⟨texts, texts, Metadata.defaulted_lawful, Codec.verbatim_lawful _ Exact.text.entries_verbatim,
      Codec.verbatim_lawful _ Exact.bytes.entries_verbatim, Codec.verbatim_lawful _ Exact.bool.optional_verbatim,
      List.forall_mem_nil _⟩
  container v r ok := by
    cases v with
    | object found => exact .inl ⟨found, rfl⟩
    | array items => exact .inr ⟨items, rfl⟩
    | _ => simp [decode] at ok
  object found r := by
    obtain ⟨apiVersion, kind, metadata, data, binaryData, immutable⟩ := r
    simp only [decode, bind_ok_iff, fetch_field, Slot.Read, slots, List.forall_mem_cons, reads_optional_iff,
      reads_required_iff, reads_defaulted_iff, reads_entries_iff, required_ok_iff]
    constructor
    · rintro ⟨_, aRead, b, bRead, d, dRead, i, iRead, _, kRead, m, mRead, a, rfl, k, rfl, ok⟩
      obtain ⟨rfl, rfl, rfl, rfl, rfl, rfl⟩ := mk.inj (Except.ok.inj ok)
      exact ⟨⟨aRead, kRead, ⟨m, mRead, rfl⟩, ⟨d, dRead, rfl⟩, ⟨b, bRead, rfl⟩, ⟨i, iRead, rfl⟩, List.forall_mem_nil _⟩, rfl⟩
    · rintro ⟨⟨aRead, kRead, ⟨m, mRead, rfl⟩, ⟨d, dRead, rfl⟩, ⟨b, bRead, rfl⟩, ⟨i, iRead, rfl⟩, -⟩, -⟩
      exact ⟨_, aRead, b, bRead, d, dRead, i, iRead, _, kRead, m, mRead, _, rfl, _, rfl, rfl⟩
  array items r ok := by
    obtain ⟨rest, ok⟩ := positions_ok _ items r ok
    simp only [ofPositions, StateT.run_bind, bind_ok_iff, Prod.exists, next_some_ok_iff, next_ok_iff] at ok
    obtain ⟨a, _, ⟨aRead, rfl⟩, k, _, ⟨kRead, rfl⟩, m, _, ⟨mRead, rfl⟩, d, _, ⟨dRead, rfl⟩, b, _, ⟨bRead, rfl⟩, i, _,
      ⟨iRead, rfl⟩, ok⟩ := ok
    obtain ⟨rfl, rfl⟩ := Prod.mk.inj (Except.ok.inj ok)
    exact ⟨rfl, rfl, (reads_required_iff _ _ _ _).mpr aRead, (reads_required_iff _ _ _ _).mpr kRead,
      (reads_defaulted_iff _ _ _ _ _).mpr ⟨m, mRead, rfl⟩, (reads_entries_iff _ _ _ _).mpr ⟨d, dRead, rfl⟩,
      (reads_entries_iff _ _ _ _).mpr ⟨b, bRead, rfl⟩, (reads_optional_iff _ _ _ _).mpr ⟨i, iRead, rfl⟩, trivial⟩
  written r := by
    simp only [written, Slot.fields, slots, List.flatMap_cons, List.flatMap_nil, Slot.written, List.append_nil]
    simp [Codec.optional, Codec.required, Codec.defaulted, field, map_field_entries _ text, map_field_entries _ bytes]

end ConfigMap

end ManifestSecrets.Shape
