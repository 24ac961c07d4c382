import ManifestSecrets.Proofs.Shape.Decoder
import ManifestSecrets.Proofs.Template.Filling

/-!
What the message of a decoder can depend on when secrets fill the texts of a tree. A probe goes through the tree
as the decoder goes through its JSON, knowing no more than the types of the secrets, and lists what ends the
decoding with one message whatever they are and what only a look at a filled value decides.
-/

set_option autoImplicit false

namespace ManifestSecrets.Shape

def fault? {α : Type} : Except Mismatch α → Option Mismatch
  | .ok _ => none
  | .error e => some e

theorem fault_bind {α β : Type} (x : Except Mismatch α) (f : α → Except Mismatch β) (later : Option Mismatch)
    (same : ∀ a, fault? (f a) = later) : fault? (x >>= f) = (fault? x).or later := by
  cases x with
  | error e => rfl
  | ok a => exact same a

theorem fault_map {α β : Type} (x : Except Mismatch α) (f : α → β) : fault? (x.map f) = fault? x := by
  cases x <;> rfl

def fieldFault {α : Type} (fields : KeyMap Json) (name : String) (d : Decoder α) : Option Mismatch :=
  (KeyMap.find? name fields).bind fun v => fault? (d v)

def missing? (fields : KeyMap Json) (name : String) : Option Mismatch :=
  if (KeyMap.find? name fields).isSome then none else some (.missingField name)

-- Whether a field is there is all that what comes after it can depend on.
theorem fault_field {α β : Type} (fields : KeyMap Json) (name : String) (d : Decoder α)
    (f : Option α → Except Mismatch β) (later : Option Mismatch)
    (same : ∀ r, r.isSome = (KeyMap.find? name fields).isSome → fault? (f r) = later) :
    fault? (Decoder.field? fields name d >>= f) = (fieldFault fields name d).or later := by
  unfold Decoder.field? fieldFault
  cases found : KeyMap.find? name fields with
  | none => exact same none (by rw [found]; rfl)
  | some v =>
    cases decoded : d v with
    | error e => simp [decoded, fault?, Except.map, bind, Except.bind]
    | ok a => simpa [decoded, fault?, Except.map, bind, Except.bind] using same (some a) (by rw [found]; rfl)

theorem fault_required {α β : Type} (fields : KeyMap Json) (name : String) (r : Option α)
    (present : r.isSome = (KeyMap.find? name fields).isSome) (f : α → Except Mismatch β) (later : Option Mismatch)
    (same : ∀ v, fault? (f v) = later) : fault? (Decoder.required name r >>= f) = (missing? fields name).or later := by
  unfold missing?
  rw [← present]
  cases r with
  | none => rfl
  | some v => exact same v

-- What decoding comes upon: an end that is the same whatever the secrets, or a value that they fill.
inductive Sight where
  | misfit (message : String)
  | filled (judge : Json → Option Mismatch) (policy : Policy) (text : String)

def Sight.told (secrets : SecretMap) : Sight → Option String
  | .misfit message => some message
  | .filled judge policy text => (judge (fillText policy secrets text)).map Mismatch.message

def told (secrets : SecretMap) (sights : List Sight) : Option String := sights.findSome? (Sight.told secrets)

theorem told_append (secrets : SecretMap) (front back : List Sight) :
    told secrets (front ++ back) = (told secrets front).or (told secrets back) :=
  List.findSome?_append

def settled (fault : Option Mismatch) : List Sight := (fault.map fun e => .misfit e.message).toList

theorem told_settled (secrets : SecretMap) (fault : Option Mismatch) :
    told secrets (settled fault) = fault.map Mismatch.message := by
  cases fault <;> rfl

inductive View where
  | accepts
  | refuses (message : String)
  | looks

def View.Holds : View → Option Mismatch → Prop
  | .accepts, fault => fault = none
  | .refuses message, fault => fault.map Mismatch.message = some message
  | .looks, _ => True

def View.sights (judge : Json → Option Mismatch) (policy : Policy) (text : String) : View → List Sight
  | .accepts => []
  | .refuses message => [.misfit message]
  | .looks => [.filled judge policy text]

theorem View.told_sights (view : View) (judge : Json → Option Mismatch) (policy : Policy) (text : String)
    (secrets : SecretMap) (holds : view.Holds (judge (fillText policy secrets text))) :
    (judge (fillText policy secrets text)).map Mismatch.message = told secrets (view.sights judge policy text) := by
  cases view with
  | accepts =>
    rw [Holds] at holds
    rw [holds]
    rfl
  | refuses message => exact holds
  | looks =>
    unfold sights told
    rw [List.findSome?_singleton]
    rfl

def refusal (expected : String) : JsonType → View
  | .null => .refuses (Mismatch.wrongType .null expected).message
  | .array => .refuses (Mismatch.wrongType (.array []) expected).message
  | .object => .refuses (Mismatch.wrongType (.object []) expected).message
  | _ => .looks

theorem refusal_holds (expected : String) (v : Json) :
    (refusal expected v.typeOf).Holds (some (.wrongType v expected)) := by
  cases v <;> first | exact trivial | rfl

structure Probe {α : Type} (d : Decoder α) where
  view : JsonType → View
  encoded : View
  mapping : Policy → SecretTypes → List (String × Tree) → List Sight
  sequence : Policy → SecretTypes → List Tree → List Sight
  view_holds : ∀ v, (view v.typeOf).Holds (fault? (d v))
  encoded_holds : ∀ b, encoded.Holds (fault? (d (bytesJson b)))
  mapping_told : ∀ policy secrets entries,
    (fault? (d (.object (Tree.fillEntries policy secrets entries)))).map Mismatch.message =
      told secrets (mapping policy (secretTypes secrets) entries)
  sequence_told : ∀ policy secrets items,
    (fault? (d (.array (Tree.fillItems policy secrets items)))).map Mismatch.message =
      told secrets (sequence policy (secretTypes secrets) items)

namespace Probe

variable {α : Type} {d : Decoder α}

def fillingSights (p : Probe d) (policy : Policy) (text : String) : Filling → List Sight
  | .known v => settled (fault? (d v))
  | .plain type => (p.view type).sights (fun v => fault? (d v)) policy text
  | .encoded => p.encoded.sights (fun v => fault? (d v)) policy text

def textSights (p : Probe d) (policy : Policy) (types : SecretTypes) (text : String) : List Sight :=
  p.fillingSights policy text (policy.filling types text)

def sights (p : Probe d) (policy : Policy) (types : SecretTypes) : Tree → List Sight
  | .mapping entries => p.mapping policy types entries
  | .sequence items => p.sequence policy types items
  | .text s => p.textSights policy types s
  | leaf => settled (fault? (d leaf.toJson))

theorem filling_told (p : Probe d) (policy : Policy) (secrets : SecretMap) (text : String) (filling : Filling)
    (has : filling.Has (fillText policy secrets text)) :
    (fault? (d (fillText policy secrets text))).map Mismatch.message =
      told secrets (p.fillingSights policy text filling) := by
  cases filling with
  | known v =>
    rw [Filling.Has] at has
    rw [fillingSights, told_settled, has]
  | plain type =>
    rw [Filling.Has] at has
    exact View.told_sights _ (fun v => fault? (d v)) policy text secrets (has ▸ p.view_holds _)
  | encoded =>
    obtain ⟨b, bytes⟩ := has
    exact View.told_sights _ (fun v => fault? (d v)) policy text secrets (bytes ▸ p.encoded_holds b)

theorem text_told (p : Probe d) (policy : Policy) (secrets : SecretMap) (text : String) :
    (fault? (d (fillText policy secrets text))).map Mismatch.message =
      told secrets (p.textSights policy (secretTypes secrets) text) :=
  p.filling_told policy secrets text _ (policy.filling_has secrets "" text)

theorem told_sights (p : Probe d) (policy : Policy) (secrets : SecretMap) (t : Tree) :
    (fault? (d (t.fill policy secrets))).map Mismatch.message =
      told secrets (p.sights policy (secretTypes secrets) t) := by
  cases t with
  | mapping entries => exact p.mapping_told policy secrets entries
  | sequence items => exact p.sequence_told policy secrets items
  | text s => exact p.text_told policy secrets s
  | _ => exact (told_settled secrets _).symm

def wrongMapping (expected : String) : Sight := .misfit (Mismatch.wrongType (.object []) expected).message

def wrongSequence (expected : String) : Sight := .misfit (Mismatch.wrongType (.array []) expected).message

def scalar (d : Decoder α) (expected : String) (own : JsonType) (ownView encoded : View)
    (scalarType : own ≠ .object ∧ own ≠ .array)
    (refuses : ∀ v, v.typeOf ≠ own → d v = .error (.wrongType v expected))
    (ownHolds : ∀ v, v.typeOf = own → ownView.Holds (fault? (d v)))
    (encodedHolds : ∀ b, encoded.Holds (fault? (d (bytesJson b)))) : Probe d where
  view type := if type = own then ownView else refusal expected type
  encoded := encoded
  mapping _ _ _ := [wrongMapping expected]
  sequence _ _ _ := [wrongSequence expected]
  view_holds v := by
    by_cases same : v.typeOf = own
    · rw [if_pos same]
      exact ownHolds v same
    · rw [if_neg same, refuses v same]
      exact refusal_holds expected v
  encoded_holds := encodedHolds
  mapping_told policy secrets entries := by
    rw [refuses (.object _) (Ne.symm scalarType.1)]
    rfl
  sequence_told policy secrets items := by
    rw [refuses (.array _) (Ne.symm scalarType.2)]
    rfl

def text : Probe Decoder.text :=
  scalar Decoder.text "a string" .string .accepts .accepts (by decide)
    (fun v other => by cases v <;> first | rfl | exact absurd rfl other)
    (fun v own => by cases v <;> first | rfl | cases own) (fun _ => rfl)

def bool : Probe Decoder.bool :=
  scalar Decoder.bool "a boolean" .bool .accepts .looks (by decide)
    (fun v other => by cases v <;> first | rfl | exact absurd rfl other)
    (fun v own => by cases v <;> first | rfl | cases own) (fun _ => trivial)

def integer (name : String) (least greatest : Int) : Probe (Decoder.integer name least greatest) :=
  scalar (Decoder.integer name least greatest) name .number .looks .looks (by decide)
    (fun v other => by cases v <;> first | rfl | exact absurd rfl other) (fun _ _ => trivial) (fun _ => trivial)

def bytes : Probe Decoder.bytes :=
  scalar Decoder.bytes "a string" .string .looks .accepts (by decide)
    (fun v other => by cases v <;> first | rfl | exact absurd rfl other) (fun _ _ => trivial)
    (fun b => by rw [Decoder.bytes_decoded b]; rfl)

def value : Probe Decoder.value where
  view _ := .accepts
  encoded := .accepts
  mapping _ _ _ := []
  sequence _ _ _ := []
  view_holds _ := rfl
  encoded_holds _ := rfl
  mapping_told _ _ _ := rfl
  sequence_told _ _ _ := rfl

def list : Probe Decoder.list where
  view
    | .array => .accepts
    | type => refusal "a sequence" type
  encoded := .looks
  mapping _ _ _ := [wrongMapping "a sequence"]
  sequence _ _ _ := []
  view_holds v := by
    cases v with
    | array items => rfl
    | _ => exact refusal_holds "a sequence" _
  encoded_holds _ := trivial
  mapping_told _ _ _ := rfl
  sequence_told _ _ _ := rfl

theorem fault_optional (d : Decoder α) (v : Json) (present : v ≠ .null) :
    fault? (Decoder.optional d v) = fault? (d v) := by
  cases v with
  | null => exact absurd rfl present
  | _ => exact fault_map _ _

def optional (p : Probe d) : Probe (Decoder.optional d) where
  view
    | .null => .accepts
    | type => p.view type
  encoded := p.encoded
  mapping := p.mapping
  sequence := p.sequence
  view_holds v := by
    have inner := p.view_holds v
    cases v with
    | null => rfl
    | _ =>
      rw [fault_optional d _ (by simp)]
      exact inner
  encoded_holds b := by
    rw [bytesJson, fault_optional d _ (by simp)]
    exact p.encoded_holds b
  mapping_told policy secrets entries := by
    rw [fault_optional d _ (by simp)]
    exact p.mapping_told policy secrets entries
  sequence_told policy secrets items := by
    rw [fault_optional d _ (by simp)]
    exact p.sequence_told policy secrets items

theorem entries_told (p : Probe d) (policy : Policy) (secrets : SecretMap) (entries : List (String × Tree)) :
    (fault? (Decoder.entries d (Tree.fillEntries policy secrets entries))).map Mismatch.message =
      told secrets (entries.flatMap fun entry => p.sights policy (secretTypes secrets) entry.2) := by
  induction entries with
  | nil => rfl
  | cons head rest ih =>
    have later : ∀ a : α, fault? (do
        let others ← Decoder.entries d (Tree.fillEntries policy secrets rest)
        return (head.1, a) :: others) = fault? (Decoder.entries d (Tree.fillEntries policy secrets rest)) := by
      intro a
      rw [fault_bind _ _ none fun _ => rfl, Option.or_none]
    rw [Tree.fillEntries, Decoder.entries, fault_bind _ _ _ later, Option.map_or, List.flatMap_cons, told_append,
      p.told_sights policy secrets head.2, ih]

def map (p : Probe d) : Probe (Decoder.map d) where
  view
    | .object => .looks
    | type => refusal "a map" type
  encoded := .looks
  mapping policy types entries := entries.flatMap fun entry : String × Tree => p.sights policy types entry.2
  sequence _ _ _ := [wrongSequence "a map"]
  view_holds v := by
    cases v with
    | object fields => trivial
    | _ => exact refusal_holds "a map" _
  encoded_holds _ := trivial
  mapping_told := p.entries_told
  sequence_told _ _ _ := rfl

end Probe

structure Member where
  {value : Type}
  {decoder : Decoder value}
  name : String
  probe : Probe decoder

-- JSON fields that are the filled entries of a tree; what fills an entry can depend on its name.
def FilledBy (policyOf : String → Tree → Option Policy) (secrets : SecretMap) (entries : KeyMap Tree)
    (fields : KeyMap Json) : Prop :=
  ∀ name, KeyMap.find? name fields = (KeyMap.find? name entries).map fun t => t.fillBy (policyOf name t) secrets

theorem filled_entries (policy : Policy) (secrets : SecretMap) (entries : KeyMap Tree) :
    FilledBy (fun _ _ => some policy) secrets entries (Tree.fillEntries policy secrets entries) := fun name => by
  rw [Tree.fill_entries_map, KeyMap.find_map_values]
  rfl

namespace Member

variable (policyOf : String → Tree → Option Policy)

def treeSights (policy : Option Policy) (types : SecretTypes) (m : Member) (t : Tree) : List Sight :=
  match policy with
  | some policy => m.probe.sights policy types t
  | none => settled (fault? (m.decoder t.toJson))

def sights (types : SecretTypes) (entries : KeyMap Tree) (m : Member) : List Sight :=
  match KeyMap.find? m.name entries with
  | some t => m.treeSights (policyOf m.name t) types t
  | none => []

def missing (entries : KeyMap Tree) (name : String) : List Sight :=
  if (KeyMap.find? name entries).isSome then [] else [.misfit (Mismatch.missingField name).message]

def requiredFault (fields : KeyMap Json) : List String → Option Mismatch
  | [] => none
  | name :: rest => (missing? fields name).or (requiredFault fields rest)

def recordFault (required : List String) (fields : KeyMap Json) : List Member → Option Mismatch
  | [] => requiredFault fields required
  | m :: rest => (fieldFault fields m.name m.decoder).or (recordFault required fields rest)

def recordSights (required : List String) (types : SecretTypes) (entries : KeyMap Tree) : List Member → List Sight
  | [] => required.flatMap (missing entries)
  | m :: rest => m.sights policyOf types entries ++ recordSights required types entries rest

variable {policyOf} {secrets : SecretMap} {entries : KeyMap Tree} {fields : KeyMap Json}

theorem told_tree (m : Member) (policy : Option Policy) (secrets : SecretMap) (t : Tree) :
    (fault? (m.decoder (t.fillBy policy secrets))).map Mismatch.message =
      told secrets (m.treeSights policy (secretTypes secrets) t) := by
  cases policy with
  | some policy => exact m.probe.told_sights policy secrets t
  | none => exact (told_settled secrets _).symm

theorem told_sights (filled : FilledBy policyOf secrets entries fields) (m : Member) :
    (fieldFault fields m.name m.decoder).map Mismatch.message =
      told secrets (m.sights policyOf (secretTypes secrets) entries) := by
  unfold fieldFault sights
  rw [filled m.name]
  cases KeyMap.find? m.name entries with
  | none => rfl
  | some t => exact m.told_tree _ secrets t

theorem told_missing (filled : FilledBy policyOf secrets entries fields) (name : String) :
    (missing? fields name).map Mismatch.message = told secrets (missing entries name) := by
  unfold missing? missing
  rw [filled name]
  cases KeyMap.find? name entries <;> rfl

theorem told_required (filled : FilledBy policyOf secrets entries fields) (required : List String) :
    (requiredFault fields required).map Mismatch.message = told secrets (required.flatMap (missing entries)) := by
  induction required with
  | nil => rfl
  | cons name rest ih =>
    rw [requiredFault, Option.map_or, List.flatMap_cons, told_append, told_missing filled, ih]

theorem told_record (filled : FilledBy policyOf secrets entries fields) (required : List String)
    (members : List Member) :
    (recordFault required fields members).map Mismatch.message =
      told secrets (recordSights policyOf required (secretTypes secrets) entries members) := by
  induction members with
  | nil => exact told_required filled required
  | cons m rest ih => rw [recordFault, Option.map_or, recordSights, told_append, told_sights filled, ih]

def itemFault (length : Nat) : List Member → List Json → Option Mismatch
  | m :: members, v :: rest => (fault? (m.decoder v)).or (itemFault length members rest)
  | [], _ :: _ => some (.tooMany length)
  | _, [] => none

def itemSights (length : Nat) (policy : Policy) (types : SecretTypes) : List Member → List Tree → List Sight
  | m :: members, t :: rest => m.probe.sights policy types t ++ itemSights length policy types members rest
  | [], _ :: _ => [.misfit (Mismatch.tooMany length).message]
  | _, [] => []

theorem told_items (length : Nat) (policy : Policy) (secrets : SecretMap) (members : List Member)
    (items : List Tree) :
    (itemFault length members (Tree.fillItems policy secrets items)).map Mismatch.message =
      told secrets (itemSights length policy (secretTypes secrets) members items) := by
  induction members generalizing items with
  | nil => cases items <;> rfl
  | cons m members ih =>
    cases items with
    | nil => rfl
    | cons t rest =>
      rw [Tree.fillItems, itemFault, itemSights, told_append, Option.map_or, m.probe.told_sights, ih]

end Member

namespace Probe

variable {α : Type}

def record (d : Decoder α) (title : String) (members : List Member) (required : List String)
    (object : ∀ fields, fault? (d (.object fields)) = Member.recordFault required fields members)
    (refuses : ∀ v, v.typeOf ≠ .object → d v = .error (.wrongType v title)) : Probe d where
  view
    | .object => .looks
    | type => refusal title type
  encoded := .looks
  mapping policy types entries := Member.recordSights (fun _ _ => some policy) required types entries members
  sequence _ _ _ := [wrongSequence title]
  view_holds v := by
    cases v with
    | object fields => trivial
    | _ =>
      rw [refuses _ (by simp [Json.typeOf])]
      exact refusal_holds title _
  encoded_holds _ := trivial
  mapping_told policy secrets entries := by
    rw [object]
    exact Member.told_record (filled_entries policy secrets entries) required members
  sequence_told policy secrets items := by
    rw [refuses (.array _) (by simp [Json.typeOf])]
    rfl

def positionalRecord (d : Decoder α) (title : String) (members positions : List Member)
    (object : ∀ fields, fault? (d (.object fields)) = Member.recordFault [] fields members)
    (array : ∀ items, fault? (d (.array items)) = Member.itemFault items.length positions items)
    (refuses : ∀ v, v.typeOf ≠ .object → v.typeOf ≠ .array → d v = .error (.wrongType v title)) : Probe d where
  view
    | .object => .looks
    | .array => .looks
    | type => refusal title type
  encoded := .looks
  mapping policy types entries := Member.recordSights (fun _ _ => some policy) [] types entries members
  sequence policy types items := Member.itemSights items.length policy types positions items
  view_holds v := by
    cases v with
    | object fields => trivial
    | array items => trivial
    | _ =>
      rw [refuses _ (by simp [Json.typeOf]) (by simp [Json.typeOf])]
      exact refusal_holds title _
  encoded_holds _ := trivial
  mapping_told policy secrets entries := by
    rw [object]
    exact Member.told_record (filled_entries policy secrets entries) [] members
  sequence_told policy secrets items := by
    rw [array, Tree.fill_items_length]
    exact Member.told_items items.length policy secrets positions items

end Probe

end ManifestSecrets.Shape
