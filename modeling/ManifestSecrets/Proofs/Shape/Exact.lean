import ManifestSecrets.Proofs.Shape.RecordProbes
import ManifestSecrets.Proofs.Template.Variants

set_option autoImplicit false

namespace ManifestSecrets.Shape

open Placeholder

variable {α : Type} {d : Decoder α}

-- The decoder does not take every value of the type, and its message tells some of those apart.
def Tells (d : Decoder α) (type : JsonType) : Prop :=
  ∃ v w : Json, v.typeOf = type ∧ w.typeOf = type ∧
    ∃ e f, fault? (d v) = some e ∧ fault? (d w) = some f ∧ e.message ≠ f.message

def Sight.Exact (secrets : SecretMap) : Sight → Prop
  | .misfit _ => True
  | .filled judge policy text => ∃ b c, secretTypes b = secretTypes secrets ∧ secretTypes c = secretTypes secrets ∧
      ∃ e f, judge (fillText policy b text) = some e ∧ judge (fillText policy c text) = some f ∧ e.message ≠ f.message

theorem settled_exact (fault : Option Mismatch) (secrets : SecretMap) :
    ∀ sight ∈ settled fault, sight.Exact secrets := by
  cases fault with
  | none => simp [settled]
  | some e => simp [settled, Sight.Exact]

theorem wrong_type_found (v w : Json) (expected : String)
    (same : (Mismatch.wrongType v expected).message = (Mismatch.wrongType w expected).message) :
    Mismatch.found v = Mismatch.found w :=
  (String.append_right_inj "invalid type: ").mp
    ((String.append_left_inj ", expected ").mp ((String.append_left_inj expected).mp same))

theorem text_message_weight (s r expected : String)
    (same : (Mismatch.wrongType (.text s) expected).message = (Mismatch.wrongType (.text r) expected).message) :
    Text.weight s = Text.weight r := by
  have found := wrong_type_found _ _ expected same
  have quoted : Text.quoted s = Text.quoted r := (String.append_right_inj "string ").mp found
  have lengths := congrArg String.length quoted
  rw [Text.quoted_length, Text.quoted_length] at lengths
  omega

theorem refusal_tells (expected : String) (type : JsonType) (other : type ≠ .string)
    (looks : refusal expected type = .looks) (refuses : ∀ v, v.typeOf = type → d v = .error (.wrongType v expected)) :
    Tells d type := by
  have apart (v w : Json) (isV : v.typeOf = type) (isW : w.typeOf = type)
      (differ : Mismatch.found v ≠ Mismatch.found w) : Tells d type :=
    ⟨v, w, isV, isW, _, _, congrArg fault? (refuses v isV), congrArg fault? (refuses w isW),
      mt (wrong_type_found v w expected) differ⟩
  cases type with
  | bool => exact apart (.bool true) (.bool false) rfl rfl (by decide)
  | number => exact apart (.ofUnsigned 0) (.ofUnsigned 1) rfl rfl (by decide)
  | string => exact absurd rfl other
  | _ => cases looks

structure Probe.Exact (p : Probe d) : Prop where
  tells : ∀ type, type ≠ .string → p.view type = .looks → Tells d type
  quotes : p.view .string = .looks → ∃ expected, ∀ s, fault? (d (.text s)) = some (.wrongType (.text s) expected)
  mapping : ∀ secrets entries, ∀ sight ∈ p.mapping .generic (secretTypes secrets) entries, sight.Exact secrets
  sequence : ∀ secrets items, ∀ sight ∈ p.sequence .generic (secretTypes secrets) items, sight.Exact secrets

namespace Probe

theorem view_exact (view : View) (judge : Json → Option Mismatch) (policy : Policy) (text : String)
    (secrets : SecretMap) (exact : view = .looks → (Sight.filled judge policy text).Exact secrets) :
    ∀ sight ∈ view.sights judge policy text, sight.Exact secrets := by
  cases view with
  | accepts => exact fun _ member => absurd member List.not_mem_nil
  | refuses message => simp [View.sights, Sight.Exact]
  | looks => simpa [View.sights] using exact

theorem whole_exact (inner : List Char) (text : String) (type : JsonType) (secrets : SecretMap)
    (sole : cut text.toList = [.token inner]) (typed : secretTypes secrets (Placeholder.name inner) = some type)
    (other : type ≠ .string) (tells : Tells d type) :
    (Sight.filled (fun v => fault? (d v)) .generic text).Exact secrets := by
  have noText (v : Json) (isType : v.typeOf = type) (s : String) : v ≠ .text s := by
    rintro rfl
    exact other isType.symm
  obtain ⟨v, w, vType, wType, e, f, first, second, differ⟩ := tells
  refine ⟨KeyMap.insert (Placeholder.name inner) v secrets, KeyMap.insert (Placeholder.name inner) w secrets,
    types_inserted secrets _ v (vType ▸ typed), types_inserted secrets _ w (wType ▸ typed), e, f, ?_, ?_, differ⟩
  · rwa [fill_inserted secrets text inner v sole (noText v vType)]
  · rwa [fill_inserted secrets text inner w sole (noText w wType)]

theorem part_exact (text : String) (secrets : SecretMap) (part : wholeType? (secretTypes secrets) text = none)
    (varied : varies (secretTypes secrets) text = true) (expected : String)
    (quotes : ∀ s, fault? (d (.text s)) = some (.wrongType (.text s) expected)) :
    (Sight.filled (fun v => fault? (d v)) .generic text).Exact secrets := by
  obtain ⟨n, token, typed⟩ := List.any_eq_true.mp varied
  obtain ⟨type, found, varying⟩ := (Option.any_eq_true _ _).mp typed
  obtain ⟨short, long, shortType, longType, longer⟩ := type_text_lengths type (by simpa using varying)
  have shortTypes := types_inserted secrets n short (shortType ▸ found)
  have longTypes := types_inserted secrets n long (longType ▸ found)
  have said (b : SecretMap) (same : secretTypes b = secretTypes secrets) :
      fault? (d (fillText .generic b text)) = some (.wrongType (.text (refill b text)) expected) := by
    have others : ∀ secret, ¬ Whole b (cut text.toList) secret := by
      intro secret whole
      have one := whole_type_of_whole b text secret whole
      rw [same, part] at one
      cases one
    rw [fillText, Policy.replace_partial b .generic "" text others]
    exact quotes _
  have lengths := refill_longer secrets text n short long token longer
  exact ⟨_, _, shortTypes, longTypes, _, _, said _ shortTypes, said _ longTypes,
    fun same => Nat.ne_of_lt lengths (text_message_weight _ _ expected same)⟩

variable {p : Probe d}

theorem Exact.text (exact : p.Exact) (secrets : SecretMap) (s : String) :
    ∀ sight ∈ p.textSights .generic (secretTypes secrets) s, sight.Exact secrets := by
  unfold textSights Policy.filling
  cases whole : wholeType? (secretTypes secrets) s with
  | some type =>
    simp only [if_true]
    refine view_exact _ _ _ _ _ fun looks => ?_
    unfold wholeType? at whole
    split at whole
    next inner sole =>
      obtain ⟨typed, other⟩ := Option.filter_eq_some_iff.mp whole
      exact whole_exact inner s type secrets sole typed (by simpa using other)
        (exact.tells type (by simpa using other) looks)
    next => cases whole
  | none =>
    cases varied : varies (secretTypes secrets) s with
    | false => exact settled_exact _ secrets
    | true =>
      refine view_exact _ _ _ _ _ fun looks => ?_
      obtain ⟨expected, quotes⟩ := exact.quotes looks
      exact part_exact s secrets whole varied expected quotes

theorem Exact.sights (exact : p.Exact) (secrets : SecretMap) (t : Tree) :
    ∀ sight ∈ p.sights .generic (secretTypes secrets) t, sight.Exact secrets := by
  cases t with
  | mapping entries => exact exact.mapping secrets entries
  | sequence items => exact exact.sequence secrets items
  | text s => exact exact.text secrets s
  | _ => exact settled_exact _ secrets

theorem scalar_exact (expected : String) (own : JsonType) (ownView encoded : View)
    (scalarType : own ≠ .object ∧ own ≠ .array)
    (refuses : ∀ v, v.typeOf ≠ own → d v = .error (.wrongType v expected))
    (ownHolds : ∀ v, v.typeOf = own → ownView.Holds (fault? (d v)))
    (encodedHolds : ∀ b, encoded.Holds (fault? (d (bytesJson b))))
    (ownTells : ownView = .looks → own ≠ .string ∧ Tells d own) :
    (scalar d expected own ownView encoded scalarType refuses ownHolds encodedHolds).Exact where
  tells type other looks := by
    by_cases same : type = own
    · subst same
      exact (ownTells (by simpa [scalar] using looks)).2
    · refine refusal_tells expected type other (by simpa [scalar, same] using looks) fun v isType => refuses v ?_
      rwa [isType]
  quotes looks := by
    have different : JsonType.string ≠ own := by
      rintro rfl
      exact (ownTells (by simpa [scalar] using looks)).1 rfl
    exact ⟨expected, fun s => congrArg fault? (refuses (.text s) different)⟩
  mapping secrets entries := by simp [scalar, wrongMapping, Sight.Exact]
  sequence secrets items := by simp [scalar, wrongSequence, Sight.Exact]

theorem text_exact : Probe.text.Exact :=
  scalar_exact "a string" .string .accepts .accepts _ _ _ _ nofun

theorem integer_exact (name : String) (least greatest : Int)
    (tells : Tells (Decoder.integer name least greatest) .number) : (Probe.integer name least greatest).Exact :=
  scalar_exact name .number .looks .looks _ _ _ _ fun _ => ⟨by decide, tells⟩

theorem value_exact : Probe.value.Exact where
  tells _ _ looks := nomatch looks
  quotes looks := nomatch looks
  mapping _ _ _ member := absurd member List.not_mem_nil
  sequence _ _ _ member := absurd member List.not_mem_nil

theorem list_exact : Probe.list.Exact where
  tells type other looks := by
    cases type with
    | array => cases looks
    | _ => exact refusal_tells "a sequence" _ other looks fun v isType => by cases v <;> first | rfl | cases isType
  quotes _ := ⟨"a sequence", fun _ => rfl⟩
  mapping secrets entries := by simp [Probe.list, wrongMapping, Sight.Exact]
  sequence _ _ _ member := absurd member List.not_mem_nil

theorem Exact.optional (exact : p.Exact) : p.optional.Exact where
  tells type other looks := by
    cases type with
    | null => cases looks
    | _ =>
      obtain ⟨v, w, vType, wType, e, f, first, second, differ⟩ := exact.tells _ other looks
      refine ⟨v, w, vType, wType, e, f, ?_, ?_, differ⟩
      · rwa [fault_optional d v (by rintro rfl; cases vType)]
      · rwa [fault_optional d w (by rintro rfl; cases wType)]
  quotes looks := by
    obtain ⟨expected, quotes⟩ := exact.quotes looks
    exact ⟨expected, fun s => by rw [fault_optional d _ (by simp), quotes]⟩
  mapping := exact.mapping
  sequence := exact.sequence

theorem tells_map (type : JsonType) (tells : Tells d type) : Tells (Decoder.map d) .object := by
  obtain ⟨v, w, -, -, e, f, first, second, differ⟩ := tells
  have alone (v : Json) (e : Mismatch) (fault : fault? (d v) = some e) :
      fault? (Decoder.map d (.object [("", v)])) = some e :=
    (fault_bind (d v) _ none fun _ => rfl).trans (by rw [fault, Option.or_none])
  exact ⟨.object [("", v)], .object [("", w)], rfl, rfl, e, f, alone v e first, alone w f second, differ⟩

theorem Exact.map (exact : p.Exact) (type : JsonType) (tells : Tells d type) : p.map.Exact where
  tells type other looks := by
    cases type with
    | object => exact tells_map _ tells
    | _ => exact refusal_tells "a map" _ other looks fun v isType => by cases v <;> first | rfl | cases isType
  quotes _ := ⟨"a map", fun _ => rfl⟩
  mapping secrets entries := by
    intro sight member
    obtain ⟨entry, -, inside⟩ := List.mem_flatMap.mp member
    exact exact.sights secrets entry.2 sight inside
  sequence secrets items := by simp [Probe.map, wrongSequence, Sight.Exact]

theorem shaped_text_exact (p : Probe d) (policy : Policy) (shapes : policy ≠ .generic)
    (accepted : ∀ text, p.fillingSights policy text policy.varied = []) (secrets : SecretMap) (text : String) :
    ∀ sight ∈ p.textSights policy (secretTypes secrets) text, sight.Exact secrets := by
  unfold textSights
  rcases policy.filling_shaped (secretTypes secrets) shapes text with varied | ⟨v, known⟩
  · simp [varied, accepted text]
  · rw [known]
    exact settled_exact _ secrets

theorem shaped_map_exact (p : Probe d) (policy : Policy) (shapes : policy ≠ .generic)
    (accepted : ∀ text, p.fillingSights policy text policy.varied = []) (secrets : SecretMap)
    (nested : ∀ entries, ∀ sight ∈ p.mapping policy (secretTypes secrets) entries, sight.Exact secrets)
    (listed : ∀ items, ∀ sight ∈ p.sequence policy (secretTypes secrets) items, sight.Exact secrets)
    (entries : List (String × Tree)) :
    ∀ sight ∈ p.map.mapping policy (secretTypes secrets) entries, sight.Exact secrets := by
  intro sight member
  obtain ⟨⟨key, t⟩, -, inside⟩ := List.mem_flatMap.mp member
  cases t with
  | mapping entries => exact nested entries sight inside
  | sequence items => exact listed items sight inside
  | text s => exact shaped_text_exact p policy shapes accepted secrets s sight inside
  | _ => exact settled_exact _ secrets sight inside

end Probe

namespace Member

theorem record_exact (policyOf : String → Tree → Option Policy) (required : List String) (secrets : SecretMap)
    (entries : KeyMap Tree) (members : List Member)
    (exact : ∀ m ∈ members, ∀ sight ∈ m.sights policyOf (secretTypes secrets) entries, sight.Exact secrets) :
    ∀ sight ∈ recordSights policyOf required (secretTypes secrets) entries members, sight.Exact secrets := by
  induction members with
  | nil =>
    intro sight member
    obtain ⟨name, -, absent⟩ := List.mem_flatMap.mp member
    unfold missing at absent
    split at absent
    · exact absurd absent List.not_mem_nil
    · rw [List.mem_singleton.mp absent]
      exact trivial
  | cons m rest ih =>
    obtain ⟨first, later⟩ := List.forall_mem_cons.mp exact
    intro sight member
    rcases List.mem_append.mp member with here | there
    · exact first sight here
    · exact ih later sight there

theorem items_exact (length : Nat) (secrets : SecretMap) (members : List Member)
    (exact : ∀ m ∈ members, m.probe.Exact) (items : List Tree) :
    ∀ sight ∈ itemSights length .generic (secretTypes secrets) members items, sight.Exact secrets := by
  induction members generalizing items with
  | nil => cases items <;> simp [itemSights, Sight.Exact]
  | cons m rest ih =>
    obtain ⟨first, later⟩ := List.forall_mem_cons.mp exact
    cases items with
    | nil => exact fun _ member => absurd member List.not_mem_nil
    | cons t others =>
      intro sight member
      rcases List.mem_append.mp member with here | there
      · exact first.sights secrets t sight here
      · exact ih later others sight there

end Member

namespace Probe

theorem members_exact (members : List Member) (exact : ∀ m ∈ members, m.probe.Exact) (required : List String)
    (secrets : SecretMap) (entries : KeyMap Tree) :
    ∀ sight ∈ Member.recordSights (fun _ _ => some .generic) required (secretTypes secrets) entries members,
      sight.Exact secrets := by
  refine Member.record_exact _ required secrets entries members fun m member => ?_
  unfold Member.sights
  cases KeyMap.find? m.name entries with
  | none => exact fun _ member => absurd member List.not_mem_nil
  | some t => exact (exact m member).sights secrets t

theorem record_exact (title : String) (members : List Member) (required : List String)
    (object : ∀ fields, fault? (d (.object fields)) = Member.recordFault required fields members)
    (refuses : ∀ v, v.typeOf ≠ .object → d v = .error (.wrongType v title))
    (exact : ∀ m ∈ members, m.probe.Exact) (tells : Tells d .object) :
    (record d title members required object refuses).Exact where
  tells type other looks := by
    cases type with
    | object => exact tells
    | _ => exact refusal_tells title _ other looks fun v isType => refuses v (by simp [isType])
  quotes _ := ⟨title, fun s => congrArg fault? (refuses (.text s) (by simp [Json.typeOf]))⟩
  mapping := members_exact members exact required
  sequence secrets items := by simp [record, wrongSequence, Sight.Exact]

theorem positional_record_exact (title : String) (members positions : List Member)
    (object : ∀ fields, fault? (d (.object fields)) = Member.recordFault [] fields members)
    (array : ∀ items, fault? (d (.array items)) = Member.itemFault items.length positions items)
    (refuses : ∀ v, v.typeOf ≠ .object → v.typeOf ≠ .array → d v = .error (.wrongType v title))
    (exact : ∀ m ∈ members, m.probe.Exact) (inOrder : ∀ m ∈ positions, m.probe.Exact)
    (tellsObject : Tells d .object) (tellsArray : Tells d .array) :
    (positionalRecord d title members positions object array refuses).Exact where
  tells type other looks := by
    cases type with
    | object => exact tellsObject
    | array => exact tellsArray
    | _ => exact refusal_tells title _ other looks fun v isType => refuses v (by simp [isType]) (by simp [isType])
  quotes _ := ⟨title, fun s => congrArg fault? (refuses (.text s) (by simp [Json.typeOf]) (by simp [Json.typeOf]))⟩
  mapping := members_exact members exact []
  sequence secrets items := Member.items_exact items.length secrets positions inOrder items

end Probe

theorem text_tells : Tells Decoder.text .number :=
  ⟨.ofUnsigned 0, .ofUnsigned 1, rfl, rfl, _, _, rfl, rfl, by decide⟩

theorem Metadata.probe_exact : Metadata.probe.Exact := by
  have texts := Probe.text_exact.map .number text_tells
  have name := Probe.text_exact.optional
  refine Probe.record_exact _ _ _ _ _ (by simpa [members] using ⟨texts, name⟩) ?_
  exact ⟨.object [("labels", .ofUnsigned 0)], .object [("labels", .ofUnsigned 1)], rfl, rfl, _, _, rfl, rfl, by decide⟩

theorem LabelSelector.probe_exact : LabelSelector.probe.Exact := by
  have texts := Probe.text_exact.map .number text_tells
  refine Probe.positional_record_exact _ _ _ _ _ _ ?_ ?_ ?_ ?_
  · simpa [expressions, labels] using ⟨Probe.list_exact, texts⟩
  · simpa [expressions, labels] using ⟨texts, Probe.list_exact⟩
  · exact ⟨.object [("matchLabels", .ofUnsigned 0)], .object [("matchLabels", .ofUnsigned 1)], rfl, rfl, _, _, rfl, rfl,
      by decide⟩
  · exact ⟨.array [.ofUnsigned 0], .array [.ofUnsigned 1], rfl, rfl, _, _, rfl, rfl, by decide⟩

theorem PodTemplate.probe_exact : PodTemplate.probe.Exact := by
  have exact : ∀ m ∈ [metadataMember, specMember], m.probe.Exact := by
    simpa [metadataMember, specMember] using ⟨Metadata.probe_exact.optional, Probe.value_exact.optional⟩
  refine Probe.positional_record_exact _ _ _ _ _ _ exact exact ?_ ?_
  · exact ⟨.object [("metadata", .ofUnsigned 0)], .object [("metadata", .ofUnsigned 1)], rfl, rfl, _, _, rfl, rfl,
      by decide⟩
  · exact ⟨.array [.ofUnsigned 0], .array [.ofUnsigned 1], rfl, rfl, _, _, rfl, rfl, by decide⟩

theorem DeploymentSpec.members_exact : ∀ m ∈ DeploymentSpec.members, m.probe.Exact := by
  have replicas := (Probe.integer_exact "i32" (-2147483648) 2147483647
    ⟨.ofUnsigned 2147483648, .ofUnsigned 2147483649, rfl, rfl, _, _, rfl, rfl, by decide⟩).optional
  simpa [members] using ⟨replicas, LabelSelector.probe_exact, PodTemplate.probe_exact⟩

end ManifestSecrets.Shape
