import ManifestSecrets.Proofs.Shape.Exact

set_option autoImplicit false

namespace ManifestSecrets

open Shape

namespace Kind

def members : Kind → List Member
  | .deployment => Deployment.members
  | .secret => Secret.members
  | .configMap => ConfigMap.members

def required : Kind → List String
  | .deployment => Deployment.required
  | .secret => Secret.required
  | .configMap => ConfigMap.required

theorem fault_object (kind : Kind) (fields : KeyMap Json) :
    fault? (Exported.decode kind (.object fields)) = Member.recordFault kind.required fields kind.members := by
  cases kind with
  | deployment => exact (fault_map _ _).trans (Deployment.fault_object fields)
  | secret => exact (fault_map _ _).trans (Secret.fault_object fields)
  | configMap => exact (fault_map _ _).trans (ConfigMap.fault_object fields)

def policyOf (kind : Kind) (name : String) : Tree → Option Policy
  | .mapping _ => KeyMap.find? name kind.subtrees
  | _ => none

def sights (kind : Kind) (types : SecretTypes) (d : Document) : List Sight :=
  Member.recordSights kind.policyOf kind.required types d.root kind.members

theorem filled_field (kind : Kind) (d : Document) (secrets : SecretMap) (name : String) :
    ((d.filledAll secrets kind.subtrees).root.find? name).map Tree.toJson =
      (KeyMap.find? name d.root).map fun t => t.fillBy (kind.policyOf name t) secrets := by
  cases policy : KeyMap.find? name kind.subtrees with
  | none =>
    have other : name ∉ kind.subtrees.map Prod.fst := (KeyMap.find_none_iff name kind.subtrees).mp policy
    rw [Document.filled_all_find_other secrets d kind.subtrees name other]
    refine congrArg (Option.map · _) (funext fun t => ?_)
    have unpoliced : kind.policyOf name t = none := by cases t <;> first | exact policy | rfl
    rw [unpoliced]
    rfl
  | some policy' =>
    have member : (name, policy') ∈ kind.subtrees := KeyMap.find_mem policy
    rw [Document.filled_all_find secrets d kind.subtrees name policy' (Template.subtrees_distinct kind) member]
    rcases d.eligible_or_skipped name with ⟨entries, here⟩ | skipped
    · rw [Document.filled_find secrets d name policy' entries here, show KeyMap.find? name d.root = _ from here]
      simp only [Option.map_some, policyOf, policy]
      exact congrArg some (Tree.walk_fill policy' secrets "" (.mapping entries))
    · rw [Document.filled_skipped secrets d name policy' skipped]
      cases here : KeyMap.find? name d.root with
      | none => rfl
      | some t =>
        have unpoliced : kind.policyOf name t = none := by
          cases t with
          | mapping entries => exact absurd here (skipped entries)
          | _ => rfl
        rw [Option.map_some, Option.map_some, unpoliced]
        rfl

theorem filled_fields (kind : Kind) (d : Document) (secrets : SecretMap) :
    FilledBy kind.policyOf secrets d.root (KeyMap.mapValues Tree.toJson (d.filledAll secrets kind.subtrees).root) :=
  fun name => by rw [KeyMap.find_map_values, kind.filled_field d secrets name]

theorem fault_told (kind : Kind) (d : Document) (secrets : SecretMap) :
    (fault? (Exported.decode kind (d.filledAll secrets kind.subtrees).toJson)).map Mismatch.message =
      told secrets (kind.sights (secretTypes secrets) d) := by
  rw [Document.to_json_root, fault_object]
  exact Member.told_record (kind.filled_fields d secrets) kind.required kind.members

theorem subtree_exact (kind : Kind) (secrets : SecretMap) (entries : List (String × Tree)) :
    ∀ m ∈ kind.members, ∀ policy, KeyMap.find? m.name kind.subtrees = some policy →
      ∀ sight ∈ m.probe.mapping policy (secretTypes secrets) entries, sight.Exact secrets := by
  have metadata := Metadata.probe_exact.mapping secrets entries
  have spec := Probe.members_exact _ DeploymentSpec.members_exact ["selector", "template"] secrets entries
  have texts : ∀ sight ∈ Probe.text.map.mapping .string (secretTypes secrets) entries, sight.Exact secrets :=
    Probe.shaped_map_exact Probe.text .string (by decide) (fun _ => rfl) secrets
      (by simp [Probe.text, Probe.scalar, Probe.wrongMapping, Sight.Exact])
      (by simp [Probe.text, Probe.scalar, Probe.wrongSequence, Sight.Exact]) entries
  have bytes : ∀ sight ∈ Probe.bytes.map.mapping .secret (secretTypes secrets) entries, sight.Exact secrets :=
    Probe.shaped_map_exact Probe.bytes .secret (by decide) (fun _ => rfl) secrets
      (by simp [Probe.bytes, Probe.scalar, Probe.wrongMapping, Sight.Exact])
      (by simp [Probe.bytes, Probe.scalar, Probe.wrongSequence, Sight.Exact]) entries
  cases kind with
  | deployment => simpa [members, Deployment.members, subtrees, KeyMap.find?] using ⟨metadata, spec⟩
  | secret => simpa [members, Secret.members, subtrees, KeyMap.find?] using ⟨bytes, metadata, texts⟩
  | configMap => simpa [members, ConfigMap.members, subtrees, KeyMap.find?] using ⟨texts, metadata⟩

theorem sights_exact (kind : Kind) (secrets : SecretMap) (d : Document) :
    ∀ sight ∈ kind.sights (secretTypes secrets) d, sight.Exact secrets := by
  refine Member.record_exact _ _ _ _ _ fun m member => ?_
  unfold Member.sights
  cases KeyMap.find? m.name d.root with
  | none => exact fun _ inside => absurd inside List.not_mem_nil
  | some t =>
    cases t with
    | mapping entries =>
      simp only [policyOf]
      cases policy : KeyMap.find? m.name kind.subtrees with
      | none => exact settled_exact _ secrets
      | some policy' => exact kind.subtree_exact secrets entries m member policy' policy
    | _ => exact settled_exact _ secrets

end Kind

namespace Shape

def Sight.isFilled : Sight → Bool
  | .misfit _ => false
  | .filled _ _ _ => true

-- The first end that decoding can come to is not at a value that secrets fill.
def Discreet (sights : List Sight) : Prop := ∀ sight ∈ sights.head?, sight.isFilled = false

instance (sights : List Sight) : Decidable (Discreet sights) :=
  inferInstanceAs (Decidable (∀ sight ∈ sights.head?, sight.isFilled = false))

theorem told_same_iff (sights : List Sight) (secrets : SecretMap) (exact : ∀ sight ∈ sights, sight.Exact secrets) :
    (∀ b c m n, Alike secrets b → Alike secrets c → told b sights = some m → told c sights = some n → m = n) ↔
      Discreet sights := by
  cases sights with
  | nil => simp [told, Discreet]
  | cons first rest =>
    cases first with
    | misfit message =>
      have said (b : SecretMap) : told b (.misfit message :: rest) = some message := rfl
      refine iff_of_true (fun b c m n _ _ first second => ?_) (by simp [Discreet, Sight.isFilled])
      rw [said] at first second
      exact (Option.some.inj first).symm.trans (Option.some.inj second)
    | filled judge policy text =>
      obtain ⟨b, c, bTypes, cTypes, e, f, first, second, differ⟩ := exact _ List.mem_cons_self
      have said (b : SecretMap) (e : Mismatch) (fault : judge (fillText policy b text) = some e) :
          told b (.filled judge policy text :: rest) = some e.message := by
        simp [told, Sight.told, fault]
      refine iff_of_false (fun same => differ ?_) (by simp [Discreet, Sight.isFilled])
      exact same b c _ _ ((alike_iff_types _ _).mpr bTypes.symm) ((alike_iff_types _ _).mpr cTypes.symm)
        (said b e first) (said c f second)

end Shape

namespace Template

def misfitText (kind : Kind) (reason : String) : String :=
  "could not convert replaced template into " ++ kind.name ++ ": " ++ reason

def ExportFails (document : Document) (secrets : SecretMap) (text : String) : Prop :=
  ∃ t e, create document secrets = .ok t ∧ t.replace.2.2 = .ok () ∧
    (t.replace.1.exported = .error e ∨ t.replace.1.toYaml = .error e) ∧ e.message = text

theorem to_yaml_error_iff (t : Template) (e : TemplateError) : t.toYaml = .error e ↔ t.exported = .error e := by
  unfold toYaml
  cases t.exported <;> simp [Except.map]

theorem exported_error_iff (t : Template) (e : TemplateError) (replaced : t.replaced = true) :
    t.exported = .error e ↔
      ∃ cause, fault? (Exported.decode t.kind t.document.toJson) = some cause ∧ e = .misfit t.kind cause := by
  rw [exported, if_pos replaced]
  cases Exported.decode t.kind t.document.toJson <;> simp [fault?, eq_comm]

theorem export_fails_iff (kind : Kind) (document : Document) (secrets : SecretMap) (text : String)
    (created : create document secrets = .ok { kind, document, secrets })
    (replaced : (replace { kind, document, secrets }).2.2 = .ok ()) :
    ExportFails document secrets text ↔
      ∃ reason, told secrets (kind.sights (secretTypes secrets) document) = some reason ∧
        text = misfitText kind reason := by
  have after := (replace_clear _ ((replace_ok_iff _).mp replaced)).2
  have errors (e : TemplateError) := exported_error_iff (replace { kind, document, secrets }).1 e (by rw [after])
  rw [after] at errors
  rw [← kind.fault_told]
  constructor
  · rintro ⟨t, e, made, -, fails, rfl⟩
    obtain rfl := Except.ok.inj (created.symm.trans made)
    rw [to_yaml_error_iff, or_self, after] at fails
    obtain ⟨cause, found, rfl⟩ := (errors e).mp fails
    exact ⟨cause.message, by rw [found, Option.map_some], rfl⟩
  · rintro ⟨reason, told, rfl⟩
    obtain ⟨cause, found, rfl⟩ := Option.map_eq_some_iff.mp told
    refine ⟨_, .misfit kind cause, created, replaced, .inl ?_, rfl⟩
    rw [after]
    exact (errors _).mpr ⟨cause, found, rfl⟩

-- The sights depend on the types alone, and an export fails with the first message among them.
theorem export_texts_same_iff (document : Document) (secrets : SecretMap) (t : Template)
    (created : create document secrets = .ok t) (replaced : t.replace.2.2 = .ok ()) :
    (∀ b, Alike secrets b → ∀ text, ExportFails document b text ↔
      ∃ reason, told b (t.kind.sights (secretTypes secrets) document) = some reason ∧
        text = misfitText t.kind reason) ∧
    ((∀ b c, Alike secrets b → Alike secrets c → ∀ m n,
        ExportFails document b m → ExportFails document c n → m = n) ↔
      Discreet (t.kind.sights (secretTypes secrets) document)) := by
  rcases create_cases document with ⟨kind, -, made⟩ | ⟨e, refused⟩
  · obtain rfl := Except.ok.inj ((made secrets).symm.trans created)
    have fails (b : SecretMap) (alike : Alike secrets b) (text : String) := by
      have same := (replace_alike kind alike document).1
      rw [Prod.ext_iff] at same
      have iff := export_fails_iff kind document b text (made b) (same.2.symm.trans replaced)
      rwa [← (alike_iff_types secrets b).mp alike] at iff
    refine ⟨fails, ?_⟩
    rw [← told_same_iff _ secrets (kind.sights_exact secrets document)]
    constructor
    · intro same b c m n toB toC first second
      have texts := same b c toB toC _ _ ((fails b toB _).mpr ⟨m, first, rfl⟩) ((fails c toC _).mpr ⟨n, second, rfl⟩)
      exact (String.append_right_inj _).mp texts
    · intro same b c toB toC m n first second
      obtain ⟨r, toldB, rfl⟩ := (fails b toB m).mp first
      obtain ⟨q, toldC, rfl⟩ := (fails c toC n).mp second
      rw [same b c r q toB toC toldB toldC]
  · rw [refused secrets] at created
    cases created

def scaled : Document :=
  ⟨[("apiVersion", .text "apps/v1"), ("kind", .text "Deployment"),
    ("spec", .mapping [("replicas", .text "<n>"), ("selector", .mapping []), ("template", .mapping [])])]⟩

example : ¬ Discreet (Kind.deployment.sights (secretTypes [("n", .text "")]) scaled) := by decide +kernel

theorem export_texts_same_replicas :
    ∃ t, create scaled [("n", .array [])] = .ok t ∧ t.replace.2.2 = .ok () ∧
      ExportFails scaled [("n", .array [])]
        "could not convert replaced template into Deployment: invalid type: sequence, expected i32" ∧
      ∀ b text, Alike [("n", .array [])] b → ExportFails scaled b text →
        text = "could not convert replaced template into Deployment: invalid type: sequence, expected i32" := by
  have created := create_declared .deployment scaled [("n", .array [])] rfl
  have replaced : (replace ⟨.deployment, scaled, [("n", .array [])], [], false⟩).2.2 = .ok () :=
    (replace_ok_iff _).mpr (by decide +kernel)
  obtain ⟨told, same⟩ := export_texts_same_iff scaled [("n", .array [])] _ created replaced
  have fails := (told _ (fun _ => rfl) _).mpr ⟨"invalid type: sequence, expected i32", by decide +kernel, rfl⟩
  exact ⟨_, created, replaced, fails, fun b text alike other =>
    same.mpr (by decide +kernel) b _ alike (fun _ => rfl) text _ other fails⟩

theorem replicas_text_disclosed :
    Alike [("n", .text "hunter2")] [("n", .text "letmein")] ∧
      ExportFails scaled [("n", .text "hunter2")]
        "could not convert replaced template into Deployment: invalid type: string \"hunter2\", expected i32" ∧
      ExportFails scaled [("n", .text "letmein")]
        "could not convert replaced template into Deployment: invalid type: string \"letmein\", expected i32" := by
  refine ⟨fun n => ?_, ?_, ?_⟩
  · simp only [KeyMap.find?]
    split <;> rfl
  · exact (export_fails_iff .deployment scaled _ _ (create_declared _ _ _ rfl)
      ((replace_ok_iff _).mpr (by decide +kernel))).mpr
      ⟨"invalid type: string \"hunter2\", expected i32", by decide +kernel, rfl⟩
  · exact (export_fails_iff .deployment scaled _ _ (create_declared _ _ _ rfl)
      ((replace_ok_iff _).mpr (by decide +kernel))).mpr
      ⟨"invalid type: string \"letmein\", expected i32", by decide +kernel, rfl⟩

end Template

end ManifestSecrets
