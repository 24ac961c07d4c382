import ManifestSecrets.Proofs.Shape.Records
import ManifestSecrets.Proofs.Template.Retry

set_option autoImplicit false

namespace ManifestSecrets

def Kind.outline : Kind → Shape.Outline
  | .deployment => Shape.Deployment.outline
  | .secret => Shape.Secret.outline
  | .configMap => Shape.ConfigMap.outline

theorem Exported.faithful (kind : Kind) : Shape.Faithful (decode kind) written kind.outline := by
  cases kind with
  | deployment => exact Shape.Deployment.described.faithful.wrapped .deployment written fun _ => rfl
  | secret => exact Shape.Secret.described.faithful.wrapped .secret written fun _ => rfl
  | configMap => exact Shape.ConfigMap.described.faithful.wrapped .configMap written fun _ => rfl

theorem Tree.to_json_scalar (leaf : Tree) (ends : leaf.isLeaf = true) (present : leaf ≠ .null) :
    leaf.toJson.isScalar = true := by
  cases leaf with
  | mapping entries => simp [isLeaf] at ends
  | sequence items => simp [isLeaf] at ends
  | null => exact absurd rfl present
  | _ => rfl

theorem Tree.at_text (t : Tree) (path : Path) (s : String) (here : (t.at? path).bind text? = some s) :
    t.at? path = some (.text s) := by
  obtain ⟨leaf, found, isText⟩ := Option.bind_eq_some_iff.mp here
  cases leaf with
  | text value =>
    obtain rfl := Option.some.inj isText
    exact found
  | _ => simp [text?] at isText

namespace Template

theorem exported_keeps (t : Template) (e : Exported) (ok : t.exported = .ok e) (path : Path) (leaf : Tree)
    (here : (Tree.mapping t.document.root).at? path = some leaf) (ends : leaf.isLeaf = true) (present : leaf ≠ .null) :
    e.written.at? path = .some leaf.toJson ↔ t.kind.outline.keeps path = true := by
  have decoded := ((exported_ok_iff t e).mp ok).2
  have source : t.document.toJson.at? path = .some leaf.toJson := by
    rw [Document.toJson, Tree.to_json_at, here, Option.map_some]
  exact (Exported.faithful t.kind).keeps _ e decoded path _ source (leaf.to_json_scalar ends present)

-- The number of replacements before the export does not matter, as long as there is an export.
theorem export_keeps_iff (kind : Kind) (document : Document) (secrets : SecretMap)
    (declared : document.kind? = some kind.name) :
    ∃ t, create document secrets = .ok t ∧ ∀ n e, (t.replaceTimes n).exported = .ok e →
      ∀ path leaf, (Tree.mapping (t.replaceTimes n).document.root).at? path = some leaf → leaf.isLeaf = true →
        leaf ≠ .null → (e.written.at? path = some leaf.toJson ↔ kind.outline.keeps path = true) := by
  refine ⟨_, create_declared kind document secrets declared, fun n e ok path leaf here ends present => ?_⟩
  have kept := exported_keeps _ e ok path leaf here ends present
  rwa [replace_times_kind] at kept

def ownedDeployment : Document :=
  ⟨[("apiVersion", .text "apps/v1"), ("kind", .text "Deployment"),
    ("metadata", .mapping [("finalizers", .sequence [.text "keep"]), ("name", .text "<app>")]), ("owner", .text "ops"),
    ("spec", .mapping [("selector", .mapping [("matchLabels", .mapping [("app", .text "<app>")])]),
      ("strategy", .mapping [("type", .text "<how>")]), ("template", .mapping [])])]⟩

def ownedSecrets : SecretMap := [("app", .text "web"), ("how", .text "Recreate")]

theorem export_keeps_owned :
    ownedDeployment.kind? = some Kind.deployment.name ∧ ∃ t e, create ownedDeployment ownedSecrets = .ok t ∧
      (t.replaceTimes 1).exported = .ok e ∧
      e.written.at? [.key "metadata", .key "finalizers", .index 0] = some (.text "keep") ∧
      e.written.at? [.key "spec", .key "strategy", .key "type"] = some (.text "Recreate") ∧
      e.written.at? [.key "owner"] ≠ some (.text "ops") := by
  have declared : ownedDeployment.kind? = some Kind.deployment.name := by decide
  obtain ⟨t, created, keeps⟩ := export_keeps_iff .deployment ownedDeployment ownedSecrets declared
  obtain rfl := Except.ok.inj ((create_declared .deployment _ ownedSecrets declared).symm.trans created)
  have exports : ((replaceTimes ⟨.deployment, ownedDeployment, ownedSecrets, [], false⟩ 1).exported).isOk = true := by
    decide +kernel
  cases ok : (replaceTimes ⟨.deployment, ownedDeployment, ownedSecrets, [], false⟩ 1).exported with
  | error cause => simp [ok, Except.isOk, Except.toBool] at exports
  | ok e =>
    have kept := fun path s here => keeps 1 e ok path (.text s) (Tree.at_text _ path s here) rfl (by simp)
    refine ⟨declared, _, e, created, ok, ?_, ?_, ?_⟩
    · exact (kept _ "keep" (by decide +kernel)).mpr (by decide)
    · exact (kept _ "Recreate" (by decide +kernel)).mpr (by decide)
    · exact fun written => absurd ((kept _ "ops" (by decide +kernel)).mp written) (by decide)

def ownedSecret : Document := ⟨[("apiVersion", .text "v1"), ("kind", .text "Secret"), ("owner", .text "ops")]⟩

theorem secret_owner_dropped :
    ∃ t e, create ownedSecret [] = .ok t ∧ t.replace.2.2 = .ok () ∧ t.replace.1.exported = .ok e ∧
      (Tree.mapping t.replace.1.document.root).at? [.key "owner"] = some (.text "ops") ∧
      e.written.at? [.key "owner"] = none :=
  ⟨_, _, rfl, rfl, rfl, rfl, rfl⟩

end Template

end ManifestSecrets
