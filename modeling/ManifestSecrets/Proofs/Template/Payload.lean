import ManifestSecrets.Proofs.Retry
import ManifestSecrets.Proofs.Shape.Decoder
import ManifestSecrets.Proofs.Template.Replace
import Mathlib.Data.List.Forall2

set_option autoImplicit false

namespace ManifestSecrets

namespace Placeholder

-- The text with every token replaced, none of them of an unknown name.
def FillsText (secrets : SecretMap) (key value text : String) : Prop :=
  ∃ pieces, IsCut pieces ∧ joined pieces = value.toList ∧ Fills secrets key value pieces text []

def FillsMap (secrets : SecretMap) (entries texts : KeyMap String) : Prop :=
  List.Forall₂ (fun entry filled => filled.1 = entry.1 ∧ FillsText secrets entry.1 entry.2 filled.2) entries texts

theorem fills_text_whole (secrets : SecretMap) (key value : String) (secret : Json)
    (whole : Whole secrets (cut value.toList) secret) : FillsText secrets key value secret.write := by
  obtain ⟨other, inner, n, sole, named, found⟩ := whole
  have fills : Fills secrets key value [.token inner] (secret.write ++ "") [] := .display named found other .done
  rw [String.append_empty, ← sole] at fills
  exact ⟨_, cut_is_cut _, cut_chars _, fills⟩

theorem fills_text_partial (secrets : SecretMap) (key value : String)
    (known : missing key value secrets (cut value.toList) = []) :
    FillsText secrets key value (refill secrets value) := by
  have fills := fills_replaced secrets key value (cut value.toList)
  rw [known] at fills
  exact ⟨_, cut_is_cut _, cut_chars _, fills⟩

end Placeholder

open Placeholder

theorem Policy.replace_fills (policy : Policy) (shapes : policy ≠ .generic) (secrets : SecretMap) (key value : String)
    (resolved : policy.unresolved secrets key value = []) :
    ∃ text, FillsText secrets key value text ∧ (policy.replace key value secrets).value = policy.shaped text := by
  rcases whole_or_partial secrets (cut value.toList) with ⟨secret, whole⟩ | others
  · have hasText : secret.shapeName? = none := by
      apply Classical.byContradiction
      intro noText
      have unsupported := whole_unsupported secrets policy value secret whole shapes noText
      exact (unresolved_nil_iff policy secrets key value).mp resolved (.inr unsupported)
    refine ⟨_, fills_text_whole secrets key value secret whole, ?_⟩
    rw [replace_whole secrets policy key value secret whole, if_neg shapes, if_pos hasText]
  · rw [unresolved_partial policy secrets key value others] at resolved
    exact ⟨_, fills_text_partial secrets key value resolved, replace_partial secrets policy key value others⟩

theorem Tree.walk_entries_texts (policy : Policy) (shapes : policy ≠ .generic) (secrets : SecretMap)
    (entries : KeyMap String) (resolved : (walkEntries policy secrets (KeyMap.mapValues .text entries)).errors = []) :
    ∃ texts, FillsMap secrets entries texts ∧
      (walkEntries policy secrets (KeyMap.mapValues .text entries)).value = KeyMap.mapValues policy.shaped texts := by
  induction entries with
  | nil => exact ⟨[], .nil, rfl⟩
  | cons head rest ih =>
    obtain ⟨key, value⟩ := head
    obtain ⟨here, others⟩ := List.append_eq_nil_iff.mp resolved
    have known : policy.unresolved secrets key value = [] := by
      rw [← Policy.replace_errors]
      exact here
    obtain ⟨text, fills, shaped⟩ := policy.replace_fills shapes secrets key value known
    obtain ⟨texts, later, same⟩ := ih others
    refine ⟨(key, text) :: texts, .cons ⟨rfl, fills⟩ later, ?_⟩
    exact congrArg₂ (fun v entries => (key, v) :: entries) shaped same

namespace Document

def HoldsTexts (d : Document) (name : String) (entries : KeyMap String) : Prop :=
  KeyMap.HoldsMap .mapping d.root name (KeyMap.mapValues .text entries)

structure Bare (d : Document) (kind : Kind) (absent : List String) (apiVersion : String) : Prop where
  version : d.root.find? "apiVersion" = some (.text apiVersion)
  declared : d.kind? = some kind.name
  absent : ∀ name ∈ absent, d.root.find? name = none

theorem bare_kind (d : Document) (kind : Kind) (absent : List String) (apiVersion : String)
    (bare : d.Bare kind absent apiVersion) : d.root.find? "kind" = some (.text kind.name) :=
  (kind_iff d kind.name).mp bare.declared

variable (secrets : SecretMap)

theorem payload_filled (d : Document) (name : String) (policy : Policy) (shapes : policy ≠ .generic)
    (entries : KeyMap String) (held : d.HoldsTexts name entries) (clear : d.unresolved secrets name policy = []) :
    ∃ texts, FillsMap secrets entries texts ∧
      KeyMap.HoldsMap .mapping (d.filled secrets name policy).root name (KeyMap.mapValues policy.shaped texts) := by
  rcases held with here | ⟨absent, empty⟩
  · rw [unresolved_mapping secrets d name policy _ here] at clear
    obtain ⟨texts, fills, same⟩ := Tree.walk_entries_texts policy shapes secrets entries clear
    refine ⟨texts, fills, .inl ?_⟩
    rw [filled_find secrets d name policy _ here, same]
  · obtain rfl := List.map_eq_nil_iff.mp empty
    refine ⟨[], .nil, .inr ⟨?_, rfl⟩⟩
    rw [filled_skipped secrets d name policy (by simp [absent]), absent]

theorem holds_map_to_json (root : KeyMap Tree) (name : String) (entries : KeyMap Tree)
    (held : KeyMap.HoldsMap .mapping root name entries) :
    KeyMap.HoldsMap .object (KeyMap.mapValues Tree.toJson root) name (KeyMap.mapValues Tree.toJson entries) := by
  rcases held with here | ⟨absent, empty⟩
  · refine .inl ?_
    rw [KeyMap.find_map_values, here, Option.map_some, Tree.toJson, Tree.entries_to_json]
  · refine .inr ⟨?_, by rw [empty]; rfl⟩
    rw [KeyMap.find_map_values, absent, Option.map_none]

def outgoing (d : Document) (kind : Kind) : KeyMap Json :=
  KeyMap.mapValues Tree.toJson (d.filledAll secrets kind.subtrees).root

theorem outgoing_kept (d : Document) (kind : Kind) (name : String)
    (flat : ∀ entries, d.root.find? name ≠ some (.mapping entries)) :
    KeyMap.find? name (d.outgoing secrets kind) = (d.root.find? name).map Tree.toJson := by
  have rewritten := filled_all_rewritten secrets d kind.subtrees (Template.subtrees_distinct kind)
  have kept := rewritten.kept name fun _ entries _ => flat entries
  rw [outgoing, KeyMap.find_map_values, kept]

theorem bare_outgoing (d : Document) (kind : Kind) (absent : List String) (apiVersion : String)
    (bare : d.Bare kind absent apiVersion) :
    KeyMap.find? "apiVersion" (d.outgoing secrets kind) = some (.text apiVersion) ∧
      KeyMap.find? "kind" (d.outgoing secrets kind) = some (.text kind.name) ∧
      ∀ name ∈ absent, KeyMap.find? name (d.outgoing secrets kind) = none := by
  have version := bare.version
  have declared := d.bare_kind kind absent apiVersion bare
  refine ⟨?_, ?_, fun name member => ?_⟩
  · rw [outgoing_kept secrets d kind _ (by simp [version]), version]
    rfl
  · rw [outgoing_kept secrets d kind _ (by simp [declared]), declared]
    rfl
  · have missing := bare.absent name member
    rw [outgoing_kept secrets d kind _ (by simp [missing]), missing]
    rfl

theorem payload_outgoing (d : Document) (kind : Kind) (name : String) (policy : Policy) (shapes : policy ≠ .generic)
    (member : (name, policy) ∈ kind.subtrees) (entries : KeyMap String) (held : d.HoldsTexts name entries)
    (clear : d.unresolved secrets name policy = []) :
    ∃ texts, FillsMap secrets entries texts ∧ KeyMap.HoldsMap .object (d.outgoing secrets kind) name
      (KeyMap.mapValues (Tree.toJson ∘ policy.shaped) texts) := by
  obtain ⟨texts, fills, filled⟩ := payload_filled secrets d name policy shapes entries held clear
  refine ⟨texts, fills, ?_⟩
  rw [← KeyMap.map_values_map_values]
  apply holds_map_to_json
  rwa [KeyMap.HoldsMap, filled_all_find secrets d kind.subtrees name policy (Template.subtrees_distinct kind) member]

end Document

def Shape.Codes (data : KeyMap (List UInt8)) (codes : KeyMap String) : Prop :=
  List.Forall₂ (fun stored code => code.1 = stored.1 ∧ Text.Base64.IsStandard stored.2 code.2) data codes

theorem Shape.bytes_codes (data : KeyMap (List UInt8)) : Shape.Codes data (KeyMap.mapValues Text.Base64.encode data) := by
  induction data with
  | nil => exact .nil
  | cons head rest ih => exact .cons ⟨rfl, Text.Base64.encode_standard head.2⟩ ih

namespace Template

def ExportsSecret (t : Template) (secrets : SecretMap) (apiVersion : String) (data stringData : KeyMap String) : Prop :=
  ∃ texts strings codes fields, FillsMap secrets data texts ∧ FillsMap secrets stringData strings ∧
    t.exported = .ok (.secret (.ofPayload apiVersion "Secret" (KeyMap.mapValues Text.utf8 texts) strings)) ∧
    t.toYaml = .ok (Yaml.write (.object fields)) ∧ Shape.Codes (KeyMap.mapValues Text.utf8 texts) codes ∧
    KeyMap.HoldsMap .object fields "data" (KeyMap.mapValues .text codes) ∧
    KeyMap.HoldsMap .object fields "stringData" (KeyMap.mapValues .text strings)

def ExportsConfigMap (t : Template) (secrets : SecretMap) (apiVersion : String) (data : KeyMap String) : Prop :=
  ∃ texts fields, FillsMap secrets data texts ∧
    t.exported = .ok (.configMap (.ofPayload apiVersion "ConfigMap" texts)) ∧
    t.toYaml = .ok (Yaml.write (.object fields)) ∧
    KeyMap.HoldsMap .object fields "data" (KeyMap.mapValues .text texts)

theorem replaced_exported (t : Template) (ok : t.replace.2.2 = .ok ()) (e : Exported)
    (decodes : Exported.decode t.kind (.object (t.document.outgoing t.secrets t.kind)) = .ok e) :
    t.replace.1.exported = .ok e ∧ t.replace.1.toYaml = .ok (Yaml.write e.written) := by
  have after := (replace_clear t ((replace_ok_iff t).mp ok)).2
  have exported : t.replace.1.exported = .ok e := by
    rw [after, exported_ok_iff, Document.to_json_root]
    exact ⟨rfl, decodes⟩
  exact ⟨exported, by rw [toYaml, exported]; rfl⟩

theorem replaced_secret (document : Document) (secrets : SecretMap) (apiVersion : String)
    (data stringData : KeyMap String) (bare : document.Bare .secret Shape.Secret.optionals apiVersion)
    (dataHeld : document.HoldsTexts "data" data) (stringsHeld : document.HoldsTexts "stringData" stringData)
    (ok : (replace { kind := .secret, document, secrets }).2.2 = .ok ()) :
    (replace { kind := .secret, document, secrets }).1.ExportsSecret secrets apiVersion data stringData := by
  have clear := (replace_ok_iff _).mp ok
  have dataClear := clear ("data", .secret) (by simp [Kind.subtrees])
  have stringsClear := clear ("stringData", .string) (by simp [Kind.subtrees])
  obtain ⟨texts, dataFills, dataOut⟩ := document.payload_outgoing secrets .secret "data" .secret (by decide)
    (by simp [Kind.subtrees]) data dataHeld dataClear
  obtain ⟨strings, stringsFill, stringsOut⟩ := document.payload_outgoing secrets .secret "stringData" .string (by decide)
    (by simp [Kind.subtrees]) stringData stringsHeld stringsClear
  obtain ⟨version, declared, absent⟩ := document.bare_outgoing secrets .secret _ apiVersion bare
  have bytesOut : KeyMap.mapValues Shape.bytesJson (KeyMap.mapValues Text.utf8 texts) =
      KeyMap.mapValues (Tree.toJson ∘ Policy.secret.shaped) texts := KeyMap.map_values_map_values _ _ _
  rw [← bytesOut] at dataOut
  have decoded := Shape.Secret.payload_decoded _ apiVersion "Secret" (KeyMap.mapValues Text.utf8 texts) strings
    version declared absent dataOut stringsOut
  have decodes := congrArg (Except.map Exported.secret) decoded
  obtain ⟨exported, written⟩ := replaced_exported { kind := .secret, document, secrets } ok _ decodes
  obtain ⟨fields, same, dataWritten, stringsWritten⟩ :=
    Shape.Secret.payload_written (.ofPayload apiVersion "Secret" (KeyMap.mapValues Text.utf8 texts) strings)
  rw [Exported.written, same] at written
  refine ⟨texts, strings, _, fields, dataFills, stringsFill, exported, written, Shape.bytes_codes _, ?_,
    stringsWritten⟩
  rwa [KeyMap.map_values_map_values]

theorem replaced_config_map (document : Document) (secrets : SecretMap) (apiVersion : String) (data : KeyMap String)
    (bare : document.Bare .configMap Shape.ConfigMap.optionals apiVersion) (held : document.HoldsTexts "data" data)
    (ok : (replace { kind := .configMap, document, secrets }).2.2 = .ok ()) :
    (replace { kind := .configMap, document, secrets }).1.ExportsConfigMap secrets apiVersion data := by
  have clear := (replace_ok_iff _).mp ok ("data", .string) (by simp [Kind.subtrees])
  obtain ⟨texts, fills, out⟩ := document.payload_outgoing secrets .configMap "data" .string (by decide)
    (by simp [Kind.subtrees]) data held clear
  obtain ⟨version, declared, absent⟩ := document.bare_outgoing secrets .configMap _ apiVersion bare
  have decoded := Shape.ConfigMap.payload_decoded _ apiVersion "ConfigMap" texts version declared absent out
  have decodes := congrArg (Except.map Exported.configMap) decoded
  obtain ⟨exported, written⟩ := replaced_exported { kind := .configMap, document, secrets } ok _ decodes
  obtain ⟨fields, same, textsWritten⟩ := Shape.ConfigMap.payload_written (.ofPayload apiVersion "ConfigMap" texts)
  rw [Exported.written, same] at written
  exact ⟨texts, fields, fills, exported, written, textsWritten⟩

theorem export_payload (document : Document) (secrets : SecretMap) (apiVersion : String)
    (data stringData : KeyMap String) :
    (document.Bare .secret Shape.Secret.optionals apiVersion → document.HoldsTexts "data" data →
      document.HoldsTexts "stringData" stringData → ∃ t, create document secrets = .ok t ∧
        (t.replace.2.2 = .ok () → t.replace.1.ExportsSecret secrets apiVersion data stringData)) ∧
    (document.Bare .configMap Shape.ConfigMap.optionals apiVersion → document.HoldsTexts "data" data →
      ∃ t, create document secrets = .ok t ∧
        (t.replace.2.2 = .ok () → t.replace.1.ExportsConfigMap secrets apiVersion data)) := by
  constructor
  · intro bare dataHeld stringsHeld
    have created := create_declared .secret document secrets bare.declared
    exact ⟨_, created, replaced_secret document secrets apiVersion data stringData bare dataHeld stringsHeld⟩
  · intro bare held
    have created := create_declared .configMap document secrets bare.declared
    exact ⟨_, created, replaced_config_map document secrets apiVersion data bare held⟩

def portSecret : Document :=
  ⟨[("apiVersion", .text "v1"), ("data", .mapping [("port", .text "<port>"), ("url", .text "db:<port>/<name>")]),
    ("kind", .text "Secret")]⟩

def portMap : Document :=
  ⟨[("apiVersion", .text "v1"), ("data", .mapping [("open", .text "<open>")]), ("kind", .text "ConfigMap")]⟩

def portSecrets : SecretMap := [("name", .text "räv"), ("open", .bool true), ("port", .ofUnsigned 5432)]

theorem export_payload_port :
    (∃ t, create portSecret portSecrets = .ok t ∧ t.replace.2.2 = .ok () ∧
      t.replace.1.ExportsSecret portSecrets "v1" [("port", "<port>"), ("url", "db:<port>/<name>")] [] ∧
      t.replace.1.toYaml.toOption = some
        "apiVersion: v1\nkind: Secret\nmetadata: \x7b\x7d\ndata:\n  port: NTQzMg==\n  url: ZGI6NTQzMi9yw6R2\n") ∧
    ∃ t, create portMap portSecrets = .ok t ∧ t.replace.2.2 = .ok () ∧
      t.replace.1.ExportsConfigMap portSecrets "v1" [("open", "<open>")] ∧
      t.replace.1.toYaml.toOption = some
        "apiVersion: v1\nkind: ConfigMap\nmetadata: \x7b\x7d\ndata:\n  open: 'true'\n" := by
  have secretDeclared : portSecret.kind? = some Kind.secret.name := by decide
  have secretBare : portSecret.Bare .secret Shape.Secret.optionals "v1" := by
    refine ⟨rfl, secretDeclared, ?_⟩
    simp [Shape.Secret.optionals, portSecret, KeyMap.find?]
  have mapDeclared : portMap.kind? = some Kind.configMap.name := by decide
  have mapBare : portMap.Bare .configMap Shape.ConfigMap.optionals "v1" := by
    refine ⟨rfl, mapDeclared, ?_⟩
    simp [Shape.ConfigMap.optionals, portMap, KeyMap.find?]
  constructor
  · obtain ⟨t, created, exports⟩ := (export_payload portSecret portSecrets "v1"
      [("port", "<port>"), ("url", "db:<port>/<name>")] []).1 secretBare (.inl rfl) (.inr ⟨rfl, rfl⟩)
    obtain rfl := Except.ok.inj ((create_declared .secret _ portSecrets secretDeclared).symm.trans created)
    have ok : (replace { kind := .secret, document := portSecret, secrets := portSecrets }).2.2 = .ok () :=
      (replace_ok_iff _).mpr (by decide +kernel)
    exact ⟨_, created, ok, exports ok, by decide +kernel⟩
  · obtain ⟨t, created, exports⟩ :=
      (export_payload portMap portSecrets "v1" [("open", "<open>")] []).2 mapBare (.inl rfl)
    obtain rfl := Except.ok.inj ((create_declared .configMap _ portSecrets mapDeclared).symm.trans created)
    have ok : (replace { kind := .configMap, document := portMap, secrets := portSecrets }).2.2 = .ok () :=
      (replace_ok_iff _).mpr (by decide +kernel)
    exact ⟨_, created, ok, exports ok, by decide +kernel⟩

end Template

end ManifestSecrets
