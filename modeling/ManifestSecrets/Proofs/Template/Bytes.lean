import ManifestSecrets.Proofs.Template.Settled

set_option autoImplicit false

namespace ManifestSecrets

theorem Kind.secret_policy_iff (kind : Kind) :
    ∀ subtree ∈ kind.subtrees, (subtree.2 = .secret ↔ kind = .secret ∧ subtree.1 = "data") := by
  cases kind <;> decide

namespace Policy

variable (secrets : SecretMap)

theorem shaped_bytesless (policy : Policy) (text : String) (shapes : policy ≠ .secret) :
    (policy.shaped text).EachLeaf Tree.NoBytes := by
  cases policy with
  | secret => exact absurd rfl shapes
  | _ => exact (Tree.each_leaf_single _ _ rfl).mpr trivial

theorem replace_bytesless (policy : Policy) (key value : String) (shapes : policy ≠ .secret) :
    (policy.replace key value secrets).value.EachLeaf Tree.NoBytes := by
  rcases Placeholder.whole_or_partial secrets (Placeholder.cut value.toList) with ⟨secret, whole⟩ | others
  · rw [replace_whole secrets policy key value secret whole]
    split
    · exact Tree.of_json_bytesless secret
    · split
      · exact shaped_bytesless policy _ shapes
      · exact (Tree.each_leaf_single _ _ rfl).mpr trivial
  · rw [replace_partial secrets policy key value others]
    exact shaped_bytesless policy _ shapes

-- A secret without a text would leave the field as it is, with an error.
theorem replace_resolved_bytes (key value : String) (resolved : ¬ Unresolved .secret secrets value) :
    ∃ b, (replace .secret key value secrets).value = .bytes b := by
  rcases Placeholder.whole_or_partial secrets (Placeholder.cut value.toList) with ⟨secret, whole⟩ | others
  · have hasText : secret.shapeName? = none := Classical.byContradiction fun noText =>
      resolved (.inr (whole_unsupported secrets .secret value secret whole (by simp) noText))
    rw [replace_whole secrets .secret key value secret whole, if_neg (by simp), if_pos hasText]
    exact ⟨_, rfl⟩
  · rw [replace_partial secrets .secret key value others]
    exact ⟨_, rfl⟩

end Policy

namespace Tree

theorem walk_bytesless (policy : Policy) (secrets : SecretMap) (key : String) (t : Tree) (shapes : policy ≠ .secret)
    (bytesless : t.EachLeaf NoBytes) : (walk policy secrets key t).value.EachLeaf NoBytes := by
  intro found member
  rcases (mem_walked_leaves_iff policy secrets key t found).mp member with ⟨old, -⟩ | ⟨path, s, -, inner, below, rfl⟩
  · exact bytesless found old
  · exact policy.replace_bytesless secrets _ s shapes inner below

end Tree

namespace Document

variable (secrets : SecretMap)

-- Bytes are in no other entry of the root than the mapping with the data of a Secret.
def Confined (kind : Kind) (d : Document) : Prop :=
  ∀ name value, (name, value) ∈ d.root →
    value.EachLeaf Tree.NoBytes ∨ (kind = .secret ∧ name = "data" ∧ ∃ entries, value = .mapping entries)

theorem bytesless_confined (kind : Kind) (d : Document) (bytesless : (Tree.mapping d.root).EachLeaf Tree.NoBytes) :
    d.Confined kind :=
  fun _ _ member => .inl ((Tree.each_leaf_mapping _ _).mp bytesless _ member)

theorem decoded_bytesless (d : Document)
    (source : (∃ value, ofYaml value = .ok d) ∨ ∃ value, ofJson value = .ok d) :
    (Tree.mapping d.root).EachLeaf Tree.NoBytes := by
  rcases source with ⟨value, decodes⟩ | ⟨value, decodes⟩
  · exact (of_yaml_decoded value d decodes).bytesless
  · rw [← of_tree_root _ d decodes]
    exact Tree.of_json_bytesless value

theorem confined_bytes (kind : Kind) (d : Document) (confined : d.Confined kind) (path : Path) (b : List UInt8)
    (member : (path, .bytes b) ∈ (Tree.mapping d.root).leaves) :
    kind = .secret ∧ ∃ step rest, path = .key "data" :: step :: rest := by
  obtain ⟨name, value, rest, inRoot, rfl, inside⟩ := (Tree.mem_entry_leaves _ _ _).mp member
  rcases confined name value inRoot with bytesless | ⟨isSecret, rfl, entries, rfl⟩
  · exact absurd (bytesless _ inside) id
  · obtain ⟨key, below, deeper, -, rfl, -⟩ := (Tree.mem_entry_leaves _ _ _).mp inside
    exact ⟨isSecret, _, _, rfl⟩

theorem filled_confined (kind : Kind) (d : Document) (name : String) (policy : Policy)
    (member : (name, policy) ∈ kind.subtrees) (confined : d.Confined kind) :
    (d.filled secrets name policy).Confined kind := by
  have payload := kind.secret_policy_iff (name, policy) member
  rcases d.eligible_or_skipped name with ⟨entries, here⟩ | skipped
  · rw [filled_mapping secrets d name policy entries here]
    intro other value inRoot
    rcases KeyMap.mem_insert inRoot with same | before
    · obtain ⟨rfl, rfl⟩ := Prod.mk.inj same
      by_cases shapes : policy = .secret
      · exact .inr ⟨(payload.mp shapes).1, (payload.mp shapes).2, _, rfl⟩
      · refine .inl (Tree.walk_bytesless policy secrets other (.mapping entries) shapes ?_)
        exact (confined _ _ (KeyMap.find_mem here)).resolve_right fun kept =>
          shapes (payload.mpr ⟨kept.1, kept.2.1⟩)
    · exact confined other value before
  · rwa [filled_skipped secrets d name policy skipped]

theorem filled_all_confined (kind : Kind) (d : Document) (subtrees : List (String × Policy))
    (members : ∀ subtree ∈ subtrees, subtree ∈ kind.subtrees) (confined : d.Confined kind) :
    (d.filledAll secrets subtrees).Confined kind := by
  induction subtrees generalizing d with
  | nil => exact confined
  | cons head rest ih =>
    obtain ⟨first, later⟩ := List.forall_mem_cons.mp members
    exact ih _ later (filled_confined secrets kind d head.1 head.2 first confined)

theorem filled_keeps_mapping (d : Document) (name field : String) (policy : Policy)
    (mapping : ∃ entries, d.root.find? field = some (.mapping entries)) :
    ∃ entries, (d.filled secrets name policy).root.find? field = some (.mapping entries) := by
  by_cases same : field = name
  · subst same
    obtain ⟨entries, here⟩ := mapping
    exact ⟨_, filled_find secrets d field policy entries here⟩
  · rwa [filled_find_other secrets d name field policy same]

theorem filled_all_keeps_mapping (d : Document) (field : String) (subtrees : List (String × Policy))
    (mapping : ∃ entries, d.root.find? field = some (.mapping entries)) :
    ∃ entries, (d.filledAll secrets subtrees).root.find? field = some (.mapping entries) := by
  induction subtrees generalizing d with
  | nil => exact mapping
  | cons head rest ih => exact ih _ (filled_keeps_mapping secrets d head.1 field head.2 mapping)

theorem filled_textless (d : Document) (name : String) (clear : d.unresolved secrets name .secret = []) (path : Path)
    (s : String) : (path, .text s) ∉ (d.filled secrets name .secret).leaves name := by
  intro member
  rcases (mem_filled_leaves_iff secrets d name .secret _).mp member with
    ⟨-, other⟩ | ⟨before, value, text, inner, below, same⟩
  · simp [Tree.text?] at other
  · have resolved := (unresolved_nil_iff_texts secrets d name .secret).mp clear before value text
    obtain ⟨b, bytes⟩ := Policy.replace_resolved_bytes secrets (Tree.fieldKey name before) value resolved
    rw [bytes] at below
    obtain rfl := List.mem_singleton.mp below
    simp [Tree.within] at same

end Document

namespace Template

theorem replace_confined (t : Template) (confined : t.document.Confined t.kind) :
    t.replace.1.document.Confined t.kind := by
  obtain ⟨touched, later, order, document, -⟩ := replace_front t
  rw [document]
  exact Document.filled_all_confined t.secrets t.kind t.document touched
    (fun subtree front => order ▸ List.mem_append_left later front) confined

theorem replace_keeps_mapping (t : Template) (field : String)
    (mapping : ∃ entries, t.document.root.find? field = some (.mapping entries)) :
    ∃ entries, t.replace.1.document.root.find? field = some (.mapping entries) := by
  obtain ⟨touched, later, -, document, -⟩ := replace_front t
  rw [document]
  exact Document.filled_all_keeps_mapping t.secrets t.document field touched mapping

theorem run_confined (t : Template) (confined : t.document.Confined t.kind) (n : Nat) :
    (t.replaceTimes n).document.Confined t.kind := by
  induction n with
  | zero => exact confined
  | succ n ih =>
    rw [← replace_times_kind t n] at ih ⊢
    exact replace_confined _ ih

theorem run_keeps_mapping (t : Template) (field : String)
    (mapping : ∃ entries, t.document.root.find? field = some (.mapping entries)) (n : Nat) :
    ∃ entries, (t.replaceTimes n).document.root.find? field = some (.mapping entries) := by
  induction n with
  | zero => exact mapping
  | succ n ih => exact replace_keeps_mapping _ field ih

theorem replace_ok_textless (t : Template) (isSecret : t.kind = .secret) (ok : t.replace.2.2 = .ok ()) (path : Path)
    (s : String) : (path, .text s) ∉ t.replace.1.document.leaves "data" := by
  have clear := (replace_ok_iff t).mp ok
  have payload : ("data", Policy.secret) ∈ t.kind.subtrees := by
    rw [isSecret]
    decide
  have filled := Document.filled_all_find t.secrets t.document _ "data" .secret (subtrees_distinct t.kind) payload
  rw [(replace_clear t clear).2, Document.leaves_same _ _ "data" filled]
  exact Document.filled_textless t.secrets t.document "data" (clear _ payload) path s

-- Failed replacements put bytes in too, so the first part is about all of them; the second needs a success.
theorem bytes_only_in_payload (kind : Kind) (document : Document) (secrets : SecretMap)
    (declared : document.kind? = some kind.name)
    (source : (∃ value, Document.ofYaml value = .ok document) ∨ ∃ value, Document.ofJson value = .ok document) :
    ∃ t, create document secrets = .ok t ∧ ∀ n,
      (∀ path b, (path, .bytes b) ∈ (Tree.mapping (t.replaceTimes n).document.root).leaves →
        kind = .secret ∧ ∃ step rest, path = .key "data" :: step :: rest) ∧
      (kind = .secret → (t.replaceTimes n).replace.2.2 = .ok () →
        (∃ entries, document.root.find? "data" = some (.mapping entries)) →
        ∃ filled, (t.replaceTimes (n + 1)).document.root.find? "data" = some (.mapping filled) ∧
          ∀ path s, (path, .text s) ∉ (Tree.mapping filled).leaves) := by
  refine ⟨_, create_declared kind document secrets declared, fun n => ⟨?_, ?_⟩⟩
  · have confined := Document.bytesless_confined kind document (document.decoded_bytesless source)
    exact Document.confined_bytes kind _ (run_confined { kind, document, secrets } confined n)
  · intro isSecret ok mapping
    obtain ⟨filled, here⟩ := run_keeps_mapping { kind, document, secrets } "data" mapping (n + 1)
    refine ⟨filled, here, fun path s => ?_⟩
    rw [← Document.leaves_mapping _ "data" filled here]
    exact replace_ok_textless _ (by rw [replace_times_kind, isSecret]) ok path s

def nestedPayload : KeyMap Json :=
  [("apiVersion", .text "v1"), ("data", .object [("keys", .array [.text "<pw>", .ofUnsigned 8])]),
    ("kind", .text "Secret"), ("metadata", .object [("name", .text "<pw>")])]

def nestedSecret : Document := ⟨Tree.entriesOfJson nestedPayload⟩

theorem bytes_only_in_payload_nested :
    ∃ t, create nestedSecret [("pw", .text "s3cr3t")] = .ok t ∧ t.replace.2.2 = .ok () ∧
      (∃ filled, (t.replaceTimes 1).document.root.find? "data" = some (.mapping filled) ∧
        ∀ path s, (path, .text s) ∉ (Tree.mapping filled).leaves) ∧
      ∀ b, ([.key "metadata", .key "name"], .bytes b) ∉ (Tree.mapping (t.replaceTimes 5).document.root).leaves := by
  have source : Document.ofJson (.object nestedPayload) = .ok nestedSecret := rfl
  obtain ⟨t, created, run⟩ := bytes_only_in_payload .secret nestedSecret [("pw", .text "s3cr3t")] (by decide)
    (.inr ⟨_, source⟩)
  obtain rfl := Except.ok.inj created
  have ok : (replace ⟨.secret, nestedSecret, [("pw", .text "s3cr3t")], [], false⟩).2.2 = .ok () :=
    (replace_ok_iff _).mpr (by decide +kernel)
  refine ⟨_, created, ok, (run 0).2 rfl ok ⟨_, rfl⟩, fun b member => ?_⟩
  obtain ⟨-, step, rest, same⟩ := (run 5).1 _ b member
  simp at same

end Template

end ManifestSecrets
