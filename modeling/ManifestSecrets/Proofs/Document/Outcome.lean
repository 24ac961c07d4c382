import ManifestSecrets.Proofs.Document.Entries
import ManifestSecrets.Proofs.Yaml.Faults

set_option autoImplicit false

namespace ManifestSecrets

namespace Tree

def failure? {α : Type} : Except StructuralError α → Option StructuralError
  | .ok _ => none
  | .error e => some e

theorem failure_some_iff {α : Type} (x : Except StructuralError α) (e : StructuralError) :
    failure? x = some e ↔ x = .error e := by
  cases x <;> simp [failure?]

theorem failure_none_iff {α : Type} (x : Except StructuralError α) : failure? x = none ↔ ∃ a, x = .ok a := by
  cases x <;> simp [failure?]

-- A first step that fails is the end; the second one counts only where it does not.
theorem failure_bind {α β : Type} (x : Except StructuralError α) (f : α → Except StructuralError β)
    (later : Option StructuralError) (same : ∀ a, failure? (f a) = later) :
    failure? (x >>= f) = (failure? x).or later := by
  cases x with
  | error e => rfl
  | ok a => exact same a

theorem failure_map {α β : Type} (x : Except StructuralError α) (f : α → β) :
    failure? (x >>= fun a => pure (f a)) = failure? x := by
  rw [failure_bind x _ none fun _ => rfl, Option.or_none]

mutual
theorem of_yaml_failure (path : String) (value : Yaml) :
    failure? (ofYaml path value) = Yaml.first? (Yaml.faults path value) := by
  cases value with
  | mapping entries =>
    rw [ofYaml, failure_map]
    exact entries_of_yaml_failure path 0 [] entries
  | sequence items =>
    rw [ofYaml, failure_map]
    exact items_of_yaml_failure path 0 items
  | number n =>
    by_cases finite : n.isFinite <;> simp [of_yaml_number, Yaml.faults, finite, failure?, Yaml.first?]
  | _ => rfl

theorem items_of_yaml_failure (path : String) (i : Nat) (items : List Yaml) :
    failure? (itemsOfYaml path i items) = Yaml.first? (Yaml.itemFaults path i items) := by
  cases items with
  | nil => rfl
  | cons item rest =>
    rw [itemsOfYaml, failure_bind _ _ (failure? (itemsOfYaml path (i + 1) rest)) fun _ => failure_map _ _,
      of_yaml_failure _ item, items_of_yaml_failure path (i + 1) rest, Yaml.itemFaults, Yaml.first_append,
      Yaml.first_under]

theorem entries_of_yaml_failure (path : String) (i : Nat) (seen : KeyMap Tree) (entries : List (Yaml × Yaml)) :
    failure? (entriesOfYaml path seen entries) = Yaml.first? (Yaml.entryFaults path i entries) := by
  cases entries with
  | nil => rfl
  | cons head rest =>
    obtain ⟨key, value⟩ := head
    cases named : keyText? key with
    | none =>
      rw [Yaml.entry_faults_nameless path i key value rest named, entriesOfYaml, named]
      rfl
    | some name =>
      rw [Yaml.entry_faults_named path i key value rest name named, Yaml.first_append, Yaml.first_under,
        ← of_yaml_failure _ value, entriesOfYaml, named]
      exact failure_bind _ _ _ fun decoded => entries_of_yaml_failure path (i + 1) _ rest
end

theorem of_yaml_error_iff (path : String) (value : Yaml) (e : StructuralError) :
    ofYaml path value = .error e ↔ value.FirstFault path e := by
  rw [← failure_some_iff, of_yaml_failure, Yaml.first_fault_iff]

theorem of_yaml_ok_iff (path : String) (value : Yaml) : (∃ t, ofYaml path value = .ok t) ↔ value.Expressible := by
  rw [← failure_none_iff, of_yaml_failure, Yaml.first?, Option.map_eq_none_iff, List.head?_eq_none_iff,
    Yaml.faults_nil_iff]

theorem of_yaml_type (path : String) (value : Yaml) (t : Tree) (ok : ofYaml path value = .ok t) :
    t.typeName = value.typeName := by
  cases value with
  | mapping entries =>
    obtain ⟨found, rfl, -⟩ := of_yaml_mapping path entries t ok
    rfl
  | sequence items =>
    obtain ⟨found, rfl, -⟩ := of_yaml_sequence path items t ok
    rfl
  | number n =>
    obtain ⟨-, rfl⟩ := of_yaml_number_ok path n t ok
    rfl
  | tagged tag inner => simp [ofYaml] at ok
  | _ =>
    obtain rfl := Except.ok.inj ok
    rfl

theorem mapping_type_iff (t : Tree) : t.typeName = "mapping" ↔ ∃ root, t = .mapping root := by
  cases t <;> simp [typeName]

theorem of_yaml_mapping_iff (path : String) (value : Yaml) (t : Tree) (ok : ofYaml path value = .ok t) :
    (∃ root, t = .mapping root) ↔ ∃ entries, value = .mapping entries := by
  rw [← mapping_type_iff, of_yaml_type path value t ok, Yaml.mapping_type_iff]

theorem of_yaml_number_iff (path : String) (value : Yaml) (t : Tree) (ok : ofYaml path value = .ok t) (n : Number) :
    t = .number n ↔ value = .number n := by
  have named := of_yaml_type path value t ok
  constructor
  · rintro rfl
    cases value with
    | number m => rw [Tree.number.inj (of_yaml_number_ok path m _ ok).2]
    | _ => simp [typeName, Yaml.typeName] at named
  · rintro rfl
    exact (of_yaml_number_ok path n t ok).2

theorem number_at_iff (path : String) (value : Yaml) (t : Tree) (ok : ofYaml path value = .ok t) (place : Path)
    (n : Number) : t.at? place = some (.number n) ↔ value.at? place = some (.number n) := by
  obtain ⟨found, absent⟩ := of_yaml_at path place value t ok
  cases here : value.at? place with
  | none => simp [absent here]
  | some inner =>
    obtain ⟨u, there, decoded⟩ := found inner here
    rw [there, Option.some.injEq, Option.some.injEq]
    exact of_yaml_number_iff _ inner u decoded n

end Tree

namespace Document

theorem of_tree_ok_iff (t : Tree) : (∃ d, ofTree t = .ok d) ↔ ∃ root, t = .mapping root := by
  cases t <;> simp [ofTree]

theorem of_tree_error_iff (t : Tree) (e : StructuralError) :
    ofTree t = .error e ↔ (∀ root, t ≠ .mapping root) ∧ e = .notAMapping "" t.typeName := by
  cases t <;> simp [ofTree, eq_comm]

theorem of_yaml_refused (value : Yaml) (cause : StructuralError) (refused : Tree.ofYaml "" value = .error cause) :
    ofYaml value = .error cause ∧ ¬ value.Expressible := by
  refine ⟨by rw [ofYaml, refused]; rfl, ?_⟩
  simp [← Tree.of_yaml_ok_iff "" value, refused]

theorem of_yaml_rooted (value : Yaml) (t : Tree) (decoded : Tree.ofYaml "" value = .ok t) :
    ofYaml value = ofTree t ∧ value.Expressible :=
  ⟨by rw [ofYaml, decoded]; rfl, (Tree.of_yaml_ok_iff "" value).mp ⟨t, decoded⟩⟩

theorem of_yaml_decodes_iff (value : Yaml) :
    (∃ d, ofYaml value = .ok d) ↔ (∃ entries, value = .mapping entries) ∧ value.Expressible := by
  cases decoded : Tree.ofYaml "" value with
  | error cause =>
    obtain ⟨refused, faulty⟩ := of_yaml_refused value cause decoded
    exact iff_of_false (by simp [refused]) fun both => faulty both.2
  | ok t =>
    obtain ⟨rooted, expressible⟩ := of_yaml_rooted value t decoded
    rw [rooted, of_tree_ok_iff, Tree.of_yaml_mapping_iff "" value t decoded]
    exact (and_iff_left expressible).symm

theorem of_yaml_refuses_iff (value : Yaml) (e : StructuralError) :
    ofYaml value = .error e ↔ value.FirstFault "" e ∨
      (value.Expressible ∧ (∀ entries, value ≠ .mapping entries) ∧ e = .notAMapping "" value.typeName) := by
  rw [← Tree.of_yaml_error_iff "" value]
  cases decoded : Tree.ofYaml "" value with
  | error cause =>
    obtain ⟨refused, faulty⟩ := of_yaml_refused value cause decoded
    rw [refused, or_iff_left fun both => faulty both.1, Except.error.injEq, Except.error.injEq]
  | ok t =>
    obtain ⟨rooted, expressible⟩ := of_yaml_rooted value t decoded
    have mapping := Tree.of_yaml_mapping_iff "" value t decoded
    rw [rooted, of_tree_error_iff, or_iff_right (by simp), and_iff_right expressible,
      Tree.of_yaml_type "" value t decoded, ← not_exists, mapping, not_exists]

theorem decoding_outcome (value : Yaml) :
    ((∃ d, ofYaml value = .ok d) ↔ (∃ entries, value = .mapping entries) ∧ value.Expressible) ∧
    (∀ e, ofYaml value = .error e ↔ value.FirstFault "" e ∨
      (value.Expressible ∧ (∀ entries, value ≠ .mapping entries) ∧ e = .notAMapping "" value.typeName)) ∧
    ∀ d, ofYaml value = .ok d → ∀ place n,
      ((Tree.mapping d.root).at? place = some (.number n) ↔ value.at? place = some (.number n)) :=
  ⟨of_yaml_decodes_iff value, of_yaml_refuses_iff value,
    fun d ok => Tree.number_at_iff "" value _ (of_yaml_root value d ok)⟩

def faultyPorts : Yaml :=
  .mapping [(.text "kind", .text "Secret"),
    (.text "data", .mapping [
      (.number (.integer (.ofUnsigned 8080)), .sequence [.text "http", .mapping [(.null, .tagged "!v" .null)]]),
      (.sequence [], .bool true)]),
    (.text "ratio", .number (.float .nan))]

def greatestPort : Yaml := .mapping [(.bool true, .sequence [.null, .number (.integer (.ofUnsigned 18446744073709551615))])]

-- The tag below the null key has no path, and the key comes before it.
theorem decoding_outcome_ports :
    ofYaml faultyPorts = .error (.nonStringKey "data.8080[1]" "Null") ∧
      ofYaml (.sequence [faultyPorts]) = .error (.nonStringKey "[0].data.8080[1]" "Null") ∧
      ofYaml (.sequence [greatestPort]) = .error (.notAMapping "" "sequence") ∧
      ∃ d, ofYaml greatestPort = .ok d ∧
        (Tree.mapping d.root).at? [.key "true", .index 1] = some (.number (.integer (.ofUnsigned 18446744073709551615))) := by
  have first : faultyPorts.FirstFault "" (.nonStringKey "data.8080[1]" "Null") :=
    (Yaml.first_fault_iff _ _ _).mp (by decide +kernel)
  have inSequence : (Yaml.sequence [faultyPorts]).FirstFault "" (.nonStringKey "[0].data.8080[1]" "Null") :=
    (Yaml.first_fault_iff _ _ _).mp (by decide +kernel)
  have expressible : (Yaml.sequence [greatestPort]).Expressible :=
    (Yaml.faults_nil_iff "" _).mp (by decide +kernel)
  obtain ⟨d, ok⟩ := (decoding_outcome greatestPort).1.mpr
    ⟨⟨_, rfl⟩, (Yaml.expressible_sequence_iff _).mp expressible _ List.mem_cons_self⟩
  refine ⟨((decoding_outcome _).2.1 _).mpr (.inl first), ((decoding_outcome _).2.1 _).mpr (.inl inSequence),
    ((decoding_outcome _).2.1 _).mpr (.inr ⟨expressible, by simp, rfl⟩), d, ok, ?_⟩
  exact ((decoding_outcome _).2.2 d ok _ _).mpr rfl

end Document

end ManifestSecrets
