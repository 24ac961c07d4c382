import ManifestSecrets.Proofs.Json.Same
import ManifestSecrets.Proofs.Manifest.Render
import ManifestSecrets.Proofs.Manifest.Generate
import ManifestSecrets.Proofs.Yaml.Stream
import ManifestSecrets.Proofs.Yaml.Writer

set_option autoImplicit false

namespace ManifestSecrets

theorem Exported.written_versioned (e : Exported) :
    ∃ version rest, e.written = .object (("apiVersion", .text version) :: rest) := by
  cases e with
  | deployment d => exact ⟨d.apiVersion, _, rfl⟩
  | secret s => exact ⟨s.apiVersion, _, rfl⟩
  | configMap c => exact ⟨c.apiVersion, _, rfl⟩

theorem Exported.yaml_starts (e : Exported) : ∃ rest, e.toYaml.toList = 'a' :: rest := by
  obtain ⟨version, rest, written⟩ := e.written_versioned
  have key : Yaml.Writer.keyText 0 "apiVersion" = ("apiVersion:", .afterKey) := by decide +kernel
  simp [toYaml, written, Yaml.write, Yaml.Writer.value, Yaml.Writer.mappingIndent, Yaml.Writer.opening, key]

theorem Exported.written_some (e : Exported) : (Yaml.ofJson e.written).isNull = false := by
  obtain ⟨version, rest, written⟩ := e.written_versioned
  rw [written]
  rfl

theorem Exported.yaml_single (e : Exported) (back : Yaml.readAll e.toYaml = .ok [.ofJson e.written]) :
    Yaml.Single e.toYaml (.ofJson e.written) := by
  refine ⟨?_, ?_, back, ?_⟩
  · obtain ⟨rest, starts⟩ := e.yaml_starts
    exact ⟨'a', rest, starts, rfl⟩
  · obtain ⟨front, b, ends, broken⟩ := Yaml.write_ends e.written
    intro last found
    rw [toYaml, ends, List.getLast?_concat] at found
    exact Option.some.inj found ▸ broken
  · exact e.written_some

namespace Manifest

def shape? (secrets : SecretMap) (m : Manifest) : Option Exported := do
  let d ← (Document.ofYaml m.value).toOption
  let t ← (Template.create d secrets).toOption
  t.replace.2.2.toOption
  t.replace.1.exported.toOption

def Exports (secrets : SecretMap) (m : Manifest) (e : Exported) : Prop := shape? secrets m = some e

theorem renders_exported (secrets : SecretMap) (m : Manifest) (text : String) (renders : RendersTo secrets m text) :
    ∃ e, Exports secrets m e ∧ e.toYaml = text := by
  rw [RendersTo, render, Run.bind_ok_iff] at renders
  obtain ⟨d, decoded, renders⟩ := renders
  obtain ⟨t, created, renders⟩ := (Run.bind_ok_iff _ _ _).mp renders
  obtain ⟨⟨⟩, replaced, written⟩ := (Run.bind_ok_iff _ _ _).mp renders
  obtain ⟨e, exported, same⟩ := map_ok (show t.replace.1.exported.map Exported.toYaml = .ok text from written)
  have created : Template.create d secrets = .ok t := created
  have replaced : t.replace.2.2 = .ok () := replaced
  refine ⟨e, ?_, same⟩
  cases ofYaml : Document.ofYaml m.value with
  | error cause => simp [Run.ofExcept, ofYaml, Except.mapError] at decoded
  | ok found =>
    obtain rfl : found = d := by simpa [Run.ofExcept, ofYaml, Except.mapError] using decoded
    simp [Exports, shape?, ofYaml, created, replaced, exported, Except.toOption]

theorem rendered_exported (secrets : SecretMap) (manifests : List Manifest) (texts : List String)
    (rendered : List.Forall₂ (RendersTo secrets) manifests texts) :
    ∃ shapes, List.Forall₂ (Exports secrets) manifests shapes ∧ shapes.map Exported.toYaml = texts := by
  induction rendered with
  | nil => exact ⟨[], .nil, rfl⟩
  | cons first _ ih =>
    obtain ⟨e, exports, written⟩ := renders_exported secrets _ _ first
    obtain ⟨shapes, later, same⟩ := ih
    exact ⟨e :: shapes, .cons exports later, by rw [List.map_cons, written, same]⟩

theorem of_values_whole (source : String) (index : Nat) (values : List Yaml)
    (whole : ∀ value ∈ values, value.isNull = false) :
    ofValues source index values = values.mapIdx fun k value => ⟨label source (index + k), value⟩ := by
  induction values generalizing index with
  | nil => rfl
  | cons value rest ih =>
    obtain ⟨here, later⟩ := List.forall_mem_cons.mp whole
    rw [ofValues, here, ih (index + 1) later, List.mapIdx_cons]
    simp [Nat.add_assoc, Nat.add_comm 1]

theorem parse_read (source content : String) (values : List Yaml) (read : Yaml.readAll content = .ok values)
    (whole : ∀ value ∈ values, value.isNull = false) :
    parse source content = .ok (values.mapIdx fun k value => ⟨label source k, value⟩) := by
  rw [parse, read]
  simp only [of_values_whole source 0 values whole, Nat.zero_add]

theorem parse_empty (source : String) : parse source "" = .ok [] := by
  have read : Yaml.readAll "" = .ok [.null] := by rfl
  rw [parse, read]
  rfl

theorem exported_singles {secrets : SecretMap} {manifests : List Manifest} {shapes : List Exported}
    (exported : List.Forall₂ (Exports secrets) manifests shapes)
    (back : ∀ m ∈ manifests, ∀ e, Exports secrets m e → Yaml.readAll e.toYaml = .ok [.ofJson e.written]) :
    List.Forall₂ Yaml.Single (shapes.map Exported.toYaml) (shapes.map fun e => .ofJson e.written) := by
  induction exported with
  | nil => exact .nil
  | cons first _ ih =>
    obtain ⟨here, later⟩ := List.forall_mem_cons.mp back
    exact .cons (Exported.yaml_single _ (here _ first)) (ih later)

-- What is assumed of the YAML reader is that it reads each of the texts back by itself.
theorem rendered_parsed (source : String) (secrets : SecretMap) (manifests : List Manifest) (output : String)
    (rendered : (renderAll manifests secrets).result = .ok output)
    (back : ∀ m ∈ manifests, ∀ e, Exports secrets m e → Yaml.readAll e.toYaml = .ok [.ofJson e.written]) :
    ∃ shapes, List.Forall₂ (Exports secrets) manifests shapes ∧
      parse source output = .ok (shapes.mapIdx fun k e => ⟨label source k, .ofJson e.written⟩) := by
  obtain ⟨texts, all, rfl⟩ := (render_all_ok_iff manifests secrets output).mp rendered
  obtain ⟨shapes, exported, rfl⟩ := rendered_exported secrets manifests texts all
  refine ⟨shapes, exported, ?_⟩
  cases shapes with
  | nil => exact parse_empty source
  | cons e rest =>
    have singles := exported_singles exported back
    have read := Yaml.read_all_stream singles (List.cons_ne_nil _ _)
    rw [separator, parse_read source _ _ read ?_]
    · simp [List.mapIdx_eq_zipIdx_map, List.zipIdx_map]
    · intro value member
      obtain ⟨e, -, rfl⟩ := List.mem_map.mp member
      exact e.written_some

def motto (value : String) : Json :=
  .object [("apiVersion", .text "v1"), ("kind", .text "ConfigMap"), ("metadata", .object []),
    ("data", .object [("motto", .text value)])]

def login (value : String) : Json :=
  .object [("apiVersion", .text "v1"), ("kind", .text "Secret"), ("metadata", .object []),
    ("stringData", .object [("login", .text value)])]

def pair : List Manifest := [⟨"stdin[0]", .ofJson (motto "<pw>")⟩, ⟨"stdin[1]", .ofJson (login "<pw>")⟩]

def pairSecrets : SecretMap := [("pw", .text "s3cr3t")]

def mottoText : String := "apiVersion: v1\nkind: ConfigMap\nmetadata: \x7b\x7d\ndata:\n  motto: s3cr3t\n"

def loginText : String := "apiVersion: v1\nkind: Secret\nmetadata: \x7b\x7d\nstringData:\n  login: s3cr3t\n"

theorem rendered_parsed_pair :
    (renderAll pair pairSecrets).result = .ok (mottoText ++ "---\n" ++ loginText) ∧
      parse "stdin" (mottoText ++ "---\n" ++ loginText) =
        .ok [⟨"stdin[0]", .ofJson (motto "s3cr3t")⟩, ⟨"stdin[1]", .ofJson (login "s3cr3t")⟩] := by
  have first : (shape? pairSecrets pair[0]).map Exported.written = some (motto "s3cr3t") := by decide +kernel
  have second : (shape? pairSecrets pair[1]).map Exported.written = some (login "s3cr3t") := by decide +kernel
  obtain ⟨e, here, written⟩ := Option.map_eq_some_iff.mp first
  obtain ⟨e', here', written'⟩ := Option.map_eq_some_iff.mp second
  have text : e.toYaml = mottoText := (congrArg Yaml.write written).trans (by decide +kernel)
  have text' : e'.toYaml = loginText := (congrArg Yaml.write written').trans (by decide +kernel)
  have rendered : (renderAll pair pairSecrets).result = .ok (mottoText ++ "---\n" ++ loginText) := by
    refine (render_all_ok_iff _ _ _).mpr ⟨[mottoText, loginText], .cons ?_ (.cons ?_ .nil), rfl⟩
    · exact (renders_to_iff _ _ _).mpr (by decide +kernel)
    · exact (renders_to_iff _ _ _).mpr (by decide +kernel)
  have read : Yaml.readAll mottoText = .ok [.ofJson (motto "s3cr3t")] := by rfl
  have read' : Yaml.readAll loginText = .ok [.ofJson (login "s3cr3t")] := by rfl
  obtain ⟨shapes, exported, parsed⟩ := rendered_parsed "stdin" pairSecrets pair _ rendered (by
    intro m member other exports
    simp only [pair, List.mem_cons, List.not_mem_nil, or_false] at member
    rcases member with rfl | rfl
    · obtain rfl := Option.some.inj (here.symm.trans exports)
      rw [text, written, read]
    · obtain rfl := Option.some.inj (here'.symm.trans exports)
      rw [text', written', read'])
  refine ⟨rendered, ?_⟩
  obtain ⟨one, rest, exports, later, rfl⟩ := List.forall₂_cons_left_iff.mp exported
  obtain ⟨two, last, exports', ends, rfl⟩ := List.forall₂_cons_left_iff.mp later
  obtain rfl := List.forall₂_nil_left_iff.mp ends
  obtain rfl := Option.some.inj (here.symm.trans exports)
  obtain rfl := Option.some.inj (here'.symm.trans exports')
  have labels : label "stdin" 0 = "stdin[0]" ∧ label "stdin" 1 = "stdin[1]" := by decide +kernel
  rw [parsed, ← written, ← written', ← labels.1, ← labels.2]
  rfl

end Manifest

end ManifestSecrets
