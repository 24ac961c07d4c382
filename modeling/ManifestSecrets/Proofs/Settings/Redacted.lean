import ManifestSecrets.Proofs.Environment.File
import ManifestSecrets.Settings.Override
import ManifestSecrets.Settings.Shape

set_option autoImplicit false

namespace ManifestSecrets

namespace Variable

def credentials : List Variable := [.secretId, .token]

def credentialNames : List String := credentials.map name

theorem name_credential (v : Variable) : v.name ∈ credentialNames ↔ v ∈ credentials := by
  cases v <;> decide

end Variable

namespace Environment

-- A credential that is set to nothing stays so, since it does not count as set.
def hidden (text : String) : String := if text = "" then "" else AuthSettings.mask

def masked (environment : Environment) : Environment := fun name =>
  if name ∈ Variable.credentialNames then (environment.text? name).map fun text => Text.utf8 (hidden text)
  else environment name

theorem text_masked (environment : Environment) (name : String) :
    environment.masked.text? name =
      if name ∈ Variable.credentialNames then (environment.text? name).map hidden else environment.text? name := by
  rw [text?, masked]
  split
  · cases environment.text? name with
    | none => rfl
    | some text => exact Text.of_utf8_utf8 _
  · rfl

theorem hidden_hidden (text : String) : hidden (hidden text) = hidden text := by
  by_cases empty : text = ""
  · simp [hidden, empty]
  · simp [hidden, empty, AuthSettings.mask]

theorem masked_masked (environment : Environment) : environment.masked.masked = environment.masked := by
  funext name
  rw [masked, text_masked]
  by_cases credential : name ∈ Variable.credentialNames
  · simp only [if_pos credential, masked, Option.map_map]
    exact congrArg (Option.map · (environment.text? name)) (funext fun text => by simp [hidden_hidden])
  · simp only [if_neg credential]

-- Both have values for these names, though not the same ones, and they agree on all others. A value is a text in both or
-- in neither.
structure DifferIn (names : List String) (a b : Environment) : Prop where
  set : ∀ name ∈ names, ∃ x y, a name = some x ∧ x ≠ [] ∧ b name = some y ∧ y ≠ []
  texts : ∀ name ∈ names, (a.text? name).isSome = (b.text? name).isSome
  same : ∀ name, name ∉ names → a name = b name

theorem text_set (environment : Environment) (name : String) (value : List UInt8) (set : environment name = some value)
    (filled : value ≠ []) (text : String) (read : environment.text? name = some text) : text ≠ "" := by
  rintro rfl
  rw [text?, set, Option.bind_some] at read
  exact filled (Text.of_utf8_some value "" read).symm

theorem DifferIn.alike {names : List String} {a b : Environment} (differ : DifferIn names a b) : AlikeBut names a b where
  texts name member := by
    obtain ⟨x, y, first, xFilled, second, yFilled⟩ := differ.set name member
    have texts := differ.texts name member
    have filled := a.text_set name x first xFilled
    have filled' := b.text_set name y second yFilled
    cases read : a.text? name <;> cases read' : b.text? name <;> simp_all
  same := differ.same

theorem masked_alike (a b : Environment) (alike : AlikeBut Variable.credentialNames a b) : a.masked = b.masked := by
  funext name
  by_cases credential : name ∈ Variable.credentialNames
  · have texts := alike.texts name credential
    simp only [masked, if_pos credential]
    cases read : a.text? name <;> cases read' : b.text? name <;> simp_all [hidden]
  · simp only [masked, if_neg credential, alike.same name credential]

end Environment

theorem Variable.text_masked (v : Variable) (environment : Environment) :
    v.text? environment.masked =
      if v ∈ credentials then (v.text? environment).map fun _ => AuthSettings.mask else v.text? environment := by
  have name := v.name_credential
  rw [text?, text?, environment.text_masked]
  by_cases credential : v ∈ credentials
  · rw [if_pos credential, if_pos (name.mpr credential)]
    cases environment.text? v.name with
    | none => rfl
    | some text =>
      by_cases empty : text = ""
      · simp [Environment.hidden, empty, Option.filter_some]
      · simp [Environment.hidden, empty, Option.filter_some, AuthSettings.mask]
  · rw [if_neg credential, if_neg (mt name.mp credential)]

namespace Settings

def withCredentials (s : Settings) (secretId token : Option String) : Settings :=
  { s with vault := { s.vault with auth := { s.vault.auth with secretId, token } } }

structure Alike (s t : Settings) : Prop where
  others : t = s.withCredentials t.vault.auth.secretId t.vault.auth.token
  secretId : s.vault.auth.secretId.isSome = t.vault.auth.secretId.isSome
  token : s.vault.auth.token.isSome = t.vault.auth.token.isSome

theorem masked_eq_iff (a b : Option String) :
    (a.map fun _ => AuthSettings.mask) = (b.map fun _ => AuthSettings.mask) ↔ a.isSome = b.isSome := by
  cases a <;> cases b <;> simp

-- The masked copies are equal exactly for settings that are alike, so nothing else is masked.
theorem redacted_eq_iff (s t : Settings) : s.redacted = t.redacted ↔ s.Alike t := by
  obtain ⟨⟨_, _, _, _, _, ⟨_, _, _, _⟩⟩, _⟩ := s
  obtain ⟨⟨_, _, _, _, _, ⟨_, _, _, _⟩⟩, _⟩ := t
  constructor
  · intro same
    simp only [redacted, AuthSettings.redacted, mk.injEq, VaultSettings.mk.injEq, AuthSettings.mk.injEq,
      masked_eq_iff] at same
    obtain ⟨⟨rfl, rfl, rfl, rfl, rfl, rfl, rfl, secretId, token⟩, rfl⟩ := same
    exact ⟨rfl, secretId, token⟩
  · rintro ⟨others, secretId, token⟩
    simp only [withCredentials, mk.injEq, VaultSettings.mk.injEq, AuthSettings.mk.injEq] at others
    obtain ⟨⟨rfl, rfl, rfl, rfl, rfl, rfl, rfl, -, -⟩, rfl⟩ := others
    simp only [redacted, AuthSettings.redacted, mk.injEq, VaultSettings.mk.injEq, AuthSettings.mk.injEq,
      masked_eq_iff]
    simpa using ⟨secretId, token⟩

theorem redacted_redacted (s : Settings) : s.redacted.redacted = s.redacted := by
  simp [redacted, AuthSettings.redacted, Option.map_map, Function.comp_def]

theorem redacted_assign (s : Settings) (v : Variable) (text : String) :
    (s.assign v text).map redacted =
      s.redacted.assign v (if v ∈ Variable.credentials then AuthSettings.mask else text) := by
  cases v with
  | kvVersion =>
    rw [if_neg (by decide), assign, assign]
    cases KvVersion.ofText text <;> rfl
  | authMethod =>
    rw [if_neg (by decide), assign, assign]
    cases AuthMethod.ofText text <;> rfl
  | logFormat =>
    rw [if_neg (by decide), assign, assign]
    cases LogFormat.ofText text <;> rfl
  | _ => rfl

def Overridden.redacted (o : Overridden) : Overridden := { o with settings := o.settings.redacted }

theorem redacted_override_by (environment : Environment) (o : Overridden) (v : Variable) :
    overrideBy environment.masked o.redacted v = (overrideBy environment o v).redacted := by
  unfold overrideBy
  rw [v.text_masked environment]
  cases v.text? environment with
  | none => simp
  | some text =>
    have assigned := redacted_assign o.settings v text
    have masks : (if v ∈ Variable.credentials then (some text).map fun _ => AuthSettings.mask else some text) =
        some (if v ∈ Variable.credentials then AuthSettings.mask else text) := by
      split <;> rfl
    simp only [masks, Overridden.redacted, ← assigned]
    cases o.settings.assign v text <;> rfl

theorem redacted_override (s : Settings) (environment : Environment) :
    s.redacted.override environment.masked = (s.override environment).redacted := by
  have commutes (o : Overridden) (v : Variable) := redacted_override_by environment o v
  have folded : Variable.all.foldl (overrideBy environment.masked) (Overridden.redacted ⟨s, []⟩) =
      (Variable.all.foldl (overrideBy environment) ⟨s, []⟩).redacted := List.foldl_hom Overridden.redacted commutes
  exact folded

theorem override_masked (s : Settings) (environment : Environment) :
    (s.override environment.masked).redacted = (s.override environment).redacted := by
  rw [← redacted_override, ← redacted_override, environment.masked_masked]

end Settings

end ManifestSecrets
