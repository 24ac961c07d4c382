import ManifestSecrets.Proofs.Document
import ManifestSecrets.Settings.Override
import Mathlib.Data.List.Forall2

/-!
Overrides field by field. Each variable has a field of its own, and all that counts of an environment for that field is
the value that the text of the variable is read as. So to override by two environments, one after the other, is to
override once by the second laid over the first.
-/

set_option autoImplicit false

namespace ManifestSecrets

namespace Variable

def Value : Variable → Type
  | .kvVersion => KvVersion
  | .authMethod => AuthMethod
  | .logFormat => LogFormat
  | _ => Option String

def read : (v : Variable) → String → Except String v.Value
  | .address, text => .ok (some text)
  | .namespaceName, text => .ok (some text)
  | .pathPrefix, text => .ok (some text)
  | .kvVersion, text => (KvVersion.ofText text).mapError StoreError.message
  | .authMethod, text => AuthMethod.ofText text
  | .roleId, text => .ok (some text)
  | .secretId, text => .ok (some text)
  | .token, text => .ok (some text)
  | .logFormat, text => LogFormat.ofText text

def Gives (v : Variable) (environment : Environment) (value : v.Value) : Prop :=
  ∃ text, environment.text? v.name = some text ∧ text ≠ "" ∧ v.read text = .ok value

def Unread (v : Variable) (environment : Environment) (reason : String) : Prop :=
  ∃ text, environment.text? v.name = some text ∧ text ≠ "" ∧ v.read text = .error reason

def given? (v : Variable) (environment : Environment) : Option v.Value :=
  (v.text? environment).bind fun text => (v.read text).toOption

def refusal? (v : Variable) (environment : Environment) : Option String :=
  (v.text? environment).bind fun text =>
    match v.read text with
    | .ok _ => none
    | .error reason => some reason

theorem all_distinct : all.Nodup := by decide

theorem mem_all (v : Variable) : v ∈ all := by
  cases v <;> decide

theorem name_inj (v w : Variable) : v.name = w.name ↔ v = w := by
  cases v <;> cases w <;> decide

variable (v : Variable)

theorem text_iff (environment : Environment) (text : String) :
    v.text? environment = some text ↔ environment.text? v.name = some text ∧ text ≠ "" := by
  simp [text?, Option.filter_eq_some_iff]

theorem given_iff (environment : Environment) (value : v.Value) :
    v.given? environment = some value ↔ v.Gives environment value := by
  rw [given?, Option.bind_eq_some_iff]
  refine exists_congr fun text => ?_
  rw [text_iff, and_assoc]
  cases v.read text <;> simp [Except.toOption]

theorem refusal_iff (environment : Environment) (reason : String) :
    v.refusal? environment = some reason ↔ v.Unread environment reason := by
  rw [refusal?, Option.bind_eq_some_iff]
  refine exists_congr fun text => ?_
  rw [text_iff, and_assoc]
  cases v.read text <;> simp

theorem given_none_iff (environment : Environment) :
    v.given? environment = none ↔ ∀ value, ¬ v.Gives environment value := by
  simp only [← given_iff, Option.eq_none_iff_forall_ne_some, ne_eq]

theorem given_same (a b : Environment) (same : a v.name = b v.name) : v.given? a = v.given? b := by
  rw [given?, given?, text?, text?, Environment.text?, Environment.text?, same]

end Variable

namespace Environment

-- The second environment over the first: a variable that it gives no value counts as it does in the first.
def layered (a b : Environment) : Environment := fun name =>
  if Variable.all.any fun v => v.name == name && (v.given? b).isSome then b name else a name

variable (a b : Environment) (v : Variable)

theorem layered_name : a.layered b v.name = if (v.given? b).isSome then b v.name else a v.name := by
  have own : (Variable.all.any fun w => w.name == v.name && (w.given? b).isSome) = (v.given? b).isSome := by
    rw [Bool.eq_iff_iff, List.any_eq_true]
    simp only [Bool.and_eq_true, beq_iff_eq, Variable.name_inj]
    constructor
    · rintro ⟨w, -, rfl, given⟩
      exact given
    · exact fun given => ⟨v, v.mem_all, rfl, given⟩
  rw [layered, own]

theorem given_layered : v.given? (a.layered b) = (v.given? b <|> v.given? a) := by
  have name := layered_name a b v
  cases given : v.given? b with
  | none =>
    rw [given, Option.isSome_none, if_neg Bool.false_ne_true] at name
    exact v.given_same _ _ name
  | some value =>
    rw [given, Option.isSome_some, if_pos rfl] at name
    exact (v.given_same _ _ name).trans given

end Environment

namespace Settings

def field (s : Settings) : (v : Variable) → v.Value
  | .address => s.vault.address
  | .namespaceName => s.vault.namespaceName
  | .pathPrefix => s.vault.pathPrefix
  | .kvVersion => s.vault.kvVersion
  | .authMethod => s.vault.auth.method
  | .roleId => s.vault.auth.roleId
  | .secretId => s.vault.auth.secretId
  | .token => s.vault.auth.token
  | .logFormat => s.logging.format

def unoverridden (s : Settings) : UInt64 × Option String := (s.vault.timeoutSecs, s.logging.level)

theorem ext_fields (s t : Settings) (fields : ∀ v, s.field v = t.field v) (others : s.unoverridden = t.unoverridden) :
    s = t := by
  obtain ⟨⟨_, _, _, _, _, ⟨_, _, _, _⟩⟩, ⟨_, _⟩⟩ := s
  obtain ⟨⟨_, _, _, _, _, ⟨_, _, _, _⟩⟩, ⟨_, _⟩⟩ := t
  obtain ⟨rfl, rfl⟩ := Prod.mk.inj others
  obtain rfl := fields .address
  obtain rfl := fields .namespaceName
  obtain rfl := fields .pathPrefix
  obtain rfl := fields .kvVersion
  obtain rfl := fields .authMethod
  obtain rfl := fields .roleId
  obtain rfl := fields .secretId
  obtain rfl := fields .token
  obtain rfl := fields .logFormat
  rfl

def withField (s : Settings) : (v : Variable) → v.Value → Settings
  | .address, value => { s with vault := { s.vault with address := value } }
  | .namespaceName, value => { s with vault := { s.vault with namespaceName := value } }
  | .pathPrefix, value => { s with vault := { s.vault with pathPrefix := value } }
  | .kvVersion, value => { s with vault := { s.vault with kvVersion := value } }
  | .authMethod, value => { s with vault := { s.vault with auth := { s.vault.auth with method := value } } }
  | .roleId, value => { s with vault := { s.vault with auth := { s.vault.auth with roleId := value } } }
  | .secretId, value => { s with vault := { s.vault with auth := { s.vault.auth with secretId := value } } }
  | .token, value => { s with vault := { s.vault with auth := { s.vault.auth with token := value } } }
  | .logFormat, value => { s with logging := { s.logging with format := value } }

@[simp] theorem field_with_field (s : Settings) (v : Variable) (value : v.Value) : (s.withField v value).field v = value := by
  cases v <;> rfl

theorem field_with_other (s : Settings) (v w : Variable) (value : v.Value) (other : w ≠ v) :
    (s.withField v value).field w = s.field w := by
  cases v <;> cases w <;> first | rfl | exact absurd rfl other

@[simp] theorem unoverridden_with_field (s : Settings) (v : Variable) (value : v.Value) :
    (s.withField v value).unoverridden = s.unoverridden := by
  cases v <;> rfl

theorem assign_read (s : Settings) (v : Variable) (text : String) :
    s.assign v text = (v.read text).map (s.withField v) := by
  cases v with
  | kvVersion =>
    delta assign Variable.read
    dsimp only
    cases KvVersion.ofText text <;> rfl
  | authMethod =>
    delta assign Variable.read
    dsimp only
    cases AuthMethod.ofText text <;> rfl
  | logFormat =>
    delta assign Variable.read
    dsimp only
    cases LogFormat.ofText text <;> rfl
  | _ => rfl

section Overriding

variable (environment : Environment)

-- One variable: what it does to the settings, and what it reports.
theorem override_by_read (o : Overridden) (v : Variable) :
    overrideBy environment o v =
      ⟨(v.given? environment).elim o.settings (o.settings.withField v),
        o.ignored ++ ((v.refusal? environment).map (ignoring v)).toList⟩ := by
  rw [overrideBy, Variable.given?, Variable.refusal?]
  cases v.text? environment with
  | none => simp
  | some text =>
    simp only [assign_read, Option.bind_some]
    cases v.read text <;> simp [Except.map, Except.toOption]

theorem field_override_by (o : Overridden) (v w : Variable) :
    (overrideBy environment o v).settings.field w =
      if w = v then (w.given? environment).getD (o.settings.field w) else o.settings.field w := by
  rw [override_by_read]
  by_cases same : w = v
  · subst same
    cases w.given? environment <;> simp
  · cases v.given? environment with
    | none => simp [same]
    | some value => simp [same, field_with_other o.settings v w value same]

theorem unoverridden_override_by (o : Overridden) (v : Variable) :
    (overrideBy environment o v).settings.unoverridden = o.settings.unoverridden := by
  rw [override_by_read]
  cases v.given? environment <;> simp

theorem field_override_all (vs : List Variable) (o : Overridden) (w : Variable) :
    (vs.foldl (overrideBy environment) o).settings.field w =
      if w ∈ vs then (w.given? environment).getD (o.settings.field w) else o.settings.field w := by
  induction vs generalizing o with
  | nil => simp
  | cons v vs ih =>
    rw [List.foldl_cons, ih, field_override_by]
    by_cases first : w = v
    · subst first
      cases w.given? environment <;> simp
    · simp [first]

theorem unoverridden_override_all (vs : List Variable) (o : Overridden) :
    (vs.foldl (overrideBy environment) o).settings.unoverridden = o.settings.unoverridden := by
  induction vs generalizing o with
  | nil => rfl
  | cons v vs ih => rw [List.foldl_cons, ih, unoverridden_override_by]

theorem ignored_override_all (vs : List Variable) (o : Overridden) :
    (vs.foldl (overrideBy environment) o).ignored =
      o.ignored ++ vs.filterMap fun v => (v.refusal? environment).map (ignoring v) := by
  induction vs generalizing o with
  | nil => simp
  | cons v vs ih =>
    rw [List.foldl_cons, ih, override_by_read, List.append_assoc]
    cases refused : v.refusal? environment <;> simp [refused]

end Overriding

variable (s : Settings)

theorem field_override (environment : Environment) (v : Variable) :
    (s.override environment).settings.field v = (v.given? environment).getD (s.field v) := by
  rw [override, field_override_all, if_pos v.mem_all]

theorem unoverridden_override (environment : Environment) :
    (s.override environment).settings.unoverridden = s.unoverridden :=
  unoverridden_override_all environment _ _

theorem ignored_override (environment : Environment) :
    (s.override environment).ignored =
      Variable.all.filterMap fun v => (v.refusal? environment).map (ignoring v) :=
  ignored_override_all environment _ _

theorem override_override (a b : Environment) :
    ((s.override a).settings.override b).settings = (s.override (a.layered b)).settings := by
  refine ext_fields _ _ (fun v => ?_) ?_
  · simp only [field_override, Environment.given_layered]
    cases v.given? b <;> rfl
  · simp only [unoverridden_override]

theorem ignored_by_variable (environment : Environment) :
    ∃ unread : List Variable, unread.Nodup ∧ (∀ v, v ∈ unread ↔ ∃ reason, v.Unread environment reason) ∧
      List.Forall₂ (fun v line => ∃ reason, v.Unread environment reason ∧ line = ignoring v reason) unread
        (s.override environment).ignored := by
  refine ⟨Variable.all.filter fun v => (v.refusal? environment).isSome, Variable.all_distinct.filter _, fun v => ?_, ?_⟩
  · simp only [List.mem_filter, v.mem_all, true_and, Option.isSome_iff_exists, Variable.refusal_iff]
  · rw [ignored_override]
    induction Variable.all with
    | nil => exact .nil
    | cons v vs ih =>
      cases refused : v.refusal? environment with
      | none => simpa [refused] using ih
      | some reason => simpa [refused] using ⟨⟨reason, (v.refusal_iff environment reason).mp refused, rfl⟩, ih⟩

theorem overriding_layers (a b : Environment) :
    (∀ v : Variable, ((∃ value, v.Gives b value) → a.layered b v.name = b v.name) ∧
      ((∀ value, ¬ v.Gives b value) → a.layered b v.name = a v.name)) ∧
    ((s.override a).settings.override b).settings = (s.override (a.layered b)).settings ∧
    (∀ v : Variable, (∀ value, v.Gives a value → (s.override a).settings.field v = value) ∧
      ((∀ value, ¬ v.Gives a value) → (s.override a).settings.field v = s.field v)) ∧
    (s.override a).settings.unoverridden = s.unoverridden ∧
    (∀ v : Variable, (∀ w, w ≠ v → a w.name = b w.name) →
      ∀ w, w ≠ v → (s.override a).settings.field w = (s.override b).settings.field w) ∧
    ∃ unread : List Variable, unread.Nodup ∧ (∀ v, v ∈ unread ↔ ∃ reason, v.Unread a reason) ∧
      List.Forall₂ (fun v line => ∃ reason, v.Unread a reason ∧ line = ignoring v reason) unread
        (s.override a).ignored := by
  refine ⟨fun v => ?_, s.override_override a b, fun v => ?_, s.unoverridden_override a, ?_, s.ignored_by_variable a⟩
  · rw [Environment.layered_name, ← v.given_none_iff]
    constructor
    · rintro ⟨value, gives⟩
      rw [(v.given_iff b value).mpr gives, Option.isSome_some, if_pos rfl]
    · intro ungiven
      rw [ungiven, Option.isSome_none, if_neg Bool.false_ne_true]
  · rw [field_override, ← v.given_none_iff]
    constructor
    · intro value gives
      rw [(v.given_iff a value).mpr gives, Option.getD_some]
    · intro ungiven
      rw [ungiven, Option.getD_none]
  · intro v same w other
    rw [field_override, field_override, w.given_same a b (same w other)]

def pathSettings : Settings where
  vault := { address := some "http://file:8200", pathPrefix := some "secret/app" }

def lowerLayer : Environment := .ofTexts fun name =>
  KeyMap.find? name [("AVP_AUTH_TYPE", "Token"), ("AVP_KV_VERSION", " v2 "), ("VAULT_ADDR", "http://vault:8200"),
    ("VAULT_TOKEN", "s.lower")]

def upperLayer : Environment := .ofTexts fun name =>
  KeyMap.find? name [("AVP_AUTH_TYPE", "kerberos"), ("AVP_KV_VERSION", "9"), ("AVP_LOG_FORMAT", "JSON"),
    ("VAULT_ADDR", ""), ("VAULT_TOKEN", "s.upper")]

def upperTokenless : Environment := fun name => if name = "VAULT_TOKEN" then none else upperLayer name

theorem overriding_layers_unread :
    (∀ value, ¬ Variable.kvVersion.Gives upperLayer value) ∧
      lowerLayer.layered upperLayer "AVP_KV_VERSION" = some (Text.utf8 " v2 ") ∧
      ((pathSettings.override lowerLayer).settings.override upperLayer).settings =
        { vault := { address := some "http://vault:8200", pathPrefix := some "secret/app", kvVersion := .two
                     auth := { method := .token, token := some "s.upper" } }
          logging := { format := .json } } ∧
      (∀ w : Variable, w ≠ .token → upperTokenless w.name = upperLayer w.name) ∧
      (pathSettings.override upperTokenless).settings.field .address =
        (pathSettings.override upperLayer).settings.field .address ∧
      (pathSettings.override upperLayer).settings.field .kvVersion = KvVersion.one ∧
      (pathSettings.override upperLayer).ignored =
        ["Ignoring AVP_KV_VERSION: configuration error: unsupported KV version 9, expected 1 or 2",
          "Ignoring AVP_AUTH_TYPE: unknown auth type 'kerberos', expected 'approle' or 'token'"] := by
  have unread : ∀ value, ¬ Variable.kvVersion.Gives upperLayer value :=
    (Variable.kvVersion.given_none_iff upperLayer).mp (by rfl)
  have others : ∀ w : Variable, w ≠ .token → upperTokenless w.name = upperLayer w.name := by
    intro w other
    cases w <;> first | rfl | exact absurd rfl other
  obtain ⟨layers, both, -⟩ := overriding_layers pathSettings lowerLayer upperLayer
  obtain ⟨-, -, fields, -⟩ := overriding_layers pathSettings upperLayer lowerLayer
  obtain ⟨-, -, -, -, apart, -⟩ := overriding_layers pathSettings upperTokenless upperLayer
  exact ⟨unread, (layers .kvVersion).2 unread, both.trans (by decide +kernel), others,
    apart .token others .address (by decide), (fields .kvVersion).2 unread, by decide +kernel⟩

end Settings

end ManifestSecrets
