import ManifestSecrets.Command.Arguments
import ManifestSecrets.Settings.Override

set_option autoImplicit false

namespace ManifestSecrets

inductive SettingsAction where
  | display
  | validate
  | create
deriving DecidableEq, Repr

namespace SettingsAction

def name : SettingsAction → String
  | .display => "show"
  | .validate => "validate"
  | .create => "init"

def names : List (String × SettingsAction) :=
  [("show", .display), ("validate", .validate), ("init", .create)]

end SettingsAction

structure GenerateOptions where
  path : String
  settingsFile : Option String
  secretsFile : Option String
  pathPrefix : Option String
deriving DecidableEq, Repr

inductive Command where
  | generate (options : GenerateOptions)
  | settings (file : Option String) (action : SettingsAction)
  | version
deriving DecidableEq, Repr

namespace Command

def configSlot : Slot := { name := "config" }

def secretsSlot : Slot := { name := "secrets-file", mayBeEmpty := false }

def prefixSlot : Slot := { name := "path-prefix", variableName := some Variable.pathPrefix.name }

def pathSlot : Slot := { name := "path", mayBeEmpty := false }

def bare : Form := .mk [] [] false []

def generateForm : Form :=
  .mk [('c', configSlot), ('s', secretsSlot), ('p', prefixSlot)] [pathSlot] false []

def settingsForm : Form :=
  .mk [('c', configSlot)] [] false (SettingsAction.names.map fun (name, _) => (name, bare))

def form : Form :=
  .mk [] [] true [("generate", generateForm), ("config", settingsForm), ("version", bare)]

def ofGenerate (m : Matched) : Except ArgumentFault Command :=
  match m.text? pathSlot.name with
  | some path =>
      .ok (.generate {
        path, settingsFile := m.text? configSlot.name, secretsFile := m.text? secretsSlot.name
        pathPrefix := m.text? prefixSlot.name })
  | none => .error .operandMissing

def ofSettings (m : Matched) : Except ArgumentFault Command :=
  match m.command?.bind fun (name, _) => KeyMap.find? name SettingsAction.names with
  | some action => .ok (.settings (m.text? configSlot.name) action)
  | none => .error .commandMissing

def ofMatched (m : Matched) : Except ArgumentFault Command :=
  match m.command? with
  | some ("generate", inner) => ofGenerate inner
  | some ("config", inner) => ofSettings inner
  | some ("version", _) => .ok .version
  | _ => .error .commandMissing

def parse (environment : Environment) (args : List String) : Except ArgumentFault Command := do
  ofMatched (← form.matchAll environment args)

end Command

end ManifestSecrets
