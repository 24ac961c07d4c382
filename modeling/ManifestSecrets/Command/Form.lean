import ManifestSecrets.Environment.Assignment
import ManifestSecrets.KeyMap

set_option autoImplicit false

namespace ManifestSecrets

structure Slot where
  name : String
  mayBeEmpty : Bool := true
  variableName : Option String := none
deriving DecidableEq, Repr

inductive Form where
  | mk (options : List (Char × Slot)) (operands : List Slot) (hasVersion : Bool) (commands : List (String × Form))

inductive ArgumentFault where
  | help
  | version
  | nothingGiven
  | commandMissing
  | operandMissing
  | unknownArgument
  | unknownCommand
  | valueMissing
  | valueUnexpected
  | repeatedOption
  | notText
deriving DecidableEq, Repr

namespace ArgumentFault

def exitCode : ArgumentFault → Nat
  | .help => 0
  | .version => 0
  | _ => 2

def message : ArgumentFault → String
  | .help => "help was asked for"
  | .version => "the version was asked for"
  | .nothingGiven => "no arguments were given"
  | .commandMissing => "a command is required"
  | .operandMissing => "a required argument was not given"
  | .unknownArgument => "unexpected argument"
  | .unknownCommand => "unrecognized command"
  | .valueMissing => "an option or argument has no value"
  | .valueUnexpected => "an option takes no value"
  | .repeatedOption => "an option was given more than once"
  | .notText => "a value is no text"

end ArgumentFault

namespace Form

def options : Form → List (Char × Slot)
  | .mk options _ _ _ => options

def operands : Form → List Slot
  | .mk _ operands _ _ => operands

def hasVersion : Form → Bool
  | .mk _ _ hasVersion _ => hasVersion

def commands : Form → List (String × Form)
  | .mk _ _ _ commands => commands

def helpCommand : Form := .mk [] [] false []

def command? (form : Form) (name : String) : Option Form :=
  match KeyMap.find? name form.commands with
  | some sub => some sub
  | none => if name = "help" && !form.commands.isEmpty then some helpCommand else none

def helpOn (form : Form) : List String → ArgumentFault
  | [] => .help
  | name :: rest =>
      match form.command? name with
      | some sub => sub.helpOn rest
      | none => .unknownCommand

def optionNamed? (form : Form) (name : String) : Option Slot :=
  (form.options.find? fun o => o.2.name == name).map Prod.snd

def optionLettered? (form : Form) (letter : Char) : Option Slot :=
  (form.options.find? fun o => o.1 == letter).map Prod.snd

end Form

end ManifestSecrets
