import ManifestSecrets.Command.Form

/-!
Reading arguments by a form. A value is only looked at when the next option or operand is met or the
arguments end, so that an unknown argument behind it is reported first.
-/

set_option autoImplicit false

namespace ManifestSecrets

structure Named where
  slot : Slot
  text : Option String

structure Given where
  texts : List (String × String) := []
  last : Option Named := none

namespace Given

def text? (g : Given) (name : String) : Option String := KeyMap.find? name g.texts

-- Looks at the last slot: it must have a text, only once, and be empty only where that is allowed.
def settle (g : Given) : Except ArgumentFault Given :=
  match g.last with
  | none => .ok g
  | some ⟨_, none⟩ => .error .valueMissing
  | some ⟨slot, some text⟩ =>
      if (g.text? slot.name).isSome then .error .repeatedOption
      else if text = "" && !slot.mayBeEmpty then .error .valueMissing
      else .ok { texts := g.texts ++ [(slot.name, text)] }

def open? (g : Given) (slot : Slot) (text : Option String) : Except ArgumentFault Given := do
  return { (← g.settle) with last := some ⟨slot, text⟩ }

def take (g : Given) (slot : Slot) (text : String) : Except ArgumentFault Given := do
  (← g.open? slot (some text)).settle

def isWaiting (g : Given) : Bool :=
  match g.last with
  | some ⟨_, none⟩ => true
  | _ => false

def fill (g : Given) (text : String) : Given :=
  { g with last := g.last.map fun named => { named with text := some text } }

end Given

inductive Argument where
  | rest
  | long (name : String) (value : Option String)
  | short (letter : Char) (value : Option String)
  | plain

namespace Argument

def afterEquals? (cs : List Char) : Option String :=
  match cs.dropWhile (· != '=') with
  | _ :: value => some (String.ofList value)
  | [] => none

def attached? : List Char → Option String
  | [] => none
  | '=' :: value => some (String.ofList value)
  | value => some (String.ofList value)

def ofText (s : String) : Argument :=
  match s.toList with
  | ['-', '-'] => .rest
  | '-' :: '-' :: cs => .long (String.ofList (cs.takeWhile (· != '='))) (afterEquals? cs)
  | '-' :: letter :: cs => .short letter (attached? cs)
  | _ => .plain

end Argument

inductive Matched where
  | mk (texts : List (String × String)) (command : Option (String × Matched))

namespace Matched

def text? : Matched → String → Option String
  | .mk texts _, name => KeyMap.find? name texts

def command? : Matched → Option (String × Matched)
  | .mk _ command => command

end Matched

namespace Form

def fromEnvironment (environment : Environment) (g : Given) :
    List (Char × Slot) → Except ArgumentFault (List (String × String))
  | [] => .ok []
  | (_, slot) :: rest => do
      let others ← fromEnvironment environment g rest
      match g.text? slot.name, slot.variableName.bind environment with
      | none, some value =>
          match Text.ofUtf8? value with
          | some text => return (slot.name, text) :: others
          | none => throw .notText
      | _, _ => return others

-- The end of the arguments: something must have been given, a command where there are commands, and
-- every operand.
def finish (form : Form) (environment : Environment) (g : Given) (command : Option (String × Matched)) :
    Except ArgumentFault Matched := do
  let g ← g.settle
  if command.isNone && !form.commands.isEmpty then
    throw (if g.texts.isEmpty then .nothingGiven else .commandMissing)
  let found ← fromEnvironment environment g form.options
  if form.operands.any fun slot => (g.text? slot.name).isNone then throw .operandMissing
  else return .mk (g.texts ++ found) command

def flag? (form : Form) (name : String) : Option ArgumentFault :=
  if name = "help" || name = "h" then some .help
  else if (name = "version" || name = "V") && form.hasVersion then some .version
  else none

def ask (g : Given) (fault : ArgumentFault) : Except ArgumentFault Given := do
  let _ ← g.settle
  throw fault

def give (g : Given) (slot : Slot) (value : Option String) : Except ArgumentFault Given :=
  match value with
  | some text => g.take slot text
  | none => g.open? slot none

def readLong (form : Form) (g : Given) (name : String) (value : Option String) : Except ArgumentFault Given :=
  match form.optionNamed? name with
  | some slot => give g slot value
  | none =>
      match (if name.length = 1 then none else form.flag? name) with
      | some fault => if value.isSome then .error .valueUnexpected else ask g fault
      | none => .error .unknownArgument

def readShort (form : Form) (g : Given) (letter : Char) (value : Option String) : Except ArgumentFault Given :=
  match form.optionLettered? letter with
  | some slot => give g slot value
  | none =>
      match form.flag? (String.singleton letter) with
      | some fault => ask g fault
      | none => .error .unknownArgument

def surplus (form : Form) (afterDashes : Bool) (arg : String) : ArgumentFault :=
  if form.commands.isEmpty || (afterDashes && (form.command? arg).isSome) then .unknownArgument
  else .unknownCommand

def readRest (form : Form) (environment : Environment) (g : Given) (slots : List Slot) :
    List String → Except ArgumentFault Matched
  | [] => form.finish environment g none
  | arg :: rest =>
      match slots with
      | slot :: others => do readRest form environment (← g.open? slot (some arg)) others rest
      | [] => .error (form.surplus true arg)

def read (form : Form) (environment : Environment) (g : Given) (slots : List Slot) :
    List String → Except ArgumentFault Matched
  | [] => form.finish environment g none
  | arg :: rest =>
      match (if g.isWaiting then none else form.command? arg) with
      | some sub =>
          if arg = "help" then .error (form.helpOn rest)
          else do
            let inner ← read sub environment {} sub.operands rest
            form.finish environment g (some (arg, inner))
      | none =>
          match Argument.ofText arg with
          | .rest => form.readRest environment g slots rest
          | .long name value => do read form environment (← form.readLong g name value) slots rest
          | .short letter value => do read form environment (← form.readShort g letter value) slots rest
          | .plain =>
              if g.isWaiting then read form environment (g.fill arg) slots rest
              else
                match slots with
                | slot :: others => do read form environment (← g.open? slot (some arg)) others rest
                | [] => .error (form.surplus false arg)

def matchAll (form : Form) (environment : Environment) (args : List String) : Except ArgumentFault Matched :=
  form.read environment {} form.operands args

end Form

end ManifestSecrets
