import ManifestSecrets.Text.Bytes

set_option autoImplicit false

namespace ManifestSecrets

inductive FileFault where
  | missing
  | notADirectory
  | isADirectory
  | nameTooLong
  | zeroInPath
  | notText
  | other (text : String)
deriving DecidableEq, Repr

def FileFault.message : FileFault → String
  | .missing => "No such file or directory (os error 2)"
  | .notADirectory => "Not a directory (os error 20)"
  | .isADirectory => "Is a directory (os error 21)"
  | .nameTooLong => "File name too long (os error 36)"
  | .zeroInPath => "file name contained an unexpected NUL byte"
  | .notText => "stream did not contain valid UTF-8"
  | .other text => text

abbrev FilePath := List UInt8

instance : Coe String FilePath := ⟨Text.utf8⟩

namespace FilePath

def slash : UInt8 := 47

def point : UInt8 := 46

def upwards : FilePath := ".."

def parts (path : FilePath) : List FilePath := path.splitOn slash

def isIdle (part : FilePath) : Bool := part.isEmpty || part == [point]

def isAbsolute (path : FilePath) : Bool := path.head? == some slash

def endsInSlash (path : FilePath) : Bool := path.getLast? == some slash

def fileName? (path : FilePath) : Option FilePath :=
  match ((parts path).filter fun part => !isIdle part).getLast? with
  | some name => if name = upwards then none else some name
  | none => none

-- What follows the last point of the last name, unless the name starts with that point.
def extension? (path : FilePath) : Option FilePath := do
  let name ← fileName? path
  let after := (name.reverse.takeWhile (· != point)).reverse
  if after.length + 1 < name.length then return after else none

def isDash (path : FilePath) : Bool :=
  match parts path with
  | first :: rest => first == Text.utf8 "-" && rest.all isIdle
  | [] => false

def inside (directory name : FilePath) : FilePath :=
  if endsInSlash directory then directory ++ name else directory ++ slash :: name

def shown (path : FilePath) : String := Text.lossy path

end FilePath

end ManifestSecrets
