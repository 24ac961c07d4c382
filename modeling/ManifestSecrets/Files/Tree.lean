import ManifestSecrets.Files.Path

/-!
A tree of files, as a list of what stands at which place. The places above an entry are directories. A
path is followed name by name: every name but the last has to be a directory, and so has the last one
before a slash. A link stands for what it leads to.
-/

set_option autoImplicit false

namespace ManifestSecrets

-- Why a file cannot be read or written; of a directory, why it cannot be listed and nothing can be put into it.
structure Access where
  reading : Option FileFault := none
  writing : Option FileFault := none

inductive FileEntry where
  | file (content : ByteArray) (access : Access := {})
  -- What is read and written like a file, but keeps nothing.
  | device (content : ByteArray) (access : Access := {})
  -- A directory, with the reason for which a name in it cannot be looked up.
  | directory (access : Access := {}) (hidden : FilePath → Option FileFault := fun _ => none)

namespace FileEntry

def isFile : FileEntry → Bool
  | .file .. => true
  | _ => false

def access : FileEntry → Access
  | .file _ access => access
  | .device _ access => access
  | .directory access _ => access

def size : FileEntry → Nat
  | .file content _ => content.size
  | _ => 0

def bytes (entry : FileEntry) : Except FileFault ByteArray :=
  match entry.access.reading, entry with
  | some fault, _ => .error fault
  | none, .file content _ => .ok content
  | none, .device content _ => .ok content
  | none, .directory .. => .error .isADirectory

def text (entry : FileEntry) : Except FileFault String := do
  match String.fromUTF8? (← entry.bytes) with
  | some s => return s
  | none => throw .notText

def ofText (s : String) (access : Access := {}) : FileEntry := .file s.toUTF8 access

end FileEntry

structure FileTree where
  entries : List (List FilePath × FileEntry)
  here : List FilePath := []
  fresh : Access := {}

namespace FileTree

def entryAt? (t : FileTree) (place : List FilePath) : Option FileEntry :=
  match (t.entries.filter fun e => e.1 == place).getLast? with
  | some e => some e.2
  | none =>
      if place.isEmpty || place.isPrefixOf t.here || t.entries.any fun e => place.isPrefixOf e.1
      then some .directory else none

def longestName : Nat := 255

def longestPath : Nat := 4095

def search (t : FileTree) (place : List FilePath) (name : FilePath) : Except FileFault Unit :=
  match t.entryAt? place with
  | some (.directory _ hidden) =>
      match if name.isEmpty then none else hidden name with
      | some fault => .error fault
      | none => .ok ()
  | _ => .error .notADirectory

def enter (t : FileTree) (place : List FilePath) (name : FilePath) : Except FileFault (List FilePath) := do
  t.search place name
  if FilePath.isIdle name then return place
  else if name = FilePath.upwards then return place.dropLast
  else if longestName < name.length then throw .nameTooLong
  else if (t.entryAt? (place ++ [name])).isNone then throw .missing
  else return place ++ [name]

def start (t : FileTree) (path : FilePath) : List FilePath := if FilePath.isAbsolute path then [] else t.here

def badPath? (path : FilePath) : Option FileFault :=
  if path.contains 0 then some .zeroInPath
  else if path = [] then some .missing
  else if longestPath < path.length then some .nameTooLong
  else none

def follow (t : FileTree) (path : FilePath) (names : List FilePath) : Except FileFault (List FilePath) :=
  match badPath? path with
  | some fault => .error fault
  | none => names.foldlM t.enter (t.start path)

def find (t : FileTree) (path : FilePath) : Except FileFault (List FilePath) := t.follow path (FilePath.parts path)

def look (t : FileTree) (path : FilePath) : Except FileFault FileEntry := do
  match t.entryAt? (← t.find path) with
  | some entry => return entry
  | none => throw .missing

def has (t : FileTree) (path : FilePath) : Bool :=
  match t.look path with
  | .ok _ => true
  | .error _ => false

def namesAt (t : FileTree) (place : List FilePath) : List FilePath :=
  (t.entries.filterMap fun e =>
    if place.isPrefixOf e.1 then (e.1.drop place.length).head? else none).eraseDups

def names? (t : FileTree) (path : FilePath) : Option (Except FileFault (List FilePath)) :=
  match t.find path, t.look path with
  | .ok place, .ok (.directory access _) => some (access.reading.elim (.ok (t.namesAt place)) .error)
  | _, _ => none

def splitLast (path : FilePath) : List FilePath × FilePath :=
  let names := FilePath.parts path
  let kept := (names.reverse.dropWhile List.isEmpty).reverse
  (kept.dropLast, kept.getLastD [])

def holding (t : FileTree) (target : List FilePath) (entry : FileEntry) : FileTree :=
  { t with entries := t.entries.filter (·.1 != target) ++ [(target, entry)] }

def put (t : FileTree) (place : List FilePath) (name : FilePath) (content : String) : Except FileFault FileTree :=
  let target := place ++ [name]
  match t.entryAt? target with
  | some (.directory ..) => .error .isADirectory
  | some (.file _ access) => access.writing.elim (.ok (t.holding target (.ofText content access))) .error
  | some (.device _ access) => access.writing.elim (.ok t) .error
  | none =>
      ((t.entryAt? place).bind fun above => above.access.writing).elim
        (.ok (t.holding target (.ofText content t.fresh))) .error

def write (t : FileTree) (path : FilePath) (content : String) : Except FileFault FileTree := do
  let (front, name) := splitLast path
  let place ← t.follow path front
  t.search place name
  if FilePath.endsInSlash path || FilePath.isIdle name || name = FilePath.upwards then throw .isADirectory
  else if longestName < name.length then throw .nameTooLong
  else t.put place name content

end FileTree

end ManifestSecrets
