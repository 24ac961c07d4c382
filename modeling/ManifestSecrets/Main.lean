import ManifestSecrets.Command.Run

/-!
The program: it takes what a run may look at from the system, runs the command, and writes what the run
says. There is no connection to a server, so secrets come from files.
-/

set_option autoImplicit false

namespace ManifestSecrets.Program

def namesIn (text : String) : List String :=
  let cut (p : Char → Bool) : List String := (text.toList.splitOnP p).map String.ofList
  cut (!Text.isLetterOrNumber ·) ++ cut (!Environment.isNameChar ·) ++ cut fun c => c == '\x7b' || c == '\x7d'

def readEnvironment (names : List String) : IO Environment := do
  let found ← (Variable.all.map Variable.name ++ names).filterMapM fun name => do
    return (← IO.getEnv name).map fun value => (name, value)
  return .ofTexts fun name => KeyMap.find? name found

def here : IO (List FilePath) := do
  return (FilePath.parts (← IO.currentDir).toString).filter (!FilePath.isIdle ·)

def placeText (place : List FilePath) : String := "/" ++ "/".intercalate (place.map FilePath.shown)

def placesAlong (place : List FilePath) : List FilePath → List (List FilePath)
  | [] => []
  | name :: rest =>
      if FilePath.isIdle name then placesAlong place rest
      else if name = FilePath.upwards then placesAlong place.dropLast rest
      else (place ++ [name]) :: placesAlong (place ++ [name]) rest

def readPlace (place : List FilePath) : IO (Option FileEntry) := do
  let path := (← IO.currentDir) / placeText place
  if ← path.isDir then return some .directory
  else if ← path.pathExists then
    try return some (.file (← IO.FS.readBinFile path))
    catch e => return some (.file .empty { reading := some (.other (toString e)) })
  else return none

def addPlace (files : FileTree) (place : List FilePath) : IO FileTree := do
  match ← readPlace place with
  | some entry => return { files with entries := files.entries ++ [(place, entry)] }
  | none => return files

def manifestsIn (place : List FilePath) : IO (List (List FilePath)) := do
  let path := (← IO.currentDir) / placeText place
  if ← path.isDir then
    let names := (← path.readDir).toList.map fun entry => (entry.fileName : FilePath)
    let named := names.filter fun name => (FilePath.extension? name).any Manifest.extensions.contains
    return named.map fun name => place ++ [name]
  else return []

def addPath (files : FileTree) (path : FilePath) : IO FileTree := do
  let start := files.start path
  let along := placesAlong start (FilePath.parts path)
  (along ++ (← manifestsIn (along.getLastD start))).foldlM addPlace files

def pathsOf : Command → List FilePath
  | .generate options =>
      ([options.path] ++ options.settingsFile.toList ++ options.secretsFile.toList).map Text.utf8 ++ Settings.candidates
  | .settings file _ => file.toList.map Text.utf8 ++ Settings.candidates
  | .version => []

def variablePlaces (place : List FilePath) : List (List FilePath) :=
  (List.range (place.length + 1)).map fun depth => place.take depth ++ [Environment.fileName]

def readStream (stream : IO.FS.Stream) : IO ByteArray := do
  let mut bytes := ByteArray.empty
  repeat
    let more ← stream.read 65536
    if more.isEmpty then break
    bytes := bytes ++ more
  return bytes

def readInput : Command → IO FileEntry
  | .generate options => do
      if FilePath.isDash options.path then return .file (← readStream (← IO.getStdin))
      else return .ofText ""
  | _ => return .ofText ""

def readWorld (args : List String) : IO World := do
  let place ← here
  let files ← (variablePlaces place).foldlM addPlace { entries := [], here := place }
  let assignments := ((Environment.file? files).bind fun entry => entry.text.toOption).getD ""
  let environment ← readEnvironment (namesIn assignments)
  let world : World := {
    files, environment, input := .ofText "", server := .unreachable "no connection", web := .usual }
  match Command.parse (environment.withFile files) args with
  | .ok command =>
      return { world with files := ← (pathsOf command).foldlM addPath files, input := ← readInput command }
  | .error _ => return world

def refusal? (output : List UInt8) : IO (Option FileFault) := do
  let stream ← IO.getStdout
  try
    stream.write ⟨output.toArray⟩
    stream.flush
    return none
  catch e => return some (.other (toString e))

-- Does what an outcome says. Lines for debugging stay out of the log, and where the standard output refuses what is
-- written the run is one in a world with such an output.
def perform (world : World) (args : List String) : IO Outcome := do
  let outcome := Command.runArguments world args
  for line in outcome.logs do
    if line.level ≠ .debug then IO.eprintln line.shown
  if let some (path, text) := outcome.written then IO.FS.writeFile path text
  match ← refusal? outcome.output with
  | none => return outcome
  | some fault => return Command.runArguments { world with output := { room := some (0, fault) } } args

end ManifestSecrets.Program

def main (args : List String) : IO UInt32 := do
  let world ← ManifestSecrets.Program.readWorld args
  let outcome ← ManifestSecrets.Program.perform world args
  IO.eprint outcome.report
  return UInt32.ofNat outcome.exitCode
