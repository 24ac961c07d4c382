set_option autoImplicit false

namespace ManifestSecrets

inductive LogLevel where
  | debug
  | info
  | warn
deriving DecidableEq, Repr

def LogLevel.name : LogLevel → String
  | .debug => "DEBUG"
  | .info => "INFO"
  | .warn => "WARN"

structure LogLine where
  level : LogLevel
  text : String
deriving DecidableEq, Repr

namespace LogLine

def debug (text : String) : LogLine := ⟨.debug, text⟩

def info (text : String) : LogLine := ⟨.info, text⟩

def warn (text : String) : LogLine := ⟨.warn, text⟩

def shown (line : LogLine) : String := line.level.name ++ " " ++ line.text

end LogLine

structure Run (ε α : Type) where
  logs : List LogLine
  result : Except ε α

namespace Run

variable {ε α β : Type}

def log (line : LogLine) : Run ε Unit := ⟨[line], .ok ()⟩

def ofExcept (r : Except ε α) : Run ε α := ⟨[], r⟩

def andThen (r : Run ε α) (f : α → Run ε β) : Run ε β :=
  match r.result with
  | .ok a => ⟨r.logs ++ (f a).logs, (f a).result⟩
  | .error e => ⟨r.logs, .error e⟩

instance : Monad (Run ε) where
  pure a := ⟨[], .ok a⟩
  bind := andThen

def mapError {δ : Type} (f : ε → δ) (r : Run ε α) : Run δ α := ⟨r.logs, r.result.mapError f⟩

end Run

end ManifestSecrets
