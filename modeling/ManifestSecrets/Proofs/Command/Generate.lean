import ManifestSecrets.Command.Run
import ManifestSecrets.Proofs.Manifest.Generate

set_option autoImplicit false

namespace ManifestSecrets

namespace Output

variable (o : Output) (text : String)

end Output

namespace Command

section Ended

variable (w : World) (broken : FileFault → Nat × String) (r : Run Failure String)

end Ended

def ready (w : World) : World := { w with environment := w.environment.withFile w.files }

theorem run_arguments_ready (w : World) (args : List String) (command : Command)
    (parsed : parse (ready w).environment args = .ok command) : runArguments w args = run (ready w) command := by
  have read : parse (w.environment.withFile w.files) args = .ok command := parsed
  rw [runArguments]
  simp only [read]
  rfl

theorem run_arguments_refused (w : World) (args : List String) (fault : ArgumentFault)
    (parsed : parse (ready w).environment args = .error fault) : runArguments w args = refused (ready w) fault := by
  have read : parse (w.environment.withFile w.files) args = .error fault := parsed
  rw [runArguments]
  simp only [read]
  rfl

end Command

namespace Manifest

variable {σ : Type}

end Manifest

end ManifestSecrets
