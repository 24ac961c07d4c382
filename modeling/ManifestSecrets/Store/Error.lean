import ManifestSecrets.Files.Path

set_option autoImplicit false

namespace ManifestSecrets

inductive StoreError where
  | http (reason : String)
  | status (code : Nat) (path message : String)
  | auth (reason : String)
  | notFound (path : String)
  | unexpectedFormat (reason : String)
  | config (reason : String)
  | file (fault : FileFault)
  | tooLarge (path : String) (size limit : Nat)
  | unreadable (path reason : String)
deriving DecidableEq, Repr

namespace StoreError

def message : StoreError → String
  | .http reason => "HTTP error: " ++ reason
  | .status code path message => "Vault returned " ++ toString code ++ " for " ++ path ++ ": " ++ message
  | .auth reason => "authentication failed: " ++ reason
  | .notFound path => "no secrets found at " ++ path
  | .unexpectedFormat reason => "unexpected response format: " ++ reason
  | .config reason => "configuration error: " ++ reason
  | .file fault => "I/O error: " ++ fault.message
  | .tooLarge path size limit =>
      "could not parse secrets file: '" ++ path ++ "' is " ++ toString size ++ " bytes, exceeds limit of "
        ++ toString limit ++ " bytes"
  | .unreadable path reason => "could not parse secrets file: '" ++ path ++ "': " ++ reason

end StoreError

end ManifestSecrets
