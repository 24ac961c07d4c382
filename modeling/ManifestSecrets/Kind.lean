import ManifestSecrets.Policy

set_option autoImplicit false

namespace ManifestSecrets

inductive Kind where
  | deployment
  | secret
  | configMap
deriving DecidableEq, Repr

namespace Kind

def name : Kind → String
  | .deployment => "Deployment"
  | .secret => "Secret"
  | .configMap => "ConfigMap"

def all : List Kind := [.deployment, .secret, .configMap]

def ofName? (s : String) : Option Kind := all.find? fun k => k.name == s

def subtrees : Kind → List (String × Policy)
  | .deployment => [("metadata", .generic), ("spec", .generic)]
  | .secret => [("metadata", .generic), ("data", .secret), ("stringData", .string)]
  | .configMap => [("metadata", .generic), ("data", .string)]

end Kind

end ManifestSecrets
