import ManifestSecrets.Document
import ManifestSecrets.Kind
import ManifestSecrets.Log
import ManifestSecrets.Shape.ConfigMap
import ManifestSecrets.Shape.Deployment
import ManifestSecrets.Shape.Secret
import ManifestSecrets.Walk
import ManifestSecrets.Yaml.Writer

/-!
A document of a known kind, whose placeholders are replaced in place. The sub-trees of the kind are
walked in order and the first one with errors ends the replacement. A template can be exported once a
replacement has succeeded, also after a later one failed.
-/

set_option autoImplicit false

namespace ManifestSecrets

inductive TemplateError where
  | replacement (kind : Kind) (subtree : String) (errors : List ReplacementError)
  | structural (cause : StructuralError)
  | misfit (kind : Kind) (cause : Shape.Mismatch)
  | unsupportedKind (name : String)
  | notReplaced (kind : Kind)

def TemplateError.message : TemplateError → String
  | .replacement kind subtree errors =>
      "could not replace all placeholders in " ++ kind.name ++ " " ++ subtree ++ " ("
        ++ toString errors.length ++ " error(s)):\n" ++ ReplacementError.list errors
  | .structural cause => "malformed manifest: " ++ cause.message
  | .misfit kind cause =>
      "could not convert replaced template into " ++ kind.name ++ ": " ++ cause.message
  | .unsupportedKind name => "unsupported kind: " ++ name
  | .notReplaced kind => kind.name ++ " template exported before a successful replace"

inductive Exported where
  | deployment (value : Shape.Deployment)
  | secret (value : Shape.Secret)
  | configMap (value : Shape.ConfigMap)

namespace Exported

def decode : Kind → Shape.Decoder Exported
  | .deployment, v => (Shape.Deployment.decode v).map .deployment
  | .secret, v => (Shape.Secret.decode v).map .secret
  | .configMap, v => (Shape.ConfigMap.decode v).map .configMap

def written : Exported → Json
  | .deployment d => d.written
  | .secret s => s.written
  | .configMap c => c.written

def toYaml (e : Exported) : String := Yaml.write e.written

end Exported

structure Template where
  kind : Kind
  document : Document
  secrets : SecretMap
  errors : List ReplacementError := []
  replaced : Bool := false

namespace Template

def create (document : Document) (secrets : SecretMap) : Except TemplateError Template :=
  match document.kind? with
  | none => .error (.unsupportedKind "<none>")
  | some name =>
      match Kind.ofName? name with
      | some kind => .ok { kind, document, secrets }
      | none => .error (.unsupportedKind name)

def createdLog (t : Template) : List LogLine := [.debug ("Creating " ++ t.kind.name ++ " template")]

structure Step where
  document : Document
  errors : List ReplacementError
  logs : List LogLine

def walkSubtree (kind : Kind) (secrets : SecretMap) (document : Document) (name : String)
    (policy : Policy) : Step :=
  match document.root.find? name with
  | some (.mapping entries) =>
      let walked := Tree.walkEntries policy secrets entries
      let visited := "Walked " ++ kind.name ++ " " ++ name ++ " with " ++ policy.name ++ " policy: "
        ++ toString walked.visited ++ " string field(s)"
      let unresolved := toString walked.errors.length ++ " unresolved placeholder(s) in " ++ kind.name
        ++ " " ++ name
      ⟨document.put name (.mapping walked.value), walked.errors,
        .debug visited :: if walked.errors.isEmpty then [] else [.warn unresolved]⟩
  | some other =>
      ⟨document, [], [.debug (kind.name ++ " " ++ name ++ " is a " ++ other.typeName ++ ", skipping")]⟩
  | none => ⟨document, [], []⟩

structure Outcome where
  document : Document
  logs : List LogLine
  failed : Option (String × List ReplacementError)

-- Walks sub-trees until one has errors.
def walkSubtrees (kind : Kind) (secrets : SecretMap) (document : Document) :
    List (String × Policy) → Outcome
  | [] => ⟨document, [], none⟩
  | (name, policy) :: rest =>
      let step := walkSubtree kind secrets document name policy
      if step.errors.isEmpty then
        let outcome := walkSubtrees kind secrets step.document rest
        { outcome with logs := step.logs ++ outcome.logs }
      else ⟨step.document, step.logs, some (name, step.errors)⟩

def replace (t : Template) : Template × List LogLine × Except TemplateError Unit :=
  let outcome := walkSubtrees t.kind t.secrets t.document t.kind.subtrees
  match outcome.failed with
  | none => ({ t with document := outcome.document, errors := [], replaced := true }, outcome.logs, .ok ())
  | some (name, errors) =>
      ({ t with document := outcome.document, errors := errors }, outcome.logs,
        .error (.replacement t.kind name errors))

def exported (t : Template) : Except TemplateError Exported :=
  if t.replaced then
    match Exported.decode t.kind t.document.toJson with
    | .ok e => .ok e
    | .error cause => .error (.misfit t.kind cause)
  else .error (.notReplaced t.kind)

def toYaml (t : Template) : Except TemplateError String := t.exported.map Exported.toYaml

end Template

end ManifestSecrets
