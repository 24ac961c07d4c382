import ManifestSecrets.Manifest.Files

set_option autoImplicit false

namespace ManifestSecrets

def render (value : Yaml) (secrets : SecretMap) : Run TemplateError String := do
  let document ← .ofExcept ((Document.ofYaml value).mapError .structural)
  let template ← .ofExcept (Template.create document secrets)
  let (replaced, logs, result) := template.replace
  Run.andThen ⟨template.createdLog ++ logs, result⟩ fun _ => .ofExcept replaced.toYaml

namespace Manifest

def failedToRender (source : String) (e : TemplateError) : Failure :=
  ⟨.template e, ["Failed to render " ++ source]⟩

def renderEach (secrets : SecretMap) : List Manifest → Run Failure (List String)
  | [] => pure []
  | m :: rest => do
      let text ← (render m.value secrets).mapError (failedToRender m.source)
      return text :: (← renderEach secrets rest)

def separator : String := "---\n"

def renderAll (manifests : List Manifest) (secrets : SecretMap) : Run Failure String := do
  return separator.intercalate (← renderEach secrets manifests)

end Manifest

end ManifestSecrets
