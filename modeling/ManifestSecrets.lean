import ManifestSecrets.Command.Run
import ManifestSecrets.Main
import ManifestSecrets.Proofs.KeyMap
import ManifestSecrets.Proofs.Placeholder.Resolve
import ManifestSecrets.Proofs.Tree.Leaves
import ManifestSecrets.Proofs.Walk
import ManifestSecrets.Proofs.Policy
import ManifestSecrets.Proofs.Template.Subtrees
import ManifestSecrets.Proofs.Template.Replace
import ManifestSecrets.Proofs.Placeholder.Refill
import ManifestSecrets.Proofs.Tree.OfJson
import ManifestSecrets.Proofs.Retry
import ManifestSecrets.Proofs.Template.Retry
import ManifestSecrets.Proofs.Template.Export
import ManifestSecrets.Proofs.Template.Settled
import ManifestSecrets.Proofs.Agreement
import ManifestSecrets.Proofs.Manifest.Render
import ManifestSecrets.Proofs.Walk.Sink
import ManifestSecrets.Proofs.Shape.Decoder
import ManifestSecrets.Proofs.Template.Payload
import ManifestSecrets.Proofs.Store.History
import ManifestSecrets.Proofs.Url.Join
import ManifestSecrets.Proofs.Store.Login
import ManifestSecrets.Proofs.Manifest.Generate
import ManifestSecrets.Proofs.Command.Generate
import ManifestSecrets.Proofs.Document.Entries
import ManifestSecrets.Proofs.Json.Order
import ManifestSecrets.Proofs.Shape.Codec
import ManifestSecrets.Proofs.Shape.Records
import ManifestSecrets.Proofs.Template.Fixpoint
import ManifestSecrets.Proofs.Document.Outcome
import ManifestSecrets.Proofs.Document.Decoders
import ManifestSecrets.Proofs.Template.Bytes
import ManifestSecrets.Proofs.Template.Discretion
import ManifestSecrets.Proofs.Settings.File
import ManifestSecrets.Proofs.Command.PathPrefix
import ManifestSecrets.Proofs.Command.Create
import ManifestSecrets.Proofs.Template.Disclosure
import ManifestSecrets.Proofs.Settings.Validation
import ManifestSecrets.Proofs.Command.Display
import ManifestSecrets.Proofs.Policy.Forms
import ManifestSecrets.Proofs.Store.Refusal
import ManifestSecrets.Proofs.Settings.Layers
import ManifestSecrets.Proofs.Shape.RoundTrip
import ManifestSecrets.Proofs.Store.Reading
import ManifestSecrets.Proofs.Manifest.Stream
import ManifestSecrets.Proofs.Store.KvVersion
import ManifestSecrets.Proofs.Store.Request
import ManifestSecrets.Proofs.Manifest.Directory
