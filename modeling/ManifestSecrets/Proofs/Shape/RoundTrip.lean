import ManifestSecrets.Proofs.Template.Kept

set_option autoImplicit false

namespace ManifestSecrets

namespace Shape

theorem Decoder.bytes_ok_iff (v : Json) (b : List UInt8) :
    Decoder.bytes v = .ok b ↔ v = .text (Text.Base64.encode b) := by
  constructor
  · exact fun ok => (Exact.bytes v b ok).symm
  · rintro rfl
    exact Decoder.bytes_decoded b

end Shape

namespace Exported

-- What is written lists the fields of a record as the record does; as a value they are in the order of their keys.
theorem written_decoded :
    (∀ kind (v : Json), v.Ordered → ∀ e, decode kind v = .ok e →
      e.written.sorted.Ordered ∧ decode kind e.written.sorted = .ok e) ∧
    ∀ u b, Shape.Decoder.bytes u = .ok b ↔ u = .text (Text.Base64.encode b) := by
  refine ⟨fun kind v ordered e ok => ⟨e.written.sorted_ordered, ?_⟩, Shape.Decoder.bytes_ok_iff⟩
  exact (faithful kind).again v e ordered ok

def taggedSecret : Json :=
  .object [("apiVersion", .text "v1"),
    ("data", .object [("a", .text ""), ("b", .text "cw=="), ("c", .text "czM="), ("d", .text "czMj")]),
    ("immutable", .null), ("kind", .text "Secret"),
    ("metadata", .object [("labels", .object []), ("name", .null), ("uid", .text "abc")]), ("type", .text "Opaque")]

def taggedExport : Exported :=
  .secret {
    apiVersion := "v1", kind := "Secret", metadata := { others := [("uid", .text "abc")] }
    data := [("a", []), ("b", [115]), ("c", [115, 51]), ("d", [115, 51, 35])], stringData := []
    type := some "Opaque", immutable := none }

theorem written_decoded_tagged :
    taggedSecret.Ordered ∧ decode .secret taggedSecret = .ok taggedExport ∧
      taggedExport.written.sorted = .object [("apiVersion", .text "v1"),
        ("data", .object [("a", .text ""), ("b", .text "cw=="), ("c", .text "czM="), ("d", .text "czMj")]),
        ("kind", .text "Secret"), ("metadata", .object [("uid", .text "abc")]), ("type", .text "Opaque")] ∧
      decode .secret taggedExport.written.sorted = .ok taggedExport ∧
      Shape.Decoder.bytes (.text "czM=") = .ok [115, 51] := by
  have ordered : taggedSecret.Ordered := by
    simp only [taggedSecret, Json.Ordered, Json.FieldsOrdered, KeyMap.Ordered]
    decide
  have decoded : decode .secret taggedSecret = .ok taggedExport := by rfl
  obtain ⟨again, bytes⟩ := written_decoded
  exact ⟨ordered, decoded, by rfl, (again .secret taggedSecret ordered taggedExport decoded).2,
    (bytes _ _).mpr (by rfl)⟩

end Exported

end ManifestSecrets
