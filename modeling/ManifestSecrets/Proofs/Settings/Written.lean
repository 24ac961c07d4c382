import ManifestSecrets.Proofs.Decimal.Number
import ManifestSecrets.Proofs.Shape.Records
import ManifestSecrets.Settings.Shape

set_option autoImplicit false

namespace ManifestSecrets

open Shape (Codec)
open Shape.Decoder

namespace Shape

theorem Slot.read_written {σ : Type} (slots : List (Slot σ)) (distinct : (Slot.names slots).Nodup) (r : σ)
    (again : ∀ slot ∈ slots, slot.codec.Reads ((slot.written r).map Json.sorted) (slot.get r)) :
    Slot.Read slots (fun name => KeyMap.find? name (KeyMap.ofList (Json.sortedFields (Slot.fields slots r [])))) r := by
  have keys := Slot.fields_distinct slots distinct r [] trivial fun _ _ => rfl
  intro slot member
  change slot.codec.Reads (KeyMap.find? slot.name _) _
  rw [Json.find_sorted slot.name _ keys, Slot.find_fields_slot slots distinct r [] slot member rfl]
  exact again slot member

end Shape

theorem text_read_again (o : Option String) :
    (Codec.optional text .text).Reads (((Codec.optional text .text).write o).map Json.sorted) o := by
  cases o <;> rfl

theorem KvVersion.decode_written (version : KvVersion) : decode (.ofUnsigned (.ofNat version.number)) = .ok version := by
  cases version <;> rfl

theorem AuthMethod.decode_written (method : AuthMethod) : variant names (.text method.name) = .ok method := by
  cases method <;> rfl

theorem LogFormat.decode_written (format : LogFormat) : variant names (.text format.name) = .ok format := by
  cases format <;> rfl

namespace AuthSettings

def slots : List (Shape.Slot AuthSettings) :=
  [⟨_, "method", .defaulted (variant AuthMethod.names) (fun m => .text m.name) .appRole, .whole, method⟩,
    ⟨_, "roleId", .optional text .text, .whole, roleId⟩, ⟨_, "secretId", .optional text .text, .whole, secretId⟩,
    ⟨_, "token", .optional text .text, .whole, token⟩]

theorem decode_of_read (found : KeyMap Json) (a : AuthSettings)
    (reads : Shape.Slot.Read slots (fun name => KeyMap.find? name found) a) : decode (.object found) = .ok a := by
  obtain ⟨method, roleId, secretId, token⟩ := a
  simp only [Shape.Slot.Read, slots, List.forall_mem_cons, Shape.reads_optional_iff, Shape.reads_defaulted_iff] at reads
  obtain ⟨⟨m, mRead, rfl⟩, ⟨r, rRead, rfl⟩, ⟨s, sRead, rfl⟩, ⟨t, tRead, rfl⟩, -⟩ := reads
  simp only [decode, bind_ok_iff, Shape.fetch_field]
  exact ⟨m, mRead, r, rRead, s, sRead, t, tRead, rfl⟩

theorem written_fields (a : AuthSettings) : a.written = .object (Shape.Slot.fields slots a []) := by
  simp only [written, Shape.Slot.fields, slots, List.flatMap_cons, List.flatMap_nil, Shape.Slot.written, List.append_nil,
    List.append_assoc]
  rfl

theorem decode_written (a : AuthSettings) : decode a.written.sorted = .ok a := by
  rw [written_fields]
  refine decode_of_read _ a (Shape.Slot.read_written slots (by decide) a ?_)
  simp only [slots, List.forall_mem_cons]
  exact ⟨a.method.decode_written, text_read_again _, text_read_again _, text_read_again _, List.forall_mem_nil _⟩

end AuthSettings

namespace VaultSettings

theorem seconds_written (n : UInt64) : seconds (.ofUnsigned n) = .ok n := by
  have greatest := n.toNat_lt
  have within : (0 : Int) ≤ n.toNat ∧ (n.toNat : Int) ≤ 0xFFFFFFFFFFFFFFFF := ⟨Int.natCast_nonneg _, by omega⟩
  simp only [seconds, Json.ofUnsigned, integer, Integer64.ofUnsigned, if_pos within, Except.map, Int.toNat_natCast,
    UInt64.ofNat_toNat]

def slots : List (Shape.Slot VaultSettings) :=
  [⟨_, "address", .optional text .text, .whole, address⟩, ⟨_, "namespace", .optional text .text, .whole, namespaceName⟩,
    ⟨_, "pathPrefix", .optional text .text, .whole, pathPrefix⟩,
    ⟨_, "kvVersion", .defaulted KvVersion.decode (fun k => .ofUnsigned (.ofNat k.number)) .one, .whole, kvVersion⟩,
    ⟨_, "timeoutSecs", .defaulted seconds .ofUnsigned 30, .whole, timeoutSecs⟩,
    ⟨_, "auth", .defaulted AuthSettings.decode AuthSettings.written {}, .whole, auth⟩]

theorem decode_of_read (found : KeyMap Json) (v : VaultSettings)
    (reads : Shape.Slot.Read slots (fun name => KeyMap.find? name found) v) : decode (.object found) = .ok v := by
  obtain ⟨address, namespaceName, pathPrefix, kvVersion, timeoutSecs, auth⟩ := v
  simp only [Shape.Slot.Read, slots, List.forall_mem_cons, Shape.reads_optional_iff, Shape.reads_defaulted_iff] at reads
  obtain ⟨⟨a, aRead, rfl⟩, ⟨n, nRead, rfl⟩, ⟨p, pRead, rfl⟩, ⟨k, kRead, rfl⟩, ⟨t, tRead, rfl⟩, ⟨u, uRead, rfl⟩, -⟩ := reads
  simp only [decode, bind_ok_iff, Shape.fetch_field]
  exact ⟨a, aRead, u, uRead, k, kRead, n, nRead, p, pRead, t, tRead, rfl⟩

theorem written_fields (v : VaultSettings) : v.written = .object (Shape.Slot.fields slots v []) := by
  simp only [written, Shape.Slot.fields, slots, List.flatMap_cons, List.flatMap_nil, Shape.Slot.written, List.append_nil,
    List.append_assoc]
  rfl

theorem decode_written (v : VaultSettings) : decode v.written.sorted = .ok v := by
  rw [written_fields]
  refine decode_of_read _ v (Shape.Slot.read_written slots (by decide) v ?_)
  simp only [slots, List.forall_mem_cons]
  exact ⟨text_read_again _, text_read_again _, text_read_again _, v.kvVersion.decode_written,
    seconds_written v.timeoutSecs, v.auth.decode_written, List.forall_mem_nil _⟩

end VaultSettings

namespace LogSettings

def slots : List (Shape.Slot LogSettings) :=
  [⟨_, "level", .optional text .text, .whole, level⟩,
    ⟨_, "format", .defaulted (variant LogFormat.names) (fun f => .text f.name) .text, .whole, format⟩]

theorem decode_of_read (found : KeyMap Json) (l : LogSettings)
    (reads : Shape.Slot.Read slots (fun name => KeyMap.find? name found) l) : decode (.object found) = .ok l := by
  obtain ⟨level, format⟩ := l
  simp only [Shape.Slot.Read, slots, List.forall_mem_cons, Shape.reads_optional_iff, Shape.reads_defaulted_iff] at reads
  obtain ⟨⟨v, vRead, rfl⟩, ⟨f, fRead, rfl⟩, -⟩ := reads
  simp only [decode, bind_ok_iff, Shape.fetch_field]
  exact ⟨f, fRead, v, vRead, rfl⟩

theorem written_fields (l : LogSettings) : l.written = .object (Shape.Slot.fields slots l []) := by
  simp only [written, Shape.Slot.fields, slots, List.flatMap_cons, List.flatMap_nil, Shape.Slot.written, List.append_nil]
  rfl

theorem decode_written (l : LogSettings) : decode l.written.sorted = .ok l := by
  rw [written_fields]
  refine decode_of_read _ l (Shape.Slot.read_written slots (by decide) l ?_)
  simp only [slots, List.forall_mem_cons]
  exact ⟨text_read_again _, l.format.decode_written, List.forall_mem_nil _⟩

end LogSettings

namespace Settings

def slots : List (Shape.Slot Settings) :=
  [⟨_, "vault", .defaulted VaultSettings.decode VaultSettings.written {}, .whole, vault⟩,
    ⟨_, "logging", .defaulted LogSettings.decode LogSettings.written {}, .whole, logging⟩]

theorem decode_of_read (found : KeyMap Json) (s : Settings)
    (reads : Shape.Slot.Read slots (fun name => KeyMap.find? name found) s) : decode (.object found) = .ok s := by
  obtain ⟨vault, logging⟩ := s
  simp only [Shape.Slot.Read, slots, List.forall_mem_cons, Shape.reads_defaulted_iff] at reads
  obtain ⟨⟨v, vRead, rfl⟩, ⟨l, lRead, rfl⟩, -⟩ := reads
  simp only [decode, bind_ok_iff, Shape.fetch_field]
  exact ⟨l, lRead, v, vRead, rfl⟩

theorem decode_written (s : Settings) : decode s.written.sorted = .ok s := by
  refine decode_of_read _ s (Shape.Slot.read_written slots (by decide) s ?_)
  simp only [slots, List.forall_mem_cons]
  exact ⟨s.vault.decode_written, s.logging.decode_written, List.forall_mem_nil _⟩

end Settings

end ManifestSecrets
