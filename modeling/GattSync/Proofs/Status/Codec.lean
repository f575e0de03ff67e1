import GattSync.Status.Codec
import GattSync.Proofs.Json.Records
import GattSync.Proofs.Time.Rfc3339

/-!
# Status and its encodings

A snapshot is decoded from its encoding if each of its entries was updated at a moment that can be
written, as those of every decoded snapshot were.
-/

namespace GattSync

open Json

theorem DeviceIdentity.toJson_eq (i : DeviceIdentity) : i.toJson =
    record ["namespace", "name"] [ofText i.nspace, ofText i.name] := rfl

theorem DeviceIdentity.ofJson?_toJson (i : DeviceIdentity) : ofJson? i.toJson = some i := by
  rw [ofJson?, toJson_eq, asFields?_record (by decide) rfl]
  rfl

theorem DeviceIdentity.isLegible_toJson (i : DeviceIdentity) : i.toJson.IsLegible := by
  rw [toJson_eq]
  apply isLegible_record
  simp [isLegible_ofText]

namespace Status

theorem timestamp?_ofText {t : Timestamp} (h : Rfc3339.IsWritable t) :
    timestamp? (ofText (Rfc3339.write t)) = some t := by
  simp [timestamp?, Rfc3339.read?_write h]

theorem isWritable_of_given {t : Timestamp} (h : Given timestamp? t) : Rfc3339.IsWritable t := by
  obtain ⟨v, h⟩ := h
  obtain ⟨s, -, read⟩ := Option.bind_eq_some_iff.mp h
  exact Rfc3339.isWritable_of_read? read

namespace Entry

theorem toJson_eq (e : Entry) : e.toJson =
    record ["name", "desired", "reported", "updatedAt"]
      [ofText e.name, ofText e.desired, ofText e.reported, ofText (Rfc3339.write e.updatedAt)] :=
  rfl

variable {e : Entry}

theorem ofJson?_toJson (h : Rfc3339.IsWritable e.updatedAt) : ofJson? e.toJson = some e := by
  rw [ofJson?, toJson_eq, asFields?_record (by decide) rfl]
  simp [required?, timestamp?_ofText h]

theorem isWritable_of_given (h : Given ofJson? e) : Rfc3339.IsWritable e.updatedAt := by
  obtain ⟨v, h⟩ := h
  obtain ⟨fields, -, h⟩ := Option.bind_eq_some_iff.mp h
  split at h
  · obtain ⟨name, -, h⟩ := Option.bind_eq_some_iff.mp h
    obtain ⟨desired, -, h⟩ := Option.bind_eq_some_iff.mp h
    obtain ⟨reported, -, h⟩ := Option.bind_eq_some_iff.mp h
    obtain ⟨updatedAt, ht, h⟩ := Option.bind_eq_some_iff.mp h
    obtain rfl := Option.some.inj h
    exact Status.isWritable_of_given (given_of_required? ht)
  · cases h

theorem isLegible_toJson (e : Entry) : e.toJson.IsLegible := by
  rw [toJson_eq]
  apply isLegible_record
  simp [isLegible_ofText]

end Entry

namespace Snapshot

def IsWritable (s : Snapshot) : Prop := ∀ e ∈ s.entries, Rfc3339.IsWritable e.updatedAt

theorem toJson_eq (s : Snapshot) : s.toJson =
    record ["properties"] [.array (s.entries.map Entry.toJson)] := rfl

variable {s : Snapshot}

theorem ofJson?_toJson (h : s.IsWritable) : ofJson? s.toJson = some s := by
  have entries : asList? Entry.ofJson? (.array (s.entries.map Entry.toJson)) = some s.entries :=
    asList?_map fun e mem => Entry.ofJson?_toJson (h e mem)
  rw [ofJson?, toJson_eq, asFields?_record (by decide) rfl]
  simp [optional?, entries]

theorem isWritable_of_given (h : Given ofJson? s) : s.IsWritable := by
  obtain ⟨v, h⟩ := h
  obtain ⟨fields, -, h⟩ := Option.bind_eq_some_iff.mp h
  split at h
  · obtain ⟨entries, he, h⟩ := Option.bind_eq_some_iff.mp h
    obtain rfl := Option.some.inj h
    intro e mem
    rcases given_of_optional? he with rfl | given
    · cases mem
    · exact Entry.isWritable_of_given (given_of_mem_asList? given mem)
  · cases h

theorem isLegible_toJson (s : Snapshot) : s.toJson.IsLegible := by
  have entries : (array (s.entries.map Entry.toJson)).IsLegible :=
    isLegible_array (List.forall_mem_map.mpr fun e _ => e.isLegible_toJson)
  rw [toJson_eq]
  apply isLegible_record
  simp [entries]

end Snapshot

namespace Publication

theorem toJson_eq (p : Publication) : p.toJson =
    record ["device", "status"] [p.device.toJson, p.status.toJson] := rfl

variable {p : Publication}

theorem ofJson?_toJson (h : p.status.IsWritable) : ofJson? p.toJson = some p := by
  rw [ofJson?, toJson_eq, asFields?_record (by decide) rfl]
  simp [required?, DeviceIdentity.ofJson?_toJson, Snapshot.ofJson?_toJson h]

theorem isWritable_of_given (h : Given ofJson? p) : p.status.IsWritable := by
  obtain ⟨v, h⟩ := h
  obtain ⟨fields, -, h⟩ := Option.bind_eq_some_iff.mp h
  split at h
  · obtain ⟨device, -, h⟩ := Option.bind_eq_some_iff.mp h
    obtain ⟨status, hs, h⟩ := Option.bind_eq_some_iff.mp h
    obtain rfl := Option.some.inj h
    exact Snapshot.isWritable_of_given (given_of_required? hs)
  · cases h

theorem isLegible_toJson (p : Publication) : p.toJson.IsLegible := by
  rw [toJson_eq]
  apply isLegible_record
  simp [DeviceIdentity.isLegible_toJson, Snapshot.isLegible_toJson]

end Publication
end Status
end GattSync
