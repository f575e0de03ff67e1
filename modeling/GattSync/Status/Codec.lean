import GattSync.Status.Feed
import GattSync.Json.Decoder
import GattSync.Time.Rfc3339

/-!
# Status as JSON
-/

namespace GattSync

open Json

def DeviceIdentity.toJson (i : DeviceIdentity) : Json :=
  .object [member "namespace" (ofText i.nspace), member "name" (ofText i.name)]

def DeviceIdentity.ofJson? (v : Json) : Option DeviceIdentity := do
  match ← asFields? ["namespace", "name"] v with
  | [nspace, name] => some ⟨← required? asText? nspace, ← required? asText? name⟩
  | _ => none

namespace Status

def Entry.toJson (e : Entry) : Json :=
  .object
    [member "name" (ofText e.name), member "desired" (ofText e.desired),
     member "reported" (ofText e.reported), member "updatedAt" (ofText (Rfc3339.write e.updatedAt))]

/-- A timestamp is given as its text. -/
def timestamp? (v : Json) : Option Timestamp := do Rfc3339.read? (← asText? v)

def Entry.ofJson? (v : Json) : Option Entry := do
  match ← asFields? ["name", "desired", "reported", "updatedAt"] v with
  | [name, desired, reported, updatedAt] =>
    some ⟨← required? asText? name, ← required? asText? desired, ← required? asText? reported,
      ← required? timestamp? updatedAt⟩
  | _ => none

def Snapshot.toJson (s : Snapshot) : Json :=
  .object [member "properties" (.array (s.entries.map Entry.toJson))]

def Snapshot.ofJson? (v : Json) : Option Snapshot := do
  match ← asFields? ["properties"] v with
  | [entries] => some ⟨← optional? (asList? Entry.ofJson?) [] entries⟩
  | _ => none

def Publication.toJson (p : Publication) : Json :=
  .object [member "device" p.device.toJson, member "status" p.status.toJson]

def Publication.ofJson? (v : Json) : Option Publication := do
  match ← asFields? ["device", "status"] v with
  | [device, status] =>
    some ⟨← required? DeviceIdentity.ofJson? device, ← required? Snapshot.ofJson? status⟩
  | _ => none

end Status
end GattSync
