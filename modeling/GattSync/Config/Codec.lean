import GattSync.Config.Basic
import GattSync.Json.Decoder

/-!
# Configurations as JSON

Every field has its default. Durations are whole seconds; what a duration has beyond them is not
written.
-/

namespace GattSync

open Json

namespace PublishPoint

def choices : List (String × PublishPoint) := [("afterCycle", .afterCycle), ("onStart", .onStart)]

def name : PublishPoint → String
  | .afterCycle => "afterCycle"
  | .onStart => "onStart"

def toJson (p : PublishPoint) : Json := ofText p.name

def ofJson? : Json → Option PublishPoint := asChoice? choices

end PublishPoint

namespace StatusSeed

def choices : List (String × StatusSeed) :=
  [("initial", .initial), ("previous", .previous), ("empty", .empty)]

def name : StatusSeed → String
  | .initial => "initial"
  | .previous => "previous"
  | .empty => "empty"

def toJson (s : StatusSeed) : Json := ofText s.name

def ofJson? : Json → Option StatusSeed := asChoice? choices

end StatusSeed

namespace SyncConfig

/-- A duration in whole seconds. -/
def seconds? (v : Json) : Option Duration := (asNat? (Nat.pow 2 64) v).map Duration.ofSeconds

def transferUnit? (v : Json) : Option UInt16 := (asNat? (Nat.pow 2 16) v).map Nat.toUInt16

def toJson (c : SyncConfig) : Json :=
  .object
    [member "syncInterval" (ofNat c.syncInterval.seconds),
     member "timeout" (ofNat c.timeout.seconds), member "mtu" (ofNat c.mtu.toNat),
     member "observationWindow" (ofNat c.observationWindow.seconds),
     member "publishPoint" c.publishPoint.toJson, member "statusSeed" c.statusSeed.toJson]

def ofJson? (v : Json) : Option SyncConfig := do
  let d : SyncConfig := {}
  match ← asFields?
      ["syncInterval", "timeout", "mtu", "observationWindow", "publishPoint", "statusSeed"] v with
  | [interval, timeout, mtu, window, point, seed] =>
    some ⟨← optional? seconds? d.syncInterval interval, ← optional? seconds? d.timeout timeout,
      ← optional? transferUnit? d.mtu mtu, ← optional? seconds? d.observationWindow window,
      ← optional? PublishPoint.ofJson? d.publishPoint point,
      ← optional? StatusSeed.ofJson? d.statusSeed seed⟩
  | _ => none

/-- The configuration that a JSON text gives, if it can be run. -/
def ofText (s : String) : Except Error SyncConfig :=
  match Json.parse? s >>= ofJson? with
  | some c => c.validate.map fun () => c
  | none => .error .json

end SyncConfig
end GattSync
