import GattSync.Adapter.Effect

/-!
# The workers of an adapter session

A worker goes in rounds: it waits for something to arrive, handles it, and goes on, until its stream
has ended.

Of the adapter's events, those of its state are passed on. A peripheral that is discovered or
updated is kept with a new handle and reported with what it advertises, unless nothing is known of
it. One that disconnects is reported only if it is kept. Other events are of no interest.
-/

namespace GattSync.Adapter

variable {η : Type}

/-- A peripheral as a session describes it. -/
def describe (id : String) (p : Platform.Properties) : Peripheral :=
  { id, address := p.address.text, localName := p.localName }

/-- What a peripheral advertises. -/
def advertised (p : Platform.Properties) : Advertisement :=
  { localName := p.localName, manufacturerData := p.manufacturerData, services := p.services
    txPower := p.txPower }

/-- Keeps a peripheral that was seen, and describes it. -/
def notice (id : String) : Prog η (Option Event) := do
  match ← ask (.peripheral id) with
  | .error _ => return none
  | .ok handle =>
    match ← ask (.properties handle) with
    | .ok (some p) =>
      change (Tables.keep · id handle)
      return some (.discovered (describe id p) (advertised p) p.rssi)
    | _ => return none

/-- Describes a peripheral that has disconnected, if it is kept. -/
def part (id : String) : Prog η (Option Event) := do
  match (← tables).handle? id with
  | none => return none
  | some handle =>
    let p := match ← ask (.properties handle) with
      | .ok (some p) => p
      | _ => {}
    return some (.disconnected (describe id p) none)

/-- The session's event for an event of the adapter, if it is of interest. -/
def passOn : Platform.Event → Prog η (Option Event)
  | .state s => return some (.adapterState s)
  | .discovered id => notice id
  | .updated id => notice id
  | .disconnected id => part id
  | .connected _ => return none
  | .services _ => return none

/-- One round of a worker. The result says whether it goes on. -/
def Worker.round : Worker → Prog η Bool
  | .forward stream queue => do
    match ← nextEvent stream with
    | none => return false
    | some event =>
      match ← passOn event with
      | none => return true
      | some event => send queue event
  | .listen id stream => do
    match ← nextValue stream with
    | none => return false
    | some n =>
      ((← tables).route id n.characteristic).forM fun consumer => deliver consumer n.payload
      return true

end GattSync.Adapter
