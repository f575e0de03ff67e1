import GattSync.Rehearsal.Staging

/-!
# Trials of single accesses

Accesses the characteristics of one peripheral, one after the other, on a scripted session.
-/

namespace GattSync.Rehearsal

/-- Runs a program, and gives the lines that were written into the log meanwhile. -/
def watch {α : Type} (p : Prog α) : Prog (α × List Entry) := do
  let before := (← look).log.size
  let a ← p
  let written := (← look).log
  return (a, (written.extract before written.size).toList)

namespace AccessTrial

/-- A step of a trial. -/
inductive Step where
  | read (property : Property) (characteristic : Characteristic)
  | write (property : Property) (characteristic : Characteristic)
  | subscribe (property : Property) (characteristic : Characteristic)
  /-- Hands a value to everything that listens to a characteristic. -/
  | notify (characteristic : Uuid) (payload : Bytes)
  /-- Changes the status directly. -/
  | upsert (property desired reported : String)

/-- What a step has led to. -/
inductive Outcome where
  | none
  | read (reported : String)
  | done
  /-- So many listeners were given the value. -/
  | delivered (count : Nat)
  | failed (error : Error)

/-- A step's outcome, the requests it has made, and the status after it. -/
structure Report where
  outcome : Outcome
  calls : List Entry
  status : Status.Snapshot

/-- The outcome of an access. -/
def Outcome.ofResult {α : Type} (f : α → Outcome) : Except Error α → Outcome
  | .ok a => f a
  | .error e => .failed e

/-- Goes through a step. -/
def Step.run (peripheral : Peripheral) (store : Status.Store) : Step → Prog Outcome
  | .read property c =>
    return .ofResult .read
      (← cycle store (Cycle.Access.read Layout.convert peripheral c property))
  | .write property c =>
    return .ofResult (fun _ => .done)
      (← cycle store (Cycle.Access.write Layout.convert peripheral c property))
  | .subscribe property c =>
    return .ofResult (fun _ => .done) (← cycle store (Cycle.Access.subscribe peripheral c property))
  | .notify characteristic payload =>
    return .delivered (← Script.notify characteristic payload)
  | .upsert property desired reported => do
    Rehearsal.upsert store property desired reported
    return .none

/-- Goes through all steps. -/
def main (peripheral : Peripheral) (seed : Status.Snapshot) (steps : List Step) :
    Prog (List Report) := do
  let store ← openStore seed
  steps.mapM fun step => do
    let (outcome, calls) ← watch (step.run peripheral store)
    return ⟨outcome, calls, (← look).stores.snapshot store⟩

/-- The reports of a trial; there are none if a step never ends. -/
def run (script : Script) (peripheral : Peripheral) (seed : Status.Snapshot) (steps : List Step) :
    Option (List Report) :=
  (clockwork.run { world := { backing := .script, script } } (main peripheral seed steps)).2

end AccessTrial
end GattSync.Rehearsal
