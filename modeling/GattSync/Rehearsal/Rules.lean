import GattSync.Rehearsal.Clockwork

/-!
# Rules

Rules make calls late, fail or never return. A rule is for the calls of one name, and of one key if
it names a key. It counts the calls it is for, and it is in force for those from a first one on, as
many as it says. Of the rules in force for a call the first one is used; the others count the call
all the same.
-/

namespace GattSync.Rehearsal

/-- A rule, for calls that can fail with an `ε`. -/
structure Rule (ε : Type) where
  call : String
  /-- A rule without a key is for every key. -/
  key : Option String := none
  /-- Number of the first call it is in force for, from zero. -/
  first : Nat := 0
  /-- How many calls it is in force for; without a number, there is no last one. -/
  times : Option Nat := none
  delay : Duration := .zero
  stalls : Bool := false
  fault : Option ε := none
  /-- How many calls there have been. -/
  count : Nat := 0
  deriving Repr

namespace Rule

variable {ε : Type}

/-- The rule is for this call. -/
def isFor (r : Rule ε) (call key : String) : Bool :=
  r.call == call && (r.key.isNone || r.key == some key)

/-- The rule is in force for the next call. -/
def isInForce (r : Rule ε) : Bool :=
  r.first ≤ r.count &&
    match r.times with
    | some times => r.count < r.first + times
    | none => true

/-- The first rule in force for a call. -/
def find? (rules : List (Rule ε)) (call key : String) : Option (Rule ε) :=
  rules.find? fun r => r.isFor call key && r.isInForce

/-- The rules after a call. -/
def tally (rules : List (Rule ε)) (call key : String) : List (Rule ε) :=
  rules.map fun r => if r.isFor call key then { r with count := r.count + 1 } else r

/-- Lets a call wait as a rule says; the result is what it is to fail with. -/
def obey {W J : Type} : Option (Rule ε) → Program (Clockwork.effects W J) (Option ε)
  | none => return none
  | some r => do
    Clockwork.sleep r.delay
    if r.stalls then Clockwork.stall
    return r.fault

end Rule
end GattSync.Rehearsal
