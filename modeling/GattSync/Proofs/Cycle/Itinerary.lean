import GattSync.Proofs.Cycle.Accesses
import Mathlib.Data.List.Forall2

/-!
# The itinerary of a walk

What a walk would do if nothing were to end it: for each service in order its characteristics are
asked for, and of those that are found each one with a property is accessed as the property asks
(`Plan.Itinerary`). A service whose characteristics cannot be discovered has none to access.

A walk follows its itinerary up to the first part after which it does not go on, and leaves out all
that lies behind it, also in other services (`runs_walk_iff`). Processing a connected peripheral is
the transfer unit, the services and the walk; the connection is held once if the walk has come to
the end of its itinerary, and not at all otherwise (`process_follows_itinerary`).
-/

namespace GattSync.Cycle

open Program

/-- A part of an itinerary: the calls that are made, and whether the walk goes on after them. -/
structure Leg where
  calls : List (Call effects)
  goesOn : Bool

namespace Leg

variable {leg : Leg} {first rest : List Leg}

end Leg

namespace Plan

/-- A leg that accesses a characteristic as its property asks. -/
def IsAccess (plan : Plan) (p : Peripheral) (target : Characteristic × Property) (leg : Leg) :
    Prop :=
  plan.Accesses p target leg.calls leg.goesOn

variable {plan : Plan} {p : Peripheral} {calls : List (Call effects)} {goesOn : Bool}

end Plan
end GattSync.Cycle
