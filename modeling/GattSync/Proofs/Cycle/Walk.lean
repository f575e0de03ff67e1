import GattSync.Cycle.Controller
import GattSync.Proofs.Program.Runs

/-!
# What is done with a connected peripheral

Whatever the session answers, the walk through the attributes of a connected peripheral asks only
for the attributes of that peripheral, records and waits. It neither scans nor connects, nor does it
release the connection. All that is done with a connected peripheral begins with the transfer unit
and the services, in this order, and goes on with the walk (`runs_process`).
-/

namespace GattSync

/-- The request is for an attribute of this peripheral. -/
def Session.Request.IsAccess {η : Type} (p : Peripheral) : Session.Request η → Prop
  | .discoverCharacteristics q _ => q = p
  | .discoverDescriptors q _ => q = p
  | .read q _ => q = p
  | .write q _ _ _ => q = p
  | .subscribe q _ _ => q = p
  | _ => False

namespace Cycle

open Program

/-- The operation belongs to a walk through the attributes of this peripheral. -/
def Effect.IsAccess (p : Peripheral) : Effect → Prop
  | .session r => r.IsAccess p
  | .record _ _ _ => True
  | .hold _ => True
  | .finish => False
  | .publish => False

section Walk

variable (plan : Plan) (convert : Converter) (p : Peripheral) (c : Characteristic)
  (property : Property)

theorem uses_read : (Access.read convert p c property).Uses (Effect.IsAccess p) := by
  refine Uses.bind (uses_perform.mpr rfl) fun answer => ?_
  cases answer with
  | error e => trivial
  | ok payload =>
    dsimp only
    cases convert property.visitor.layout payload with
    | error e => trivial
    | ok reading => exact Uses.bind (uses_perform.mpr trivial) fun _ => trivial

theorem uses_write : (Access.write convert p c property).Uses (Effect.IsAccess p) := by
  unfold Access.write
  cases property.defaultPayload with
  | error e => trivial
  | ok payload =>
    refine Uses.bind (uses_perform.mpr rfl) fun written => ?_
    cases written with
    | error e => trivial
    | ok done =>
      refine Uses.bind (uses_read convert p c property) fun reported => ?_
      cases reported with
      | error e => trivial
      | ok text => exact Uses.bind (uses_perform.mpr trivial) fun _ => trivial

theorem uses_subscribe : (Access.subscribe p c property).Uses (Effect.IsAccess p) := by
  refine Uses.bind (uses_perform.mpr rfl) fun descriptors => ?_
  cases descriptors with
  | error e => trivial
  | ok found =>
    dsimp only
    split
    · exact uses_perform.mpr rfl
    · trivial

theorem uses_visit : (plan.visit p c).Uses (Effect.IsAccess p) := by
  unfold Plan.visit
  cases plan.spec.property? c.uuid with
  | none => trivial
  | some property =>
    dsimp only
    cases property.access with
    | readOnly => exact Uses.bind (uses_read _ p c property) fun _ => trivial
    | readWrite => exact Uses.bind (uses_write _ p c property) fun _ => trivial
    | notifyOnly => exact Uses.bind (uses_subscribe p c property) fun _ => trivial
    | unrecognized name => trivial

theorem uses_visitAll (cs : List Characteristic) :
    (plan.visitAll p cs).Uses (Effect.IsAccess p) := by
  induction cs with
  | nil => trivial
  | cons c rest ih =>
    refine Uses.bind (uses_visit plan p c) fun goesOn => ?_
    cases goesOn with
    | true => exact ih
    | false => trivial

theorem uses_walk (services : List Service) :
    (plan.walk p services).Uses (Effect.IsAccess p) := by
  induction services with
  | nil => trivial
  | cons s rest ih =>
    refine Uses.bind (uses_perform.mpr rfl) fun answer => ?_
    cases answer with
    | error e => exact ih
    | ok cs =>
      refine Uses.bind (uses_visitAll plan p cs) fun goesOn => ?_
      cases goesOn with
      | true => exact ih
      | false => trivial

/-- Processing a connected peripheral begins with the transfer unit, whatever comes of it, and the
services; all else belongs to the walk. -/
theorem runs_process {calls : List (Call effects)} (h : (plan.process p).Runs calls ()) :
    ∃ x y rest, calls = ⟨.session (.setMtu p plan.mtu), some x⟩ ::
        ⟨.session (.discoverServices p), some y⟩ :: rest ∧
      ∀ call ∈ rest, Effect.IsAccess p call.1 := by
  obtain ⟨x, _, rfl, asked⟩ := runs_perform_bind_iff.mp h
  obtain ⟨y, rest, rfl, walked⟩ := runs_perform_bind_iff.mp asked
  refine ⟨x, y, rest, rfl, Uses.of_runs ?_ walked⟩
  cases y with
  | error e => trivial
  | ok services =>
    refine Uses.bind (uses_walk plan p services) fun goesOn => ?_
    cases goesOn with
    | true => exact uses_perform.mpr trivial
    | false => trivial

end Walk

end Cycle
end GattSync
