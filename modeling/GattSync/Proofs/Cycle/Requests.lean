import GattSync.Proofs.Cycle.Turn

/-!
# The requests of a controller

The calls that a controller makes, seen from its session: which requests they are, and which of them
belong to the search for a peripheral. All that is done with a connected peripheral, from the
transfer unit to the release, is one connection that is gone through (`IsConnection`), whatever
fails on the way.
-/

namespace GattSync

/-- The request belongs to the search for a peripheral. -/
def Session.Request.IsSearch {η : Type} : Session.Request η → Prop
  | .scan services => services = []
  | .stopScanning => True
  | .connect _ => True
  | _ => False

/-- The peripheral that is to be released. -/
def Session.Request.released? {η : Type} : Session.Request η → Option Peripheral
  | .cancelConnection p => some p
  | _ => none

theorem Session.Request.released?_of_isSearch {η : Type} {r : Session.Request η}
    (h : r.IsSearch) : r.released? = none := by
  cases r with
  | cancelConnection q => exact h.elim
  | _ => rfl

theorem Session.Request.released?_of_isAccess {η : Type} {r : Session.Request η} {p : Peripheral}
    (h : r.IsAccess p) : r.released? = none := by
  cases r with
  | cancelConnection q => exact h.elim
  | _ => rfl

namespace Cycle

open Program

/-- The request that a call makes to the session. -/
def request? (call : Call effects) : Option (Session.Request String) :=
  match call.1 with
  | .session r => some r
  | _ => none

/-- The requests to the session, in order. -/
def requests (calls : List (Call effects)) : List (Session.Request String) :=
  calls.filterMap request?

/-- All requests that a connection is gone through with, up to its release. -/
def IsConnection (plan : Plan) (p : Peripheral) (rs : List (Session.Request String)) : Prop :=
  ∃ walk, rs = .setMtu p plan.mtu :: .discoverServices p :: walk ++ [.cancelConnection p] ∧
    ∀ r ∈ walk, r.IsAccess p

variable {plan : Plan} {p : Peripheral} {calls : List (Call effects)}

@[simp] theorem requests_nil : requests [] = [] := rfl

@[simp] theorem requests_asked (r : Session.Request String) (x : r.Answer)
    (rest : List (Call effects)) : requests (asked r x :: rest) = r :: requests rest := rfl

theorem requests_finish (told : Bool) :
    requests (if told then [] else [⟨.finish, some ()⟩]) = [] := by
  cases told <;> rfl

@[simp] theorem requests_append (first rest : List (Call effects)) :
    requests (first ++ rest) = requests first ++ requests rest := List.filterMap_append

theorem mem_requests {r : Session.Request String} :
    r ∈ requests calls ↔ ∃ x, ⟨.session r, x⟩ ∈ calls := by
  unfold requests
  rw [List.mem_filterMap]
  constructor
  · rintro ⟨⟨op, x⟩, hm, hr⟩
    cases op with
    | session s =>
      obtain rfl := Option.some.inj hr
      exact ⟨x, hm⟩
    | _ => cases hr
  · rintro ⟨x, hm⟩
    exact ⟨_, hm, rfl⟩

/-- Processing a peripheral and releasing it is going through a connection. -/
theorem isConnection_process (h : (plan.process p).Runs calls ()) (x : Except Error Unit) :
    IsConnection plan p (requests (calls ++ [asked (.cancelConnection p) x])) := by
  obtain ⟨y, z, walk, rfl, hw⟩ := runs_process plan p h
  refine ⟨requests walk, by rw [requests_append]; rfl, fun r hr => ?_⟩
  obtain ⟨x, hm⟩ := mem_requests.mp hr
  exact hw _ hm

/-- Of all requests that a connection is gone through with, the last one is its release. -/
theorem IsConnection.released {rs : List (Session.Request String)} (h : IsConnection plan p rs) :
    rs.filterMap (·.released?) = [p] := by
  obtain ⟨walk, rfl, hw⟩ := h
  have kept : walk.filterMap (·.released?) = [] :=
    List.filterMap_eq_nil_iff.mpr fun r hr => Session.Request.released?_of_isAccess (hw r hr)
  rw [List.filterMap_append]
  show walk.filterMap (·.released?) ++ [p] = [p]
  rw [kept, List.nil_append]

theorem released_of_isSearch {rs : List (Session.Request String)} (h : ∀ r ∈ rs, r.IsSearch) :
    rs.filterMap (·.released?) = [] :=
  List.filterMap_eq_nil_iff.mpr fun r hr => Session.Request.released?_of_isSearch (h r hr)

/-- Requests of other kinds are not made while a connection is gone through. -/
theorem IsConnection.not_mem {rs : List (Session.Request String)} {r : Session.Request String}
    (h : IsConnection plan p rs) (ha : ¬ r.IsAccess p) (hm : r ≠ .setMtu p plan.mtu)
    (hd : r ≠ .discoverServices p) (hc : r ≠ .cancelConnection p) : r ∉ rs := by
  obtain ⟨walk, rfl, hw⟩ := h
  intro hr
  have walked : r ∈ walk := by simpa [hm, hd, hc] using hr
  exact ha (hw r walked)

end Cycle
end GattSync
