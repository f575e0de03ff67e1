import GattSync.Proofs.Adapter.Drift

/-!
# Turns of an adapter session

A session has one turn for each request. In a turn it asks the platform, and the tables change with
its own calls and drift while it waits for an answer (`Passes`). Everything else that it does is
done at once. So a turn can be given up only while it waits for the platform, and what can be seen
of it from outside is what the platform was asked (`Proceeds`).
-/

namespace GattSync.Platform

/-- The requests to the platform as operations. -/
abbrev effects : Signature := ⟨Request, Request.Answer⟩

/-- A request that has been answered. -/
def asked (r : Request) (x : r.Answer) : Program.Call effects := ⟨r, some x⟩

/-- A request that was given up before it was answered. -/
def pending (r : Request) : Program.Call effects := ⟨r, none⟩

/-- The request is no concern of a connection, and starts no listening. -/
def Request.isQuiet : Request → Bool
  | .connect _ | .disconnect _ | .isConnected _ | .notifications _ => false
  | _ => true

end GattSync.Platform

namespace GattSync.Session

/-- The request leaves handles, listeners and routes alone. -/
def Request.isQuiet {η : Type} : Request η → Bool
  | .stop | .connect _ | .cancelConnection _ | .subscribe _ _ _ => false
  | _ => true

end GattSync.Session

namespace GattSync.Adapter

open Program Platform

variable {η α β : Type}

/-- The operation takes no time and leaves the tables alone. -/
def Effect.isInternal : Effect η → Bool
  | .platform _ | .tables | .change _ => false
  | _ => true

/-- How the tables are taken on by a call. -/
inductive Passes (owner : Handle → String) : Tables η → Call (Adapter.effects η) → Tables η → Prop
  | waited {t t' : Tables η} {request : Request} (x : Option request.Answer)
      (h : t.Drifts owner t') : Passes owner t ⟨.platform request, x⟩ t'
  | read (t : Tables η) : Passes owner t ⟨.tables, some t⟩ t
  | changed (t : Tables η) (f : Tables η → Tables η) :
    Passes owner t ⟨.change f, some ()⟩ (f t)
  | internal (t : Tables η) {op : Effect η} (h : op.isInternal) (x : op.Answer) :
    Passes owner t ⟨op, some x⟩ t

/-- The request to the platform, if the call is one. -/
def inquiry? : Call (Adapter.effects η) → Option (Call Platform.effects)
  | ⟨.platform request, x⟩ => some ⟨request, x⟩
  | _ => none

/-- From these tables to those, the program asks the platform for this. It has a result unless it is
given up. -/
def Proceeds (owner : Handle → String) (p : Prog η α) (t : Tables η)
    (inquiries : List (Call Platform.effects)) (r : Option α) (t' : Tables η) : Prop :=
  ∃ calls, p.Evolves (Passes owner) t calls r t' ∧ calls.filterMap inquiry? = inquiries

variable {owner : Handle → String} {t t' : Tables η} {inquiries : List (Call Platform.effects)}
  {r : Option β}

/-! ## Programs by their first operation -/

theorem inquiry?_of_isInternal {op : Effect η} (h : op.isInternal) (x : Option op.Answer) :
    inquiry? (η := η) ⟨op, x⟩ = none := by
  cases op <;> first | rfl | cases h

@[simp] theorem proceeds_done_iff {b : β} :
    Proceeds owner (done b : Prog η β) t inquiries r t' ↔ inquiries = [] ∧ r = some b ∧ t' = t := by
  constructor
  · rintro ⟨calls, h, rfl⟩
    obtain ⟨rfl, rfl, rfl⟩ := evolves_done_iff.mp h
    exact ⟨rfl, rfl, rfl⟩
  · rintro ⟨rfl, rfl, rfl⟩
    exact ⟨[], .done b t', rfl⟩

theorem proceeds_bind_iff {p : Prog η α} {f : α → Prog η β} :
    Proceeds owner (p.bind f) t inquiries r t' ↔
      (r = none ∧ Proceeds owner p t inquiries none t') ∨
        ∃ a t₁ first rest, inquiries = first ++ rest ∧ Proceeds owner p t first (some a) t₁ ∧
          Proceeds owner (f a) t₁ rest r t' := by
  constructor
  · rintro ⟨calls, h, rfl⟩
    rcases evolves_bind_iff.mp h with ⟨rfl, hp⟩ | ⟨a, t₁, first, rest, rfl, hp, hf⟩
    · exact .inl ⟨rfl, calls, hp, rfl⟩
    · exact .inr ⟨a, t₁, _, _, List.filterMap_append, ⟨first, hp, rfl⟩, rest, hf, rfl⟩
  · rintro (⟨rfl, calls, hp, rfl⟩ | ⟨a, t₁, _, _, rfl, ⟨first, hp, rfl⟩, rest, hf, rfl⟩)
    · exact ⟨calls, evolves_bind_iff.mpr (.inl ⟨rfl, hp⟩), rfl⟩
    · exact ⟨first ++ rest, evolves_bind_iff.mpr (.inr ⟨a, t₁, first, rest, rfl, hp, hf⟩),
        List.filterMap_append⟩

theorem proceeds_bind_done_iff {p : Prog η α} {f : α → β} :
    Proceeds owner (p.bind fun a => done (f a)) t inquiries r t' ↔
      ∃ r', Proceeds owner p t inquiries r' t' ∧ r = r'.map f := by
  rw [proceeds_bind_iff]
  constructor
  · rintro (⟨rfl, hp⟩ | ⟨a, t₁, first, rest, rfl, hp, hd⟩)
    · exact ⟨none, hp, rfl⟩
    · obtain ⟨rfl, rfl, rfl⟩ := proceeds_done_iff.mp hd
      rw [List.append_nil]
      exact ⟨some a, hp, rfl⟩
  · rintro ⟨r', hp, rfl⟩
    cases r' with
    | none => exact .inl ⟨rfl, hp⟩
    | some a =>
      refine .inr ⟨a, t', inquiries, [], (List.append_nil _).symm, hp, ?_⟩
      exact proceeds_done_iff.mpr ⟨rfl, rfl, rfl⟩

/-- Whoever asks the platform waits. -/
theorem proceeds_ask_bind_iff {request : Request} {f : request.Answer → Prog η β} :
    Proceeds owner ((ask request).bind f) t inquiries r t' ↔
      (inquiries = [pending request] ∧ r = none ∧ t.Drifts owner t') ∨
        ∃ x t₁ rest, inquiries = asked request x :: rest ∧ t.Drifts owner t₁ ∧
          Proceeds owner (f x) t₁ rest r t' := by
  constructor
  · rintro ⟨calls, h, rfl⟩
    rcases evolves_perform_bind_iff.mp h with ⟨rfl, rfl, hs⟩ | ⟨x, t₁, rest, rfl, hs, hf⟩
    · cases hs with
      | waited _ hd => exact .inl ⟨rfl, rfl, hd⟩
    · cases hs with
      | waited _ hd => exact .inr ⟨x, t₁, _, rfl, hd, rest, hf, rfl⟩
      | internal hi => cases hi
  · rintro (⟨rfl, rfl, hd⟩ | ⟨x, t₁, _, rfl, hd, rest, hf, rfl⟩)
    · exact ⟨_, evolves_perform_bind_iff.mpr (.inl ⟨rfl, rfl, .waited none hd⟩), rfl⟩
    · refine ⟨_, evolves_perform_bind_iff.mpr (.inr ⟨x, t₁, rest, rfl, ?_, hf⟩), rfl⟩
      exact .waited (some x) hd

@[simp] theorem proceeds_tables_bind_iff {f : Tables η → Prog η β} :
    Proceeds owner (tables.bind f) t inquiries r t' ↔ Proceeds owner (f t) t inquiries r t' := by
  constructor
  · rintro ⟨calls, h, rfl⟩
    rcases evolves_perform_bind_iff.mp h with ⟨_, _, hs⟩ | ⟨x, t₁, rest, rfl, hs, hf⟩
    · cases hs
    · cases hs with
      | read => exact ⟨rest, hf, rfl⟩
      | internal hi => cases hi
  · rintro ⟨rest, hf, rfl⟩
    exact ⟨_, evolves_perform_bind_iff.mpr (.inr ⟨t, t, rest, rfl, .read t, hf⟩), rfl⟩

@[simp] theorem proceeds_change_bind_iff {g : Tables η → Tables η} {f : Unit → Prog η β} :
    Proceeds owner ((change g).bind f) t inquiries r t' ↔
      Proceeds owner (f ()) (g t) inquiries r t' := by
  constructor
  · rintro ⟨calls, h, rfl⟩
    rcases evolves_perform_bind_iff.mp h with ⟨_, _, hs⟩ | ⟨x, t₁, rest, rfl, hs, hf⟩
    · cases hs
    · cases hs with
      | changed => exact ⟨rest, hf, rfl⟩
      | internal hi => cases hi
  · rintro ⟨rest, hf, rfl⟩
    exact ⟨_, evolves_perform_bind_iff.mpr (.inr ⟨(), g t, rest, rfl, .changed t g, hf⟩), rfl⟩

theorem proceeds_internal_bind_iff {op : Effect η} (hi : op.isInternal)
    {f : op.Answer → Prog η β} :
    Proceeds owner ((perform (S := Adapter.effects η) op).bind f) t inquiries r t' ↔
      ∃ x, Proceeds owner (f x) t inquiries r t' := by
  constructor
  · rintro ⟨calls, h, rfl⟩
    rcases evolves_perform_bind_iff.mp h with ⟨_, _, hs⟩ | ⟨x, t₁, rest, rfl, hs, hf⟩
    · cases hs
      cases hi
    · refine ⟨x, rest, ?_, ?_⟩
      · cases hs with
        | internal => exact hf
        | _ => cases hi
      · rw [List.filterMap_cons_none (inquiry?_of_isInternal hi _)]
  · rintro ⟨x, rest, hf, rfl⟩
    exact ⟨_, evolves_perform_bind_iff.mpr (.inr ⟨x, t, rest, rfl, .internal t hi x, hf⟩),
      List.filterMap_cons_none (inquiry?_of_isInternal hi _)⟩

@[simp] theorem proceeds_abort_bind_iff {task : Option Task} {f : Unit → Prog η β} :
    Proceeds owner ((abort task).bind f) t inquiries r t' ↔
      Proceeds owner (f ()) t inquiries r t' := by
  cases task with
  | none => exact Iff.rfl
  | some task =>
    exact (proceeds_internal_bind_iff rfl).trans ⟨fun ⟨_, h⟩ => h, fun h => ⟨(), h⟩⟩

@[simp] theorem proceeds_emit_bind_iff {event : Event} {f : Unit → Prog η β} :
    Proceeds owner ((emit event).bind f) t inquiries r t' ↔
      Proceeds owner (f ()) t inquiries r t' := by
  rw [emit, bind_eq, bind_assoc, proceeds_tables_bind_iff]
  cases t.events with
  | none => exact Iff.rfl
  | some queue =>
    exact (proceeds_internal_bind_iff rfl).trans ⟨fun ⟨_, h⟩ => h, fun h => ⟨true, h⟩⟩

@[simp] theorem proceeds_unlisten_bind_iff {id : String} {f : Unit → Prog η β} :
    Proceeds owner ((unlisten id).bind f) t inquiries r t' ↔
      Proceeds owner (f ()) (t.unlisten id) inquiries r t' := by
  simp only [unlisten, bind_eq, bind_assoc, proceeds_tables_bind_iff, proceeds_abort_bind_iff,
    proceeds_change_bind_iff]

/-! ## Quiet requests -/

/-- The operation asks for something quiet, or leaves the handles, the listeners and the routes as
they are. -/
def Effect.IsQuiet : Effect η → Prop
  | .platform request => request.isQuiet
  | .change f => ∀ t : Tables η, (f t).peripherals = t.peripherals ∧
    (f t).listeners = t.listeners ∧ (f t).routes = t.routes
  | _ => True

theorem Tables.resembles_of_eq (hp : t'.peripherals = t.peripherals)
    (hl : t'.listeners = t.listeners) (hr : t'.routes = t.routes) : t.Resembles owner t' where
  owned h := hp ▸ h
  knows h := by rwa [Tables.knows, hp]
  listensTo_iff := exists_congr fun _ => by rw [hl]
  mem_routes_iff := by rw [hr]

theorem Proceeds.of_isQuiet {p : Prog η β} (h : Proceeds owner p t inquiries r t')
    (hp : p.Uses Effect.IsQuiet) :
    t.Resembles owner t' ∧ ∀ call ∈ inquiries, call.1.isQuiet := by
  obtain ⟨calls, h, rfl⟩ := h
  constructor
  · refine h.preserves (I := t.Resembles owner) hp (fun hq hs ht => ht.trans ?_) (.refl t)
    cases hs with
    | waited _ hd => exact hd.resembles
    | read => exact .refl _
    | changed f =>
      obtain ⟨hp, hl, hr⟩ := hq _
      exact Tables.resembles_of_eq hp hl hr
    | internal => exact .refl _
  · intro call hc
    obtain ⟨⟨op, x⟩, hm, hi⟩ := List.mem_filterMap.mp hc
    cases op <;> cases hi
    exact h.uses hp _ hm

/-- The operation asks for something quiet, or looks something up. -/
def Effect.IsInquiry : Effect η → Prop
  | .platform request => request.isQuiet
  | .tables => True
  | .services _ => True
  | _ => False

theorem Effect.IsInquiry.isQuiet {op : Effect η} (h : op.IsInquiry) : op.IsQuiet := by
  cases op with
  | platform request => exact h
  | tables | services handle => trivial
  | _ => exact h.elim

theorem uses_tables_bind {f : Tables η → Prog η α} (h : ∀ t, (f t).Uses Effect.IsInquiry) :
    (tables.bind f).Uses Effect.IsInquiry := ⟨trivial, h⟩

theorem uses_services_bind {handle : Handle} {f : List Platform.Service → Prog η α}
    (h : ∀ listed, (f listed).Uses Effect.IsInquiry) :
    ((services handle).bind f).Uses Effect.IsInquiry := ⟨trivial, h⟩

theorem uses_withHandle {p : Peripheral} {next : Handle → Prog η (Except Error α)}
    (h : ∀ handle, (next handle).Uses Effect.IsInquiry) :
    (withHandle p next).Uses Effect.IsInquiry := by
  refine uses_tables_bind fun t => ?_
  split
  · exact h _
  · trivial

theorem uses_withCharacteristic {p : Peripheral} {c : Characteristic}
    {next : Handle → Platform.Characteristic → Prog η (Except Error α)}
    (h : ∀ handle found, (next handle found).Uses Effect.IsInquiry) :
    (withCharacteristic p c next).Uses Effect.IsInquiry := by
  refine uses_withHandle fun handle => uses_services_bind fun listed => ?_
  split
  · exact h handle _
  · trivial

theorem uses_start : (start : Prog η (Except Error Session.Queue)).Uses Effect.IsQuiet := by
  refine ⟨rfl, fun stream => ?_⟩
  cases stream with
  | error e => trivial
  | ok stream =>
    refine ⟨rfl, fun _ => ⟨trivial, fun _ => ⟨trivial, fun _ => ?_⟩⟩⟩
    refine ⟨fun _ => ⟨rfl, rfl, rfl⟩, fun _ => ⟨trivial, fun _ => ⟨trivial, fun t => ?_⟩⟩⟩
    refine ⟨fun _ => ⟨rfl, rfl, rfl⟩, fun _ => ?_⟩
    cases Tables.forwarder t with
    | none => trivial
    | some task => exact ⟨trivial, fun _ => trivial⟩

/-- All quiet requests but the one to start change nothing. -/
theorem uses_inquiry {request : Session.Request η} (h : request.isQuiet) (hs : request ≠ .start) :
    (answer request).Uses Effect.IsInquiry := by
  have asks {r : Request} (hr : r.isQuiet) {γ : Type} {f : r.Answer → γ} :
      ((ask (η := η) r).bind fun x => done (f x)).Uses Effect.IsInquiry := ⟨hr, fun _ => trivial⟩
  cases request with
  | start => exact absurd rfl hs
  | scan services => exact asks rfl
  | stopScanning => exact asks rfl
  | setMtu p mtu => trivial
  | discoverServices p =>
    refine uses_withHandle fun handle => ⟨rfl, fun x => ?_⟩
    cases x with
    | error e => trivial
    | ok done => exact ⟨trivial, fun _ => trivial⟩
  | discoverCharacteristics p s => exact uses_withHandle fun handle => ⟨trivial, fun _ => trivial⟩
  | discoverDescriptors p c => exact uses_withCharacteristic fun handle found => trivial
  | read p c => exact uses_withCharacteristic fun handle found => asks rfl
  | write p c payload acknowledged => exact uses_withCharacteristic fun handle found => asks rfl
  | stop | connect p | cancelConnection p | subscribe p c consumer => cases h

theorem uses_answer {request : Session.Request η} (h : request.isQuiet) :
    (answer request).Uses Effect.IsQuiet := by
  cases request with
  | start => exact uses_start
  | _ => exact (uses_inquiry h nofun).mono fun _ => Effect.IsInquiry.isQuiet

end GattSync.Adapter
