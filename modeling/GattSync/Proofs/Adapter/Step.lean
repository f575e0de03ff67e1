import GattSync.Proofs.Adapter.Turn

/-!
# What a session does in a turn

`Step` says what each request can come to: what the platform is asked for, with its answers, and
what becomes of the tables. Most requests leave the listeners and the routes alone. Handles that are
used are those of the peripheral that is meant, as long as the tables are sound, and they always are
(`History.isSound`).
-/

namespace GattSync.Adapter

open Program Platform

variable {η α β : Type} {owner : Handle → String} {t t' : Tables η}
  {inquiries : List (Call Platform.effects)}

/-! ## Stopping -/

/-- What the platform is asked for while a peripheral is released, and whether that is done. -/
inductive Releases (owner : Handle → String) (id : String) :
    List (Call Platform.effects) → Option Unit → Prop
  | asking {handle : Handle} (h : owner handle = id) :
    Releases owner id [pending (.isConnected handle)] none
  | apart {handle : Handle} (h : owner handle = id) {x : Except PlatformError Bool}
      (hx : x ≠ .ok true) : Releases owner id [asked (.isConnected handle) x] (some ())
  | parting {handle : Handle} (h : owner handle = id) :
    Releases owner id [asked (.isConnected handle) (.ok true), pending (.disconnect handle)] none
  | parted {handle : Handle} (h : owner handle = id) (x : Except PlatformError Unit) :
    Releases owner id [asked (.isConnected handle) (.ok true), asked (.disconnect handle) x]
      (some ())

/-- What the platform is asked for while peripherals are released one after the other, and the
tables then. -/
inductive Releasing (owner : Handle → String) : Tables η → List String →
    List (Call Platform.effects) → Option Unit → Tables η → Prop
  | nil (t : Tables η) : Releasing owner t [] [] (some ()) t
  | next {t t₁ t' : Tables η} {id : String} {ids : List String}
      {first rest : List (Call Platform.effects)} {r : Option Unit}
      (h : Releases owner id first (some ())) (ht : (t.unlisten id).Resembles owner t₁)
      (hr : Releasing owner t₁ ids rest r t') : Releasing owner t (id :: ids) (first ++ rest) r t'
  | givenUp {t t' : Tables η} {id : String} {ids : List String}
      {first : List (Call Platform.effects)} (h : Releases owner id first none)
      (ht : (t.unlisten id).Resembles owner t') : Releasing owner t (id :: ids) first none t'

theorem proceeds_release {id : String} {r : Option Unit} (hs : t.IsSound owner) (hk : t.knows id)
    (h : Proceeds owner (release id) t inquiries r t') :
    Releases owner id inquiries r ∧ (t.unlisten id).Resembles owner t' := by
  obtain ⟨handle, hh⟩ : ∃ handle, (t.unlisten id).handle? id = some handle :=
    Tables.handle?_of_knows hk
  have ho : owner handle = id := hs.owner_eq hh
  simp only [release, bind_eq, proceeds_unlisten_bind_iff, proceeds_tables_bind_iff, hh] at h
  rcases proceeds_ask_bind_iff.mp h with ⟨rfl, rfl, hd⟩ | ⟨x, t₁, rest, rfl, hd, h⟩
  · exact ⟨.asking ho, hd.resembles⟩
  · split at h
    · rcases proceeds_ask_bind_iff.mp h with ⟨rfl, rfl, hd'⟩ | ⟨y, t₂, rest, rfl, hd', h⟩
      · exact ⟨.parting ho, hd.resembles.trans hd'.resembles⟩
      · obtain ⟨rfl, rfl, rfl⟩ := proceeds_done_iff.mp h
        exact ⟨.parted ho y, hd.resembles.trans hd'.resembles⟩
    · rename_i hx
      obtain ⟨rfl, rfl, rfl⟩ := proceeds_done_iff.mp h
      exact ⟨.apart ho hx, hd.resembles⟩

theorem proceeds_releases {l : List (String × Task)} {r : Option Unit} (hs : t.IsSound owner)
    (hk : ∀ e ∈ l, t.knows e.1)
    (h : Proceeds owner (l.forM fun e => release e.1) t inquiries r t') :
    Releasing owner t (l.map (·.1)) inquiries r t' := by
  -- releasing keeps all handles, so what is left to release stays known
  induction l generalizing t inquiries with
  | nil =>
    obtain ⟨rfl, rfl, rfl⟩ := proceeds_done_iff.mp h
    exact .nil t'
  | cons e l ih =>
    obtain ⟨hke, hkl⟩ := List.forall_mem_cons.mp hk
    rcases proceeds_bind_iff.mp h with ⟨rfl, hfirst⟩ | ⟨_, t₁, first, rest, rfl, hfirst, hrest⟩
    · obtain ⟨hf, ht⟩ := proceeds_release hs hke hfirst
      exact .givenUp hf ht
    · obtain ⟨hf, ht⟩ := proceeds_release hs hke hfirst
      exact .next hf ht (ih (ht.isSound (hs.unlisten e.1)) (fun f hm => ht.knows (hkl f hm)) hrest)

/-- What a session does when it is stopped. -/
inductive Stops (owner : Handle → String) (t : Tables η) :
    List (Call Platform.effects) → Option Unit → Tables η → Prop
  | scanning {t' : Tables η} (h : t.Resembles owner t') :
    Stops owner t [pending .stopScan] none t'
  | givenUp {t₁ t' : Tables η} {rest : List (Call Platform.effects)}
      (h : t.Resembles owner t₁) (x : Except PlatformError Unit)
      (hr : Releasing owner t₁ (t₁.listeners.map (·.1)) rest none t') :
    Stops owner t (asked .stopScan x :: rest) none t'
  | stopped {t₁ t' : Tables η} {rest : List (Call Platform.effects)}
      (h : t.Resembles owner t₁) (x : Except PlatformError Unit)
      (hr : Releasing owner t₁ (t₁.listeners.map (·.1)) rest (some ()) t') :
    Stops owner t (asked .stopScan x :: rest) (some ()) t'.shut

theorem proceeds_stop {r : Option Unit} (hs : t.IsSound owner)
    (h : Proceeds owner stop t inquiries r t') : Stops owner t inquiries r t' := by
  rcases proceeds_ask_bind_iff.mp h with ⟨rfl, rfl, hd⟩ | ⟨x, t₁, rest, rfl, hd, h⟩
  · exact .scanning hd.resembles
  · have sound := hd.resembles.isSound hs
    have known : ∀ e ∈ t₁.listeners, t₁.knows e.1 := fun e he => sound.known ⟨e, he, rfl⟩
    rcases proceeds_bind_iff.mp (proceeds_tables_bind_iff.mp h) with
      ⟨rfl, hr⟩ | ⟨_, t₂, first, last, rfl, hr, h⟩
    · exact .givenUp hd.resembles x (proceeds_releases sound known hr)
    · have closing := proceeds_change_bind_iff.mp (proceeds_tables_bind_iff.mp h)
      rw [← bind_done (abort _), proceeds_abort_bind_iff] at closing
      obtain ⟨rfl, rfl, rfl⟩ := proceeds_done_iff.mp closing
      rw [List.append_nil]
      exact .stopped hd.resembles x (proceeds_releases sound known hr)

/-! ## Turns by request -/

/-- What a session does when it is to connect to a peripheral that it knows. -/
inductive Connects (owner : Handle → String) (t : Tables η) (id : String) :
    List (Call Platform.effects) → Tables η → Prop
  /-- The platform has not said that it is connected. -/
  | apart {t' : Tables η} {handle : Handle} (ho : owner handle = id)
      {x : Option (Except PlatformError Unit)} (hx : x ≠ some (.ok ())) (h : t.Resembles owner t') :
    Connects owner t id [⟨.connect handle, x⟩] t'
  /-- It is connected, but there is no stream to listen to. -/
  | unheard {t' : Tables η} {handle : Handle} (ho : owner handle = id)
      {x : Option (Except PlatformError Stream)} (hx : ∀ stream, x ≠ some (.ok stream))
      (h : t.Resembles owner t') :
    Connects owner t id [asked (.connect handle) (.ok ()), ⟨.notifications handle, x⟩] t'
  | heard {t₁ : Tables η} {handle : Handle} (ho : owner handle = id) (stream : Stream)
      (task : Task) (h : t.Resembles owner t₁) :
    Connects owner t id
      [asked (.connect handle) (.ok ()), asked (.notifications handle) (.ok stream)]
      (t₁.listen id task)

/-- What a session does for a request. -/
inductive Step (owner : Handle → String) (t : Tables η) :
    Session.Request η → List (Call Platform.effects) → Tables η → Prop
  | quiet {request : Session.Request η} {t' : Tables η} {inquiries : List (Call Platform.effects)}
      (hq : ∀ call ∈ inquiries, call.1.isQuiet) (h : t.Resembles owner t') :
    Step owner t request inquiries t'
  | connect {p : Peripheral} {t' : Tables η} {inquiries : List (Call Platform.effects)}
      (hk : t.knows p.id) (h : Connects owner t p.id inquiries t') :
    Step owner t (.connect p) inquiries t'
  | cancel {p : Peripheral} {t' : Tables η} {handle : Handle} (ho : owner handle = p.id)
      (x : Option (Except PlatformError Unit)) (h : (t.unlisten p.id).Resembles owner t') :
    Step owner t (.cancelConnection p) [⟨.disconnect handle, x⟩] t'
  | subscribe {p : Peripheral} {c : Characteristic} {consumer : η} {t' : Tables η}
      {handle : Handle} (found : Platform.Characteristic) (x : Option (Except PlatformError Unit))
      (h : (t.addRoute p.id found.uuid consumer).Resembles owner t') :
    Step owner t (.subscribe p c consumer) [⟨.subscribe handle found, x⟩] t'
  /-- The subscription is refused, and with it go all that there were. -/
  | refuse {p : Peripheral} {c : Characteristic} {consumer : η} {t₁ : Tables η} {handle : Handle}
      (found : Platform.Characteristic) (e : PlatformError)
      (h : (t.addRoute p.id found.uuid consumer).Resembles owner t₁) :
    Step owner t (.subscribe p c consumer) [asked (.subscribe handle found) (.error e)]
      (t₁.removeRoute p.id found.uuid)
  | stop {t' : Tables η} {inquiries : List (Call Platform.effects)} {r : Option Unit}
      (h : Stops owner t inquiries r t') : Step owner t .stop inquiries t'

/-- Whoever asks for a peripheral that is not known is refused at once. -/
theorem proceeds_withHandle {p : Peripheral} {next : Handle → Prog η (Except Error α)}
    {r : Option (Except Error α)} (h : Proceeds owner (withHandle p next) t inquiries r t') :
    (inquiries = [] ∧ t' = t) ∨
      ∃ handle, t.handle? p.id = some handle ∧ Proceeds owner (next handle) t inquiries r t' := by
  replace h := proceeds_tables_bind_iff.mp h
  cases hh : t.handle? p.id with
  | none =>
    rw [hh] at h
    obtain ⟨rfl, -, rfl⟩ := proceeds_done_iff.mp h
    exact .inl ⟨rfl, rfl⟩
  | some handle =>
    rw [hh] at h
    exact .inr ⟨handle, rfl, h⟩

theorem Step.refl {request : Session.Request η} : Step owner t request [] t :=
  .quiet (List.forall_mem_nil _) (.refl t)

theorem proceeds_listen {id : String} {handle : Handle} {r : Option Unit}
    (h : Proceeds owner (listen id handle) t inquiries r t') :
    (∃ x, (∀ stream, x ≠ some (.ok stream)) ∧ inquiries = [⟨.notifications handle, x⟩] ∧
        t.Resembles owner t') ∨
      ∃ stream task t₁, inquiries = [asked (.notifications handle) (.ok stream)] ∧
        t.Resembles owner t₁ ∧ t' = t₁.listen id task := by
  rcases proceeds_ask_bind_iff.mp h with ⟨rfl, -, hd⟩ | ⟨x, t₁, rest, rfl, hd, h⟩
  · exact .inl ⟨none, nofun, rfl, hd.resembles⟩
  · cases x with
    | error e =>
      obtain ⟨rfl, -, rfl⟩ := proceeds_done_iff.mp h
      exact .inl ⟨some (.error e), nofun, rfl, hd.resembles⟩
    | ok stream =>
      obtain ⟨task, h⟩ := (proceeds_internal_bind_iff rfl).mp h
      replace h := proceeds_change_bind_iff.mp (proceeds_tables_bind_iff.mp h)
      rw [← bind_done (abort _), proceeds_abort_bind_iff] at h
      obtain ⟨rfl, -, rfl⟩ := proceeds_done_iff.mp h
      exact .inr ⟨stream, task, t₁, rfl, hd.resembles, rfl⟩

theorem proceeds_connect {p : Peripheral} {r : Option (Except Error Unit)} (hs : t.IsSound owner)
    (h : Proceeds owner (answer (.connect p)) t inquiries r t') :
    Step owner t (.connect p) inquiries t' := by
  rcases proceeds_withHandle h with ⟨rfl, rfl⟩ | ⟨handle, hh, h⟩
  · exact .refl
  · have ho := hs.owner_eq hh
    have known := Tables.knows_of_handle? hh
    rcases proceeds_ask_bind_iff.mp h with ⟨rfl, -, hd⟩ | ⟨x, t₁, rest, rfl, hd, h⟩
    · exact .connect known (.apart ho nofun hd.resembles)
    · have emitted {event : Event} {inquiries : List (Call Platform.effects)} {t : Tables η}
          (h : Proceeds owner ((emit event).bind fun _ => done (.ok ())) t inquiries r t') :
          inquiries = [] ∧ t' = t := by
        replace h := proceeds_emit_bind_iff.mp h
        obtain ⟨rfl, -, rfl⟩ := proceeds_done_iff.mp h
        exact ⟨rfl, rfl⟩
      cases x with
      | error e =>
        obtain ⟨rfl, rfl⟩ := emitted h
        exact .connect known (.apart ho nofun hd.resembles)
      | ok done =>
        obtain ⟨r, hl⟩ : ∃ r, Proceeds owner (listen p.id handle) t₁ rest r t' := by
          rcases proceeds_bind_iff.mp h with ⟨-, hl⟩ | ⟨_, t₂, first, last, rfl, hl, h⟩
          · exact ⟨none, hl⟩
          · obtain ⟨rfl, rfl⟩ := emitted h
            rw [List.append_nil]
            exact ⟨_, hl⟩
        rcases proceeds_listen hl with ⟨y, hy, rfl, ht⟩ | ⟨stream, task, t₂, rfl, ht, rfl⟩
        · exact .connect known (.unheard ho hy (hd.resembles.trans ht))
        · exact .connect known (.heard ho stream task (hd.resembles.trans ht))

theorem proceeds_cancel {p : Peripheral} {r : Option (Except Error Unit)} (hs : t.IsSound owner)
    (h : Proceeds owner (answer (.cancelConnection p)) t inquiries r t') :
    Step owner t (.cancelConnection p) inquiries t' := by
  rcases proceeds_withHandle h with ⟨rfl, rfl⟩ | ⟨handle, hh, h⟩
  · exact .refl
  · have ho := hs.owner_eq hh
    rcases proceeds_ask_bind_iff.mp (proceeds_unlisten_bind_iff.mp h) with
      ⟨rfl, -, hd⟩ | ⟨x, t₁, rest, rfl, hd, h⟩
    · exact .cancel ho none hd.resembles
    · cases x with
      | error e =>
        obtain ⟨rfl, -, rfl⟩ := proceeds_done_iff.mp h
        exact .cancel ho (some (.error e)) hd.resembles
      | ok done =>
        replace h := proceeds_emit_bind_iff.mp h
        obtain ⟨rfl, -, rfl⟩ := proceeds_done_iff.mp h
        exact .cancel ho (some (.ok ())) hd.resembles

theorem proceeds_subscribe {p : Peripheral} {c : Characteristic} {consumer : η}
    {r : Option (Except Error Unit)}
    (h : Proceeds owner (answer (.subscribe p c consumer)) t inquiries r t') :
    Step owner t (.subscribe p c consumer) inquiries t' := by
  rcases proceeds_withHandle h with ⟨rfl, rfl⟩ | ⟨handle, -, h⟩
  · exact .refl
  · obtain ⟨listed, h⟩ := (proceeds_internal_bind_iff rfl).mp h
    cases hf : find? listed c with
    | none =>
      rw [hf] at h
      obtain ⟨rfl, -, rfl⟩ := proceeds_done_iff.mp h
      exact .refl
    | some found =>
      rw [hf] at h
      rcases proceeds_ask_bind_iff.mp (proceeds_change_bind_iff.mp h) with
        ⟨rfl, -, hd⟩ | ⟨x, t₁, rest, rfl, hd, h⟩
      · exact .subscribe found none hd.resembles
      · cases x with
        | error e =>
          replace h := proceeds_change_bind_iff.mp h
          obtain ⟨rfl, -, rfl⟩ := proceeds_done_iff.mp h
          exact .refuse found e hd.resembles
        | ok done =>
          obtain ⟨rfl, -, rfl⟩ := proceeds_done_iff.mp h
          exact .subscribe found (some (.ok ())) hd.resembles

/-- From sound tables, the steps are all that a session can do. -/
theorem proceeds_answer {request : Session.Request η} {r : Option request.Answer}
    (hs : t.IsSound owner) (h : Proceeds owner (answer request) t inquiries r t') :
    Step owner t request inquiries t' := by
  cases hq : request.isQuiet with
  | true =>
    obtain ⟨ht, hi⟩ := h.of_isQuiet (uses_answer hq)
    exact .quiet hi ht
  | false =>
    cases request with
    | connect p => exact proceeds_connect hs h
    | cancelConnection p => exact proceeds_cancel hs h
    | subscribe p c consumer => exact proceeds_subscribe h
    | stop =>
      obtain ⟨r', h, -⟩ := proceeds_bind_done_iff.mp h
      exact .stop (proceeds_stop hs h)
    | _ => cases hq

/-! ## The tables after a turn -/

theorem Releasing.isSound {ids : List String} {r : Option Unit}
    (h : Releasing owner t ids inquiries r t') (hs : t.IsSound owner) : t'.IsSound owner := by
  induction h with
  | nil => exact hs
  | next _ ht _ ih => exact ih (ht.isSound (hs.unlisten _))
  | givenUp _ ht => exact ht.isSound (hs.unlisten _)

theorem Releasing.listensTo_iff {ids : List String} {id : String}
    (h : Releasing owner t ids inquiries (some ()) t') :
    t'.listensTo id ↔ t.listensTo id ∧ id ∉ ids := by
  generalize hr : some () = r at h
  induction h with
  | nil => simp
  | next _ ht _ ih =>
    rw [ih hr, ht.listensTo_iff, Tables.listensTo_unlisten, List.mem_cons, not_or]
    exact and_assoc.trans and_left_comm
  | givenUp => cases hr

theorem Releasing.mem_routes_iff {ids : List String} {r : (String × Uuid) × List η}
    (h : Releasing owner t ids inquiries (some ()) t') :
    r ∈ t'.routes ↔ r ∈ t.routes ∧ r.1.1 ∉ ids := by
  generalize hr : some () = result at h
  induction h with
  | nil => simp
  | next _ ht _ ih =>
    rw [ih hr, ht.mem_routes_iff, Tables.mem_routes_unlisten, List.mem_cons, not_or, and_assoc]
  | givenUp => cases hr

/-- A session that has been stopped listens to nothing and knows nothing, and it has kept the routes
of the peripherals that it did not listen to. -/
theorem Stops.tables (h : Stops owner t inquiries (some ()) t') :
    t'.listeners = [] ∧ t'.peripherals = [] ∧ t'.events = none ∧ t'.forwarder = none ∧
      ∀ r, r ∈ t'.routes ↔ r ∈ t.routes ∧ ¬ t.listensTo r.1.1 := by
  cases h with
  | @stopped t₁ t₂ rest ht x hr =>
    refine ⟨?_, rfl, rfl, rfl, fun r => ?_⟩
    · refine List.eq_nil_iff_forall_not_mem.mpr fun l hl => ?_
      obtain ⟨listened, released⟩ := hr.listensTo_iff.mp ⟨l, hl, rfl⟩
      exact released (Tables.mem_listeners_iff.mpr listened)
    · refine hr.mem_routes_iff.trans ?_
      rw [ht.mem_routes_iff, Tables.mem_listeners_iff, ht.listensTo_iff]

theorem Step.isSound {request : Session.Request η} (h : Step owner t request inquiries t')
    (hs : t.IsSound owner) : t'.IsSound owner := by
  cases h with
  | quiet _ ht => exact ht.isSound hs
  | connect hk h =>
    cases h with
    | apart _ _ ht => exact ht.isSound hs
    | unheard _ _ ht => exact ht.isSound hs
    | heard _ _ _ ht => exact (ht.isSound hs).listen (ht.knows hk) _
  | cancel _ _ ht => exact ht.isSound (hs.unlisten _)
  | subscribe _ _ ht => exact ht.isSound ⟨hs.owned, hs.known⟩
  | refuse _ _ ht =>
    have sound := ht.isSound ⟨hs.owned, hs.known⟩
    exact ⟨sound.owned, sound.known⟩
  | stop h =>
    cases h with
    | scanning ht => exact ht.isSound hs
    | givenUp ht _ hr => exact hr.isSound (ht.isSound hs)
    | stopped ht x hr =>
      -- the handles are gone, and it takes that of the listeners for the tables to be sound
      have after := Stops.tables (.stopped ht x hr)
      exact Tables.isSound_of_nil after.2.1 after.1

/-! ## Histories -/

/-- A request and what the platform was asked for it. -/
structure Turn (η : Type) where
  request : Session.Request η
  inquiries : List (Call Platform.effects)

/-- The turns that a session has had since it was created, and its tables. A turn can be given up
while the session waits for the platform, and the tables drift between turns as well. -/
inductive History (owner : Handle → String) : List (Turn η) → Tables η → Prop
  | created : History owner [] {}
  | waited {turns : List (Turn η)} {t t' : Tables η} (h : History owner turns t)
      (hd : t.Drifts owner t') : History owner turns t'
  | turned {turns : List (Turn η)} {t t' : Tables η} {request : Session.Request η}
      {inquiries : List (Call Platform.effects)} {r : Option request.Answer}
      (h : History owner turns t) (ht : Proceeds owner (answer request) t inquiries r t') :
    History owner (turns ++ [⟨request, inquiries⟩]) t'

variable {turns : List (Turn η)}

theorem History.isSound (h : History owner turns t) : t.IsSound owner := by
  induction h with
  | created => exact Tables.isSound_of_nil rfl rfl
  | waited _ hd ih => exact hd.resembles.isSound ih
  | turned _ ht ih => exact (proceeds_answer ih ht).isSound ih

end GattSync.Adapter
