import GattSync.Adapter.Session
import GattSync.Proofs.Program.Evolution

/-!
# The tables of an adapter session over time

Which peripherals the tables know, listen to and have routes for, and what the changes of the tables
do to that. While a session waits for the platform, its forwarder may keep handles of peripherals
that were seen, and the tables are in no particular order (`Drifts`). Of the platform it is assumed
that a handle belongs to one peripheral for good, its owner.

All handles that are kept are those of the peripheral they are kept for, and whatever is listened to
is known (`IsSound`).
-/

namespace GattSync.Adapter

open Program

variable {η : Type}

namespace Tables

/-- A handle of the peripheral is kept. -/
def knows (t : Tables η) (id : String) : Prop := ∃ e ∈ t.peripherals, e.1 = id

/-- The peripheral is listened to. -/
def listensTo (t : Tables η) (id : String) : Prop := ∃ l ∈ t.listeners, l.1 = id

/-- There is a route for a characteristic of the peripheral. -/
def routes? (t : Tables η) (id : String) : Prop := ∃ r ∈ t.routes, r.1.1 = id

end Tables

/-! ## Lists of keys and values -/

section

variable {κ α : Type} [BEq κ] {key : κ} {a : α} {l : List (κ × α)}

theorem mem_of_mem_put {e : κ × α} (h : e ∈ put key a l) : e = (key, a) ∨ e ∈ l := by
  induction l with
  | nil => exact .inl (List.mem_singleton.mp h)
  | cons f rest ih =>
    obtain ⟨k, b⟩ := f
    rw [put] at h
    split at h
    · rcases List.mem_cons.mp h with rfl | hrest
      · exact .inl rfl
      · exact .inr (List.mem_cons_of_mem _ hrest)
    · rcases List.mem_cons.mp h with rfl | hrest
      · exact .inr List.mem_cons_self
      · exact (ih hrest).imp_right (List.mem_cons_of_mem _)

variable [LawfulBEq κ]

theorem mem_of_lookup_eq_some (h : l.lookup key = some a) : (key, a) ∈ l := by
  obtain ⟨before, after, rfl, -⟩ := List.lookup_eq_some_iff.mp h
  exact List.mem_append_right _ List.mem_cons_self

theorem exists_lookup_of_mem (h : ∃ e ∈ l, e.1 = key) : ∃ a, l.lookup key = some a := by
  obtain ⟨e, he, rfl⟩ := h
  exact Option.isSome_iff_exists.mp (List.lookup_isSome_iff.mpr ⟨e, he, BEq.rfl⟩)

theorem exists_mem_put_iff {other : κ} :
    (∃ e ∈ put key a l, e.1 = other) ↔ other = key ∨ ∃ e ∈ l, e.1 = other := by
  induction l with
  | nil => simp [put, eq_comm]
  | cons f rest ih =>
    obtain ⟨k, b⟩ := f
    rw [put]
    by_cases hk : k = key
    · subst hk
      simp [eq_comm]
    · rw [if_neg (by simpa using hk)]
      simp only [List.mem_cons, or_and_right, exists_or, exists_eq_left, ih]
      exact or_left_comm

end

namespace Tables

variable {t : Tables η} {id other : String}

/-! ## What the changes of the tables do -/

theorem handle?_of_knows (h : t.knows id) : ∃ handle, t.handle? id = some handle :=
  exists_lookup_of_mem h

theorem knows_of_handle? {handle : Platform.Handle} (h : t.handle? id = some handle) :
    t.knows id :=
  ⟨_, mem_of_lookup_eq_some h, rfl⟩

theorem knows_keep {handle : Platform.Handle} :
    (t.keep id handle).knows other ↔ other = id ∨ t.knows other := exists_mem_put_iff

theorem mem_listeners_iff : id ∈ t.listeners.map (·.1) ↔ t.listensTo id := List.mem_map

theorem listensTo_listen {task : Task} :
    (t.listen id task).listensTo other ↔ other = id ∨ t.listensTo other := exists_mem_put_iff

theorem listensTo_unlisten : (t.unlisten id).listensTo other ↔ other ≠ id ∧ t.listensTo other := by
  constructor
  · rintro ⟨l, hl, rfl⟩
    obtain ⟨hl, hne⟩ := List.mem_filter.mp hl
    exact ⟨by simpa using hne, l, hl, rfl⟩
  · rintro ⟨hne, l, hl, rfl⟩
    exact ⟨l, List.mem_filter.mpr ⟨hl, by simpa using hne⟩, rfl⟩

theorem mem_routes_unlisten {r : (String × Uuid) × List η} :
    r ∈ (t.unlisten id).routes ↔ r ∈ t.routes ∧ r.1.1 ≠ id := by
  simp [unlisten]

theorem routes?_unlisten : (t.unlisten id).routes? other ↔ other ≠ id ∧ t.routes? other := by
  constructor
  · rintro ⟨r, hr, rfl⟩
    obtain ⟨hr, hne⟩ := mem_routes_unlisten.mp hr
    exact ⟨hne, r, hr, rfl⟩
  · rintro ⟨hne, r, hr, rfl⟩
    exact ⟨r, mem_routes_unlisten.mpr ⟨hr, hne⟩, rfl⟩

theorem routes?_addRoute {c : Uuid} {consumer : η} (h : (t.addRoute id c consumer).routes? other) :
    other = id ∨ t.routes? other := by
  obtain ⟨r, hr, rfl⟩ := h
  rcases mem_of_mem_put hr with rfl | old
  · exact .inl rfl
  · exact .inr ⟨r, old, rfl⟩

theorem routes?_removeRoute {c : Uuid} (h : (t.removeRoute id c).routes? other) :
    t.routes? other := by
  obtain ⟨r, hr, rfl⟩ := h
  exact ⟨r, (List.mem_filter.mp hr).1, rfl⟩

/-! ## While the session waits -/

/-- What the tables can be after a wait. -/
inductive Drifts (owner : Platform.Handle → String) (t : Tables η) : Tables η → Prop
  | refl : Drifts owner t t
  /-- The forwarder keeps a handle of a peripheral that was seen. -/
  | kept {t' : Tables η} (h : Drifts owner t t') (handle : Platform.Handle) :
    Drifts owner t (t'.keep (owner handle) handle)
  /-- The tables have no order of their own. -/
  | reordered {t' : Tables η} {peripherals : List (String × Platform.Handle)}
      {routes : List ((String × Uuid) × List η)} {listeners : List (String × Task)}
      (h : Drifts owner t t') (hp : peripherals.Perm t'.peripherals) (hr : routes.Perm t'.routes)
      (hl : listeners.Perm t'.listeners) :
    Drifts owner t { t' with peripherals, routes, listeners }

/-- The tables listen to the same peripherals and have the same routes as before, they know what
they knew, and none of their handles has gone to a wrong place. -/
structure Resembles (owner : Platform.Handle → String) (t t' : Tables η) : Prop where
  owned (h : ∀ e ∈ t.peripherals, owner e.2 = e.1) : ∀ e ∈ t'.peripherals, owner e.2 = e.1
  knows {id : String} (h : t.knows id) : t'.knows id
  listensTo_iff {id : String} : t'.listensTo id ↔ t.listensTo id
  mem_routes_iff {r : (String × Uuid) × List η} : r ∈ t'.routes ↔ r ∈ t.routes

/-- Handles are kept for their owners only, and what is listened to is known. -/
structure IsSound (owner : Platform.Handle → String) (t : Tables η) : Prop where
  owned : ∀ e ∈ t.peripherals, owner e.2 = e.1
  known {id : String} (h : t.listensTo id) : t.knows id

variable {owner : Platform.Handle → String} {t' t'' : Tables η}

theorem Resembles.refl (t : Tables η) : t.Resembles owner t := ⟨id, id, Iff.rfl, Iff.rfl⟩

theorem Resembles.trans (h : t.Resembles owner t') (h' : t'.Resembles owner t'') :
    t.Resembles owner t'' where
  owned ho := h'.owned (h.owned ho)
  knows hk := h'.knows (h.knows hk)
  listensTo_iff := h'.listensTo_iff.trans h.listensTo_iff
  mem_routes_iff := h'.mem_routes_iff.trans h.mem_routes_iff

theorem Resembles.routes?_iff (h : t.Resembles owner t') : t'.routes? id ↔ t.routes? id :=
  exists_congr fun _ => and_congr_left' h.mem_routes_iff

theorem Resembles.isSound (h : t.Resembles owner t') (hs : t.IsSound owner) : t'.IsSound owner where
  owned := h.owned hs.owned
  known hl := h.knows (hs.known (h.listensTo_iff.mp hl))

theorem resembles_keep (t : Tables η) (handle : Platform.Handle) :
    t.Resembles owner (t.keep (owner handle) handle) where
  owned h e he := by
    rcases mem_of_mem_put he with rfl | old
    · rfl
    · exact h e old
  knows hk := knows_keep.mpr (.inr hk)
  listensTo_iff := Iff.rfl
  mem_routes_iff := Iff.rfl

theorem resembles_reordered {peripherals : List (String × Platform.Handle)}
    {routes : List ((String × Uuid) × List η)} {listeners : List (String × Task)}
    (hp : peripherals.Perm t.peripherals) (hr : routes.Perm t.routes)
    (hl : listeners.Perm t.listeners) :
    t.Resembles owner { t with peripherals, routes, listeners } where
  owned h e he := h e (hp.mem_iff.mp he)
  knows := fun ⟨e, he, hid⟩ => ⟨e, hp.mem_iff.mpr he, hid⟩
  listensTo_iff := exists_congr fun _ => and_congr_left' hl.mem_iff
  mem_routes_iff := hr.mem_iff

theorem Drifts.resembles (h : t.Drifts owner t') : t.Resembles owner t' := by
  induction h with
  | refl => exact .refl t
  | kept _ handle ih => exact ih.trans (resembles_keep _ handle)
  | reordered _ hp hr hl ih => exact ih.trans (resembles_reordered hp hr hl)

theorem IsSound.owner_eq {handle : Platform.Handle} (h : t.IsSound owner)
    (hh : t.handle? id = some handle) : owner handle = id :=
  h.owned _ (mem_of_lookup_eq_some hh)

theorem isSound_of_nil (hp : t.peripherals = []) (hl : t.listeners = []) : t.IsSound owner where
  owned e he := by simp [hp] at he
  known := fun ⟨l, hm, _⟩ => by simp [hl] at hm

theorem IsSound.unlisten (h : t.IsSound owner) (id : String) : (t.unlisten id).IsSound owner where
  owned := h.owned
  known hl := h.known (listensTo_unlisten.mp hl).2

theorem IsSound.listen (h : t.IsSound owner) (hk : t.knows id) (task : Task) :
    (t.listen id task).IsSound owner where
  owned := h.owned
  known hl := by
    rcases listensTo_listen.mp hl with rfl | old
    · exact hk
    · exact h.known old

end Tables
end GattSync.Adapter
