import GattSync.Proofs.Status.Updates
import GattSync.Status.Handles
import Mathlib.Data.List.Basic

/-!
# Sharing through handles

Handles of one store are a group: the handle that came with the store began it, and every clone of a
handle joins the group of that handle. Who is in which group, and which updates were made in it, can
be told from what was done (`groups`, `updates`), without asking for the stores. That is enough to
say what each handle sees (`sharing_of_run`): the snapshot that the group started from, with the
updates of the group in their order. Nothing that is done in another group is seen, and a snapshot
that was taken stays as it was.

The stores come in by their numbers alone: two handles have the same store if and only if they are
in the same group (`IsGrouped`). Each step keeps this, since a clone brings a pair of store and
group that is there already, and a new store and its group are both new.
-/

namespace GattSync.Status.Handles

variable {acts before after : List Act} {a : Act} {s s' r : Handles} {x : Answer}
  {start : Snapshot} {handle group : Nat}

/-! ## Groups -/

/-- The groups of the handles that are added, given those of the handles there are. A group is named
by the handle that begins it. -/
def Act.joins (groups : List Nat) : Act → List Nat
  | .create _ => [groups.length]
  | .clone handle => groups[handle]?.toList
  | _ => []

/-- The group of each handle. -/
def groups (acts : List Act) : List Nat := acts.foldl (fun groups a => groups ++ a.joins groups) []

/-- The update that is made in a group. -/
def Act.update? (groups : List Nat) (group : Nat) : Act → Option Entry
  | .upsert handle now name desired reported =>
    if groups[handle]? = some group then some ⟨name, desired, reported, now⟩ else none
  | _ => none

/-- The updates that are made in a group, through any handle of it, in their order. -/
def updates (acts : List Act) (group : Nat) : List Entry :=
  acts.filterMap (Act.update? (groups acts) group)

/-- The handle that something is done with. -/
def Act.handle? : Act → Option Nat
  | .create _ => none
  | .clone handle | .upsert handle _ _ _ _ | .get handle _ | .snapshot handle => some handle

/-- The snapshot taken that something is done with. -/
def Act.copy? : Act → Option Nat
  | .create (.taken n) => some n
  | _ => none

/-- A group began when a store was made, with a snapshot. -/
def Began (acts : List Act) (group : Nat) (start : Snapshot) : Prop :=
  ∃ before seed after r, acts = before ++ .create seed :: after ∧ run before = some r ∧
    r.held.length = group ∧ r.seed? seed = some start

/-- What the handles see, and what the snapshots taken are, after all that was done. -/
structure Sharing (acts : List Act) (s : Handles) : Prop where
  /-- Every handle is in a group. -/
  length_groups : (groups acts).length = s.held.length
  /-- Everything can be done with handles and snapshots that are there, and only with those. -/
  possible (a : Act) : (∃ x s', s.act a = some (x, s')) ↔
    (∀ handle ∈ a.handle?, handle < (groups acts).length) ∧ ∀ n ∈ a.copy?, n < s.taken.length
  /-- Each group began with a snapshot, and through every handle of the group is seen what became of
  it by the updates of the group. -/
  views {group : Nat} (h : group ∈ groups acts) : ∃ start, Began acts group start ∧
    ∀ {handle : Nat}, (groups acts)[handle]? = some group →
      s.view? handle = some (start.updated (updates acts group))
  /-- So it makes no difference which handle of a group is asked. -/
  alike {g h : Nat} (same : (groups acts)[g]? = (groups acts)[h]?) : s.view? g = s.view? h ∧
    ∀ name, s.act (.get g name) = (s.view? h).map fun p => (.entry (p.get? name), s)
  /-- Whatever is done next, a handle sees the same as before unless there is an update in its own
  group. -/
  frame {a : Act} {x : Answer} {s' : Handles} {handle group : Nat} (h : s.act a = some (x, s'))
    (hg : (groups acts)[handle]? = some group) (hu : a.update? (groups acts) group = none) :
    s'.view? handle = s.view? handle
  /-- A snapshot taken is what was seen then, under the number that was answered. -/
  taken {before after : List Act} {handle : Nat} {r : Handles}
    (h : acts = before ++ .snapshot handle :: after) (hr : run before = some r) :
    ∃ p, r.view? handle = some p ∧ s.taken[r.taken.length]? = some p
  /-- There are no other snapshots. -/
  taken_of {n : Nat} {p : Snapshot} (h : s.taken[n]? = some p) : ∃ before handle after r,
    acts = before ++ .snapshot handle :: after ∧ run before = some r ∧ r.taken.length = n ∧
      r.view? handle = some p

/-! ## Steps -/

/-- What can come of each act. -/
inductive Does (s : Handles) : Act → Answer → Handles → Prop where
  | create {seed : Seed} {start : Snapshot} (h : s.seed? seed = some start) :
    Does s (.create seed) (.handle s.held.length) (s.create start)
  | clone {handle : Nat} {store : Store} (h : s.held[handle]? = some store) :
    Does s (.clone handle) (.handle s.held.length) { s with held := s.held ++ [store] }
  | upsert {handle : Nat} {store : Store} (h : s.held[handle]? = some store) (now : Timestamp)
    (name desired reported : String) :
    Does s (.upsert handle now name desired reported) .done
      { s with stores := s.stores.upsert store now name desired reported }
  | get {handle : Nat} {p : Snapshot} (h : s.view? handle = some p) (name : String) :
    Does s (.get handle name) (.entry (p.get? name)) s
  | snapshot {handle : Nat} {p : Snapshot} (h : s.view? handle = some p) :
    Does s (.snapshot handle) (.taken s.taken.length) { s with taken := s.taken ++ [p] }

theorem act_eq_some (h : s.act a = some (x, s')) : Does s a x s' := by
  cases a <;>
  · obtain ⟨y, hy, h⟩ := Option.bind_eq_some_iff.mp h
    obtain ⟨rfl, rfl⟩ := Prod.mk.inj (Option.some.inj h)
    constructor
    exact hy

theorem exists_act_iff : (∃ x s', s.act a = some (x, s')) ↔
    (∀ handle ∈ a.handle?, handle < s.held.length) ∧ ∀ n ∈ a.copy?, n < s.taken.length := by
  have there {α : Type} (l : List α) (n : Nat) : (∃ x, l[n]? = some x) ↔ n < l.length := by
    rw [← Option.isSome_iff_exists, isSome_getElem?]
  cases a with
  | create seed =>
    cases seed <;> simp [act, seed?, Act.handle?, Act.copy?, Option.bind_eq_some_iff, there]
  | _ => simp [act, view?, Act.handle?, Act.copy?, Option.bind_eq_some_iff, there]

theorem run_concat : run (acts ++ [a]) = some s' ↔
    ∃ s x, run acts = some s ∧ s.act a = some (x, s') := by
  simp [run, List.foldlM_append, Option.bind_eq_some_iff]

/-- What holds at the start and is kept by every step holds after every run. -/
theorem run_induction {P : List Act → Handles → Prop} (start : P [] {})
    (step : ∀ {acts s a x s'}, run acts = some s → P acts s → Does s a x s' → P (acts ++ [a]) s')
    (h : run acts = some s) : P acts s := by
  induction acts using List.reverseRecOn generalizing s with
  | nil => exact Option.some.inj h ▸ start
  | append_singleton acts a ih =>
    obtain ⟨r, x, hr, ha⟩ := run_concat.mp h
    exact step hr (ih hr) (act_eq_some ha)

theorem groups_concat : groups (acts ++ [a]) = groups acts ++ a.joins (groups acts) :=
  List.foldl_append

theorem Began.concat (h : Began acts group start) (a : Act) : Began (acts ++ [a]) group start := by
  obtain ⟨before, seed, after, r, rfl, rest⟩ := h
  exact ⟨before, seed, after ++ [a], r, by simp, rest⟩

/-! ## Stores and groups -/

/-- The store of each handle and its group. -/
def pairs (acts : List Act) (s : Handles) : List (Store × Nat) := s.held.zip (groups acts)

/-- How the stores stand to the groups. -/
structure IsGrouped (acts : List Act) (s : Handles) : Prop where
  length_eq : s.held.length = (groups acts).length
  /-- New groups do not matter to the updates that were made. -/
  settled {a : Act} (ha : a ∈ acts) (new : List Nat) (group : Nat) :
    a.update? (groups acts ++ new) group = a.update? (groups acts) group
  /-- There is one store to a group, and one group to a store. -/
  same_iff {p q : Store × Nat} (hp : p ∈ pairs acts s) (hq : q ∈ pairs acts s) :
    p.1 = q.1 ↔ p.2 = q.2
  lt {p : Store × Nat} (hp : p ∈ pairs acts s) :
    p.1 < s.stores.snapshots.length ∧ p.2 < s.held.length
  seen {p : Store × Nat} (hp : p ∈ pairs acts s) : ∃ start, Began acts p.2 start ∧
    s.stores.snapshot p.1 = start.updated (updates acts p.2)

namespace IsGrouped

theorem getElem?_pairs (hs : IsGrouped acts s) (h : (groups acts)[handle]? = some group) :
    ∃ store, s.held[handle]? = some store ∧ (store, group) ∈ pairs acts s := by
  have lt : handle < s.held.length := hs.length_eq ▸ (List.getElem?_eq_some_iff.mp h).1
  have store := List.getElem?_eq_getElem lt
  exact ⟨_, store, List.mem_of_getElem? (List.getElem?_zip_eq_some.mpr ⟨store, h⟩)⟩

theorem exists_group (hs : IsGrouped acts s) {store : Store} (h : s.held[handle]? = some store) :
    ∃ group, (groups acts)[handle]? = some group ∧ (store, group) ∈ pairs acts s := by
  have lt : handle < (groups acts).length := hs.length_eq ▸ (List.getElem?_eq_some_iff.mp h).1
  have group := List.getElem?_eq_getElem lt
  exact ⟨_, group, List.mem_of_getElem? (List.getElem?_zip_eq_some.mpr ⟨h, group⟩)⟩

theorem pairs_append (hs : IsGrouped acts s) (stores : List Store) (new : List Nat) :
    (s.held ++ stores).zip (groups acts ++ new) = pairs acts s ++ stores.zip new :=
  List.zip_append hs.length_eq

theorem updates_concat (hs : IsGrouped acts s) : updates (acts ++ [a]) group =
    updates acts group ++ (a.update? (groups (acts ++ [a])) group).toList := by
  have earlier :
      acts.filterMap (Act.update? (groups (acts ++ [a])) group) = updates acts group := by
    refine List.filterMap_congr fun b hb => ?_
    rw [groups_concat, hs.settled hb]
  rw [updates, List.filterMap_append, earlier]
  cases h : a.update? (groups (acts ++ [a])) group <;> simp [h]

theorem not_mem_groups (hs : IsGrouped acts s) : s.held.length ∉ groups acts := by
  intro h
  obtain ⟨handle, h⟩ := List.mem_iff_getElem?.mp h
  obtain ⟨store, -, hp⟩ := hs.getElem?_pairs h
  exact Nat.lt_irrefl _ (hs.lt hp).2

end IsGrouped

/-- There are no updates in a group that is not there. -/
theorem updates_eq_nil (h : group ∉ groups acts) : updates acts group = [] := by
  refine List.filterMap_eq_nil_iff.mpr fun a _ => ?_
  cases a with
  | upsert handle now name desired reported =>
    exact if_neg fun hg => h (List.mem_of_getElem? hg)
  | _ => rfl

namespace IsGrouped

theorem empty : IsGrouped [] {} :=
  ⟨rfl, nofun, nofun, nofun, nofun⟩

theorem settled_concat (hs : IsGrouped acts s)
    (ha : ∀ new group, a.update? (groups acts ++ new) group = a.update? (groups acts) group)
    {b : Act} (hb : b ∈ acts ++ [a]) (new : List Nat) (group : Nat) :
    b.update? (groups (acts ++ [a]) ++ new) group = b.update? (groups (acts ++ [a])) group := by
  rw [groups_concat, List.append_assoc]
  rcases List.mem_append.mp hb with earlier | last
  · rw [hs.settled earlier, hs.settled earlier]
  · obtain rfl := List.mem_singleton.mp last
    rw [ha, ha]

/-- A step that makes no store and no update leaves each store with what it has. -/
theorem of_subset (hs : IsGrouped acts s)
    (no_update : ∀ groups group, a.update? groups group = none)
    (length_eq : s'.held.length = (groups (acts ++ [a])).length)
    (more : s.held.length ≤ s'.held.length) (hstores : s'.stores = s.stores)
    (hp : pairs (acts ++ [a]) s' ⊆ pairs acts s) : IsGrouped (acts ++ [a]) s' where
  length_eq := length_eq
  settled := hs.settled_concat fun new group => by rw [no_update, no_update]
  same_iff hp' hq := hs.same_iff (hp hp') (hp hq)
  lt hp' := by
    obtain ⟨store, group⟩ := hs.lt (hp hp')
    exact ⟨hstores ▸ store, Nat.lt_of_lt_of_le group more⟩
  seen hp' := by
    obtain ⟨start, began, seen⟩ := hs.seen (hp hp')
    refine ⟨start, began.concat a, ?_⟩
    rw [hs.updates_concat, no_update, hstores, seen, Option.toList_none, List.append_nil]

theorem of_idle (hs : IsGrouped acts s)
    (no_update : ∀ groups group, a.update? groups group = none)
    (no_handle : ∀ groups, a.joins groups = []) (hheld : s'.held = s.held)
    (hstores : s'.stores = s.stores) : IsGrouped (acts ++ [a]) s' := by
  have same : groups (acts ++ [a]) = groups acts := by
    rw [groups_concat, no_handle, List.append_nil]
  refine hs.of_subset no_update ?_ (Nat.le_of_eq (congrArg _ hheld.symm)) hstores ?_
  · rw [hheld, same, hs.length_eq]
  · rw [pairs, hheld, same]
    exact List.Subset.refl _

/-- A new store brings its own number and that of its handle. -/
theorem mem_pairs_create (hs : IsGrouped acts s) {seed : Seed} {p : Store × Nat} :
    p ∈ pairs (acts ++ [.create seed]) (s.create start) ↔
      p ∈ pairs acts s ∨ p = (s.stores.snapshots.length, s.held.length) := by
  have joined : pairs (acts ++ [.create seed]) (s.create start) =
      pairs acts s ++ [(s.stores.snapshots.length, s.held.length)] := by
    rw [pairs, groups_concat, Handles.create, hs.pairs_append, Act.joins, ← hs.length_eq]
    rfl
  rw [joined, List.mem_append, List.mem_singleton]

theorem same_iff_create (hs : IsGrouped acts s) {seed : Seed} {p q : Store × Nat}
    (hp : p ∈ pairs (acts ++ [.create seed]) (s.create start))
    (hq : q ∈ pairs (acts ++ [.create seed]) (s.create start)) : p.1 = q.1 ↔ p.2 = q.2 := by
  have fresh {p : Store × Nat} (hp : p ∈ pairs acts s) :
      p.1 ≠ s.stores.snapshots.length ∧ p.2 ≠ s.held.length :=
    (hs.lt hp).imp Nat.ne_of_lt Nat.ne_of_lt
  rcases hs.mem_pairs_create.mp hp with hp | rfl <;>
    rcases hs.mem_pairs_create.mp hq with hq | rfl
  · exact hs.same_iff hp hq
  · exact iff_of_false (fresh hp).1 (fresh hp).2
  · exact iff_of_false (fresh hq).1.symm (fresh hq).2.symm
  · exact iff_of_true rfl rfl

theorem create (hs : IsGrouped acts s) (hr : run acts = some s) {seed : Seed}
    (h : s.seed? seed = some start) : IsGrouped (acts ++ [.create seed]) (s.create start) where
  length_eq := by simp [Handles.create, groups_concat, Act.joins, hs.length_eq]
  settled := hs.settled_concat fun _ _ => rfl
  same_iff := hs.same_iff_create
  lt hp := by
    have stores : (s.create start).stores.snapshots.length = s.stores.snapshots.length + 1 := by
      simp [Handles.create, Stores.create]
    have handles : (s.create start).held.length = s.held.length + 1 := by
      simp [Handles.create]
    rw [stores, handles]
    rcases hs.mem_pairs_create.mp hp with hp | rfl
    · exact (hs.lt hp).imp Nat.lt_succ_of_lt Nat.lt_succ_of_lt
    · exact ⟨Nat.lt_succ_self _, Nat.lt_succ_self _⟩
  seen hp := by
    have old {group : Nat} : updates (acts ++ [.create seed]) group = updates acts group :=
      hs.updates_concat.trans (List.append_nil _)
    rw [old]
    rcases hs.mem_pairs_create.mp hp with hp | rfl
    · obtain ⟨first, began, seen⟩ := hs.seen hp
      refine ⟨first, began.concat _, ?_⟩
      rw [← seen]
      exact Stores.snapshot_create_of_lt _ _ (hs.lt hp).1
    · refine ⟨start, ⟨acts, seed, [], s, rfl, hr, rfl, h⟩, ?_⟩
      rw [updates_eq_nil hs.not_mem_groups]
      exact Stores.snapshot_create _ _

theorem clone (hs : IsGrouped acts s) {store : Store} (h : s.held[handle]? = some store) :
    IsGrouped (acts ++ [.clone handle]) { s with held := s.held ++ [store] } := by
  obtain ⟨group, hg, hp⟩ := hs.exists_group h
  have joins : groups (acts ++ [.clone handle]) = groups acts ++ [group] := by
    rw [groups_concat, Act.joins, hg]
    rfl
  refine hs.of_subset (fun _ _ => rfl) ?_ ?_ rfl ?_
  · simp [joins, hs.length_eq]
  · simp
  · rw [pairs, joins, hs.pairs_append]
    exact List.append_subset.mpr ⟨List.Subset.refl _, by simpa using hp⟩

theorem upsert (hs : IsGrouped acts s) {store : Store} (h : s.held[handle]? = some store)
    (now : Timestamp) (name desired reported : String) :
    IsGrouped (acts ++ [.upsert handle now name desired reported])
      { s with stores := s.stores.upsert store now name desired reported } := by
  obtain ⟨group, hg, hp⟩ := hs.exists_group h
  have same : groups (acts ++ [.upsert handle now name desired reported]) = groups acts :=
    groups_concat.trans (List.append_nil _)
  have hpairs (stores : Stores) : pairs (acts ++ [.upsert handle now name desired reported])
      { s with stores } = pairs acts s := by rw [pairs, same, pairs]
  refine ⟨same ▸ hs.length_eq, hs.settled_concat fun new other => ?_, ?_, ?_, ?_⟩
  · rw [Act.update?, Act.update?, List.getElem?_append_left (List.getElem?_eq_some_iff.mp hg).1]
  · rw [hpairs]
    exact hs.same_iff
  · rw [hpairs]
    intro q hq
    simpa [Stores.upsert] using hs.lt hq
  · rw [hpairs]
    intro q hq
    obtain ⟨start, began, seen⟩ := hs.seen hq
    refine ⟨start, began.concat _, ?_⟩
    rw [hs.updates_concat, same, Act.update?, hg]
    by_cases own : q.1 = store
    · have here : group = q.2 := ((hs.same_iff hq hp).mp own).symm
      rw [if_pos (congrArg some here), Option.toList_some, Snapshot.updated_concat, ← seen, own]
      exact Stores.snapshot_upsert_self _ (hs.lt hp).1 _ _ _ _
    · have elsewhere : group ≠ q.2 := fun here => own ((hs.same_iff hq hp).mpr here.symm)
      rw [if_neg (by simpa using elsewhere), Option.toList_none, List.append_nil, ← seen]
      exact Stores.snapshot_upsert_of_ne _ own _ _ _ _

end IsGrouped

theorem isGrouped_of_run (h : run acts = some s) : IsGrouped acts s := by
  refine run_induction IsGrouped.empty (fun hr hs step => ?_) h
  cases step with
  | create h => exact hs.create hr h
  | clone h => exact hs.clone h
  | upsert h now name desired reported => exact hs.upsert h now name desired reported
  | get => exact hs.of_idle (fun _ _ => rfl) (fun _ => rfl) rfl rfl
  | snapshot => exact hs.of_idle (fun _ _ => rfl) (fun _ => rfl) rfl rfl

/-! ## Views -/

namespace IsGrouped

theorem view?_eq (hs : IsGrouped acts s) {store : Store} (hp : (store, group) ∈ pairs acts s)
    (h : (groups acts)[handle]? = some group) :
    s.view? handle = some (s.stores.snapshot store) := by
  obtain ⟨own, held, hq⟩ := hs.getElem?_pairs h
  obtain rfl : own = store := (hs.same_iff hq hp).mpr rfl
  rw [view?, held, Option.map_some]

theorem view?_eq_none (hs : IsGrouped acts s) (h : (groups acts)[handle]? = none) :
    s.view? handle = none := by
  rw [List.getElem?_eq_none_iff, ← hs.length_eq] at h
  rw [view?, List.getElem?_eq_none h, Option.map_none]

theorem exists_views (hs : IsGrouped acts s) (h : group ∈ groups acts) :
    ∃ start, Began acts group start ∧ ∀ {handle : Nat}, (groups acts)[handle]? = some group →
      s.view? handle = some (start.updated (updates acts group)) := by
  obtain ⟨first, hg⟩ := List.mem_iff_getElem?.mp h
  obtain ⟨store, -, hp⟩ := hs.getElem?_pairs hg
  obtain ⟨start, began, seen⟩ := hs.seen hp
  exact ⟨start, began, fun hg => seen ▸ hs.view?_eq hp hg⟩

theorem view?_congr (hs : IsGrouped acts s) {g h : Nat}
    (same : (groups acts)[g]? = (groups acts)[h]?) : s.view? g = s.view? h := by
  cases hg : (groups acts)[g]? with
  | none => rw [hs.view?_eq_none hg, hs.view?_eq_none (same ▸ hg)]
  | some group =>
    obtain ⟨store, -, hp⟩ := hs.getElem?_pairs hg
    rw [hs.view?_eq hp hg, hs.view?_eq hp (same ▸ hg)]

theorem view?_of_does (hs : IsGrouped acts s) (h : Does s a x s')
    (hg : (groups acts)[handle]? = some group) (hu : a.update? (groups acts) group = none) :
    s'.view? handle = s.view? handle := by
  obtain ⟨store, held, hp⟩ := hs.getElem?_pairs hg
  have there := (List.getElem?_eq_some_iff.mp held).1
  cases h with
  | @create _ start _ =>
    have same : (s.create start).held[handle]? = some store :=
      (List.getElem?_append_left there).trans held
    rw [view?, view?, same, held]
    exact congrArg some (Stores.snapshot_create_of_lt _ _ (hs.lt hp).1)
  | clone => rw [view?, view?, List.getElem?_append_left there]
  | @upsert other own hown now name desired reported =>
    have foreign : own ≠ store := by
      rintro rfl
      obtain ⟨its, hits, hq⟩ := hs.exists_group hown
      obtain rfl : its = group := (hs.same_iff hq hp).mp rfl
      simp [Act.update?, hits] at hu
    rw [view?, view?, held]
    exact congrArg some (Stores.snapshot_upsert_of_ne _ foreign.symm _ _ _ _)
  | get => rfl
  | snapshot => rfl

end IsGrouped

/-! ## Snapshots taken -/

theorem getElem?_taken_of_does (h : Does s a x s') {n : Nat} {p : Snapshot}
    (hp : s.taken[n]? = some p) : s'.taken[n]? = some p := by
  cases h with
  | snapshot => rw [List.getElem?_append_left (List.getElem?_eq_some_iff.mp hp).1, hp]
  | _ => exact hp

theorem getElem?_taken (h : run acts = some s) (hacts : acts = before ++ .snapshot handle :: after)
    (hr : run before = some r) :
    ∃ p, r.view? handle = some p ∧ s.taken[r.taken.length]? = some p := by
  induction after using List.reverseRecOn generalizing acts s with
  | nil =>
    obtain rfl := hacts
    obtain ⟨r', x, hr', ha⟩ := run_concat.mp h
    obtain rfl := Option.some.inj (hr.symm.trans hr')
    cases act_eq_some ha with
    | snapshot seen => exact ⟨_, seen, List.getElem?_concat_length⟩
  | append_singleton after a ih =>
    rw [← List.cons_append, ← List.append_assoc] at hacts
    obtain rfl := hacts
    obtain ⟨s, x, hs, ha⟩ := run_concat.mp h
    obtain ⟨p, seen, copy⟩ := ih hs rfl
    exact ⟨p, seen, getElem?_taken_of_does (act_eq_some ha) copy⟩

theorem exists_of_getElem?_taken (h : run acts = some s) {n : Nat} {p : Snapshot}
    (hp : s.taken[n]? = some p) : ∃ before handle after r,
    acts = before ++ .snapshot handle :: after ∧ run before = some r ∧ r.taken.length = n ∧
      r.view? handle = some p := by
  refine run_induction (P := fun acts s => s.taken[n]? = some p → ∃ before handle after r,
    acts = before ++ .snapshot handle :: after ∧ run before = some r ∧ r.taken.length = n ∧
      r.view? handle = some p) nofun (fun {acts s a x s'} hr ih step hp => ?_) h hp
  have earlier (hp : s.taken[n]? = some p) : ∃ before handle after r,
      acts ++ [a] = before ++ .snapshot handle :: after ∧ run before = some r ∧
        r.taken.length = n ∧ r.view? handle = some p := by
    obtain ⟨before, handle, after, r, rfl, rest⟩ := ih hp
    exact ⟨before, handle, after ++ [a], r, by simp, rest⟩
  cases step with
  | @snapshot handle q seen =>
    rcases Nat.lt_trichotomy n s.taken.length with old | rfl | beyond
    · exact earlier (List.getElem?_append_left old ▸ hp)
    · obtain rfl := Option.some.inj (List.getElem?_concat_length.symm.trans hp)
      exact ⟨acts, handle, [], s, rfl, hr, rfl, seen⟩
    · rw [List.getElem?_eq_none (by simpa using Nat.succ_le_of_lt beyond)] at hp
      cases hp
  | _ => exact earlier hp

/-! ## All together -/

/-- Handles that come from one store by cloning share its snapshot, and nothing else is shared. -/
theorem sharing_of_run (h : run acts = some s) : Sharing acts s := by
  have hs := isGrouped_of_run h
  exact
    { length_groups := hs.length_eq.symm
      views := hs.exists_views
      possible := fun a => hs.length_eq ▸ exists_act_iff
      alike := fun same => by
        have view := hs.view?_congr same
        exact ⟨view, fun name => view ▸ (Option.map_eq_bind ..).symm⟩
      frame := fun step => hs.view?_of_does (act_eq_some step)
      taken := getElem?_taken h
      taken_of := exists_of_getElem?_taken h }

/-- Two handles of one store, and two stores made from the same snapshot of it, which then go
separate ways. -/
def twoCopies : List Act :=
  [.create .empty, .clone 0, .upsert 1 ⟨10, 0⟩ "mode" "on" "1", .snapshot 0, .create (.taken 0),
    .create (.taken 0), .upsert 2 ⟨20, 0⟩ "mode" "off" "0", .upsert 0 ⟨30, 0⟩ "level" "" "7"]

theorem twoCopies_sharing : ∃ s, run twoCopies = some s ∧ Sharing twoCopies s ∧
    groups twoCopies = [0, 0, 2, 3] ∧ s.view? 3 = some ⟨[⟨"mode", "on", "1", ⟨10, 0⟩⟩]⟩ :=
  ⟨_, rfl, sharing_of_run rfl, rfl, rfl⟩

end GattSync.Status.Handles
