import GattSync.Proofs.Status.Updates
import Mathlib.Data.List.Basic
import Mathlib.Data.List.Nodup

/-!
# The outcome of updates

What a snapshot is after any number of updates, said without going through them one by one
(`Outcome`): which names it has and in which order, which entries are those of an update, and which
are as they were. Nothing is left open: only one snapshot answers the description, and updating
leads to it (`outcome_iff`).
-/

namespace GattSync.Status.Snapshot

variable {s t t' : Snapshot} {us before after : List Entry} {u e : Entry} {name : String} {i : Nat}

/-- What has become of a snapshot with updates, one after the other. -/
structure Outcome (s : Snapshot) (us : List Entry) (t : Snapshot) : Prop where
  /-- The names are those that were there, and behind them the new ones, each once, in the order of
  their first update. -/
  names_eq : t.names = s.names ++ ((us.map (·.name)).removeAll s.names).eraseDups
  /-- The first entry of a property that was updated is that of its last update, with the texts and
  the moment of it. -/
  updated {before after : List Entry} {u : Entry} (h : us = before ++ u :: after)
    (hn : u.name ∉ after.map (·.name)) : t.entries[t.names.idxOf u.name]? = some u
  /-- Every other entry is where and as it was, also one whose name an entry before it bears. -/
  kept {i : Nat} {e : Entry} (h : s.entries[i]? = some e)
    (hk : e.name ∉ us.map (·.name) ∨ e.name ∈ s.names.take i) : t.entries[i]? = some e
  /-- What is found for a name is the first entry that bears it. -/
  get?_eq (name : String) : t.get? name = t.entries[t.names.idxOf name]?
  size_eq : t.size = t.names.length
  isEmpty_iff : t.isEmpty = true ↔ t.names = []
  /-- No name is there twice if none was. -/
  nodup (h : s.names.Nodup) : t.names.Nodup

/-! ## Names -/

theorem nodup_eraseDups (names : List String) : names.eraseDups.Nodup := by
  induction names using List.reverseRecOn with
  | nil => exact List.nodup_nil
  | append_singleton names name ih =>
    rw [eraseDups_concat]
    split
    · exact ih
    · rename_i new
      rw [List.nodup_append_comm]
      exact List.nodup_cons.mpr ⟨mt List.mem_eraseDups.mp new, ih⟩

theorem nodup_names_updated (h : s.names.Nodup) : (s.updated us).names.Nodup := by
  rw [names_updated]
  refine List.nodup_append.mpr ⟨h, nodup_eraseDups _, ?_⟩
  rintro name old _ new rfl
  have fresh : name ∉ s.names := by
    simpa using (List.mem_filter.mp (List.mem_eraseDups.mp new)).2
  exact fresh old

/-- A name stands at a place for the first time, or there is one before. -/
theorem idxOf_eq_or_mem_take {names : List String} (h : names[i]? = some name) :
    names.idxOf name = i ∨ name ∈ names.take i := by
  have here : name ∈ names.take (i + 1) := by
    rw [List.take_add_one, h]
    simp
  have found : name ∈ names := List.mem_of_mem_take here
  rw [List.mem_take_iff_idxOf_lt found] at here ⊢
  omega

/-! ## Entries -/

/-- The entry of a property is the first one that bears its name. -/
theorem get?_eq_getElem? (s : Snapshot) (name : String) :
    s.get? name = s.entries[s.names.idxOf name]? := by
  obtain ⟨es⟩ := s
  induction es with
  | nil => rfl
  | cons e es ih =>
    by_cases h : e.name = name
    · simp [get?, names, h]
    · simp only [get?, names] at ih ⊢
      rw [List.find?_cons_of_neg (by simpa using h), ih, List.map_cons, List.idxOf_cons,
        beq_false_of_ne h]
      rfl

theorem exists_last_update (h : name ∈ us.map (·.name)) :
    ∃ before u after, us = before ++ u :: after ∧ u.name = name ∧ name ∉ after.map (·.name) := by
  induction us using List.reverseRecOn with
  | nil => cases h
  | append_singleton us v ih =>
    by_cases last : v.name = name
    · exact ⟨us, v, [], rfl, last, List.not_mem_nil⟩
    · rw [List.map_append, List.mem_append] at h
      obtain ⟨before, u, after, rfl, hu, hn⟩ := ih (h.resolve_right (by simp [Ne.symm last]))
      refine ⟨before, u, after ++ [v], by simp, hu, ?_⟩
      rw [List.map_append, List.mem_append]
      exact not_or.mpr ⟨hn, by simp [Ne.symm last]⟩

theorem get?_updated_of_last (h : us = before ++ u :: after) (hn : u.name ∉ after.map (·.name)) :
    (s.updated us).get? u.name = some u := by
  have later : after.reverse.find? (fun v => v.name == u.name) = none := by
    simpa using hn
  rw [get?_updated, List.findRev?_eq_find?_reverse, h, List.reverse_append, List.reverse_cons,
    List.append_assoc, List.find?_append, later]
  simp

theorem outcome_updated (s : Snapshot) (us : List Entry) : Outcome s us (s.updated us) where
  names_eq := names_updated s us
  updated h hn := by rw [← get?_eq_getElem?, get?_updated_of_last h hn]
  kept := getElem?_updated
  get?_eq := get?_eq_getElem? _
  size_eq := (List.length_map _).symm
  isEmpty_iff := by simp [isEmpty, names]
  nodup := nodup_names_updated

/-! ## There is one outcome -/

namespace Outcome

/-- Behind the names that were there, each one is of an update and there for the first time. -/
theorem idxOf_eq (h : Outcome s us t) (hi : s.names.length ≤ i) (hn : t.names[i]? = some name) :
    name ∈ us.map (·.name) ∧ t.names.idxOf name = i := by
  rw [h.names_eq, List.getElem?_append_right hi] at hn
  obtain ⟨lt, rfl⟩ := List.getElem?_eq_some_iff.mp hn
  have new := List.mem_filter.mp (List.mem_eraseDups.mp (List.getElem_mem lt))
  refine ⟨new.1, ?_⟩
  rw [h.names_eq, List.idxOf_append_of_notMem (by simpa using new.2),
    (nodup_eraseDups _).idxOf_getElem]
  omega

/-- An entry that is neither new nor the first one of an updated property is one that was there. -/
theorem eq_of_not_last (h : Outcome s us t) (he : t.entries[i]? = some e)
    (hl : ¬ (e.name ∈ us.map (·.name) ∧ t.names.idxOf e.name = i)) :
    s.entries[i]? = some e ∧ (e.name ∉ us.map (·.name) ∨ e.name ∈ s.names.take i) := by
  have named : t.names[i]? = some e.name := by simp [names, he]
  have old : i < s.names.length := Nat.lt_of_not_le fun new => hl (h.idxOf_eq new named)
  have untouched : e.name ∉ us.map (·.name) ∨ e.name ∈ s.names.take i := by
    rw [or_iff_not_imp_left, not_not]
    intro updated
    have again := (idxOf_eq_or_mem_take named).resolve_left fun place => hl ⟨updated, place⟩
    rwa [h.names_eq, List.take_append_of_le_length (Nat.le_of_lt old)] at again
  rw [h.names_eq, List.getElem?_append_left old, names, List.getElem?_map] at named
  obtain ⟨f, hf, hname⟩ := Option.map_eq_some_iff.mp named
  have here : t.entries[i]? = some f := h.kept hf (by rwa [hname])
  obtain rfl := Option.some.inj (he.symm.trans here)
  exact ⟨hf, untouched⟩

theorem getElem?_eq (h : Outcome s us t) (h' : Outcome s us t') (he : t.entries[i]? = some e) :
    t'.entries[i]? = some e := by
  by_cases last : e.name ∈ us.map (·.name) ∧ t.names.idxOf e.name = i
  · obtain ⟨updated, place⟩ := last
    have same : t'.names = t.names := h'.names_eq.trans h.names_eq.symm
    obtain ⟨before, u, after, hu, hname, hn⟩ := exists_last_update updated
    rw [← hname] at hn place
    have here := h.updated hu hn
    have there := h'.updated hu hn
    rw [place, he] at here
    rwa [same, place, ← here] at there
  · obtain ⟨was, untouched⟩ := h.eq_of_not_last he last
    exact h'.kept was untouched

theorem unique (h : Outcome s us t) (h' : Outcome s us t') : t = t' := by
  obtain ⟨es⟩ := t
  obtain ⟨es'⟩ := t'
  refine congrArg Snapshot.mk (List.ext_getElem? fun i => Option.ext fun e => ?_)
  exact ⟨h.getElem?_eq h', h'.getElem?_eq h⟩

end Outcome

/-- Whatever a snapshot holds, names that are there twice included, and whatever the updates are:
the snapshot after them is the one that answers the description of their outcome. -/
theorem outcome_iff (s : Snapshot) (us : List Entry) (t : Snapshot) :
    Outcome s us t ↔ t = s.updated us :=
  ⟨fun h => h.unique (outcome_updated s us), fun h => h ▸ outcome_updated s us⟩

end GattSync.Status.Snapshot
