import GattSync.Status.Snapshot
import Mathlib.Data.List.Induction

/-!
# Snapshots and their updates

What a snapshot has become after any number of updates, read off the updates: the names that were
new to it are behind its own ones, each once, in the order of their first update
(`names_updated`); a property that was updated has the entry of its last update (`get?_updated`);
and all else is where and as it was (`getElem?_updated`), also an entry whose name another entry
before it bears. After updates of one property alone, that is all that has changed (`Replaces`).

An update is given as the entry that it puts in place.
-/

namespace GattSync.Status.Snapshot

/-- The snapshot after updates, one after the other. -/
def updated (s : Snapshot) (us : List Entry) : Snapshot :=
  us.foldl (fun s u => s.upsert u.updatedAt u.name u.desired u.reported) s

variable {s : Snapshot} {us : List Entry} {u : Entry} {name : String}

theorem updated_concat :
    s.updated (us ++ [u]) = (s.updated us).upsert u.updatedAt u.name u.desired u.reported :=
  List.foldl_append

theorem updated_append (s : Snapshot) (us vs : List Entry) :
    s.updated (us ++ vs) = (s.updated us).updated vs := List.foldl_append

/-! ## Names -/

theorem eraseDups_concat (names : List String) (name : String) :
    (names ++ [name]).eraseDups =
      if name ∈ names then names.eraseDups else names.eraseDups ++ [name] := by
  rw [List.eraseDups_append]
  split <;> rename_i h <;> simp [List.removeAll, List.eraseDups_cons, h]

theorem removeAll_concat (names old : List String) (name : String) :
    (names ++ [name]).removeAll old =
      if name ∈ old then names.removeAll old else names.removeAll old ++ [name] := by
  split <;> rename_i h <;> simp [List.removeAll, h]

/-- New names come behind the old ones, in the order of their first update. -/
theorem names_updated (s : Snapshot) (us : List Entry) :
    (s.updated us).names = s.names ++ ((us.map (·.name)).removeAll s.names).eraseDups := by
  induction us using List.reverseRecOn with
  | nil => simp [updated, List.removeAll]
  | append_singleton us u ih =>
    rw [updated_concat, names_upsert, ih, List.map_append, List.map_singleton, removeAll_concat]
    by_cases old : u.name ∈ s.names
    · simp [old]
    · have earlier : u.name ∈ (us.map (·.name)).removeAll s.names ↔ u.name ∈ us.map (·.name) := by
        simp [List.removeAll, old]
      rw [if_neg old, eraseDups_concat]
      by_cases seen : u.name ∈ us.map (·.name)
      · simp [earlier.mpr seen]
      · simp [old, mt earlier.mp seen]

theorem names_prefix_names_updated (s : Snapshot) (us : List Entry) :
    s.names <+: (s.updated us).names := by
  rw [names_updated]
  exact List.prefix_append _ _

/-! ## Entries -/

/-- An updated property has the entry of its last update. -/
theorem get?_updated (s : Snapshot) (us : List Entry) (name : String) :
    (s.updated us).get? name = (us.findRev? fun u => u.name == name).or (s.get? name) := by
  rw [List.findRev?_eq_find?_reverse]
  induction us using List.reverseRecOn with
  | nil => rfl
  | append_singleton us u ih =>
    rw [updated_concat, List.reverse_concat, List.find?_cons]
    by_cases h : u.name = name
    · subst h
      simp [get?_upsert_self]
    · simp [get?_upsert_of_ne _ _ h, beq_false_of_ne h, ih]

/-- An entry is not affected when an entry of another name is placed, nor when there is one of its
own name before it. -/
theorem getElem?_place {e f : Entry} {es : List Entry} {i : Nat} (h : es[i]? = some f)
    (kept : f.name ≠ e.name ∨ f.name ∈ (es.take i).map (·.name)) : (place e es)[i]? = some f := by
  induction es generalizing i with
  | nil => simp at h
  | cons g rest ih =>
    by_cases hg : g.name = e.name
    · rw [place, if_pos hg]
      cases i with
      | zero =>
        obtain rfl : g = f := by simpa using h
        exact absurd hg (by simpa using kept)
      | succ i => simpa using h
    · rw [place, if_neg hg]
      cases i with
      | zero => simpa using h
      | succ i =>
        refine ih (by simpa using h) ?_
        rcases kept with hne | hm
        · exact .inl hne
        · rw [List.take_succ_cons, List.map_cons, List.mem_cons] at hm
          rcases hm with hfg | hm
          · exact .inl (hfg ▸ hg)
          · exact .inr hm

/-- An entry stays where and as it is if its name is not updated, or if it is not the first one of
its name. -/
theorem getElem?_updated {i : Nat} {e : Entry} (h : s.entries[i]? = some e)
    (kept : e.name ∉ us.map (·.name) ∨ e.name ∈ s.names.take i) :
    (s.updated us).entries[i]? = some e := by
  induction us using List.reverseRecOn with
  | nil => exact h
  | append_singleton us u ih =>
    rw [updated_concat]
    rw [List.map_append, List.mem_append, not_or] at kept
    refine getElem?_place (ih (kept.imp_left (·.1))) ?_
    rcases kept with ⟨-, hne⟩ | hm
    · exact .inl (by simpa using hne)
    · refine .inr ?_
      obtain ⟨more, hp⟩ := names_prefix_names_updated s us
      have early : (s.updated us).names.take i = s.names.take i := by
        have hi : i ≤ s.names.length := by
          simpa [names] using Nat.le_of_lt (List.getElem?_eq_some_iff.mp h).1
        rw [← hp, List.take_append_of_le_length hi]
      rwa [List.map_take, ← names, early]

/-! ## Updates of one property -/

/-- The property of an entry has this entry, where it had one before or else behind all others, and
nothing else has changed. -/
structure Replaces (before : Snapshot) (e : Entry) (after : Snapshot) : Prop where
  get?_eq : after.get? e.name = some e
  names_eq : after.names =
    if e.name ∈ before.names then before.names else before.names ++ [e.name]
  /-- Also an entry of that name stays if it is not the first one. -/
  kept {i : Nat} {f : Entry} (h : before.entries[i]? = some f)
    (hk : f.name ≠ e.name ∨ f.name ∈ before.names.take i) : after.entries[i]? = some f

/-- However often one property is updated, its name is there once more at most. -/
theorem names_updated_concat {e : Entry} (h : ∀ u ∈ us, u.name = e.name) :
    (s.updated (us ++ [e])).names =
      if e.name ∈ s.names then s.names else s.names ++ [e.name] := by
  rw [updated_concat, names_upsert]
  induction us using List.reverseRecOn with
  | nil => rfl
  | append_singleton us u ih =>
    have same : u.name = e.name := h u (by simp)
    rw [updated_concat, names_upsert, same, ih fun v hv => h v (by simp [hv])]
    by_cases old : e.name ∈ s.names
    · simp [old]
    · simp [old]

/-- Of updates of one property, the last one counts. -/
theorem replaces_updated {e : Entry} (h : ∀ u ∈ us, u.name = e.name) :
    s.Replaces e (s.updated (us ++ [e])) := by
  refine ⟨?_, names_updated_concat h, fun hf hk => ?_⟩
  · rw [updated_concat]
    exact get?_upsert_self _ _ _ _ _
  · refine getElem?_updated hf (hk.imp_left ?_)
    intro other hn
    obtain ⟨u, hu, hname⟩ := List.mem_map.mp hn
    rcases List.mem_append.mp hu with earlier | last
    · exact other (hname ▸ h u earlier)
    · exact other (hname ▸ congrArg Entry.name (List.mem_singleton.mp last))

end GattSync.Status.Snapshot
