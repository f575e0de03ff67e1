import GattSync.Platform.Attribute

/-!
# Sets in ascending order

The elements of a list in ascending order are those of the list (`mem_ascending`), each one less
than all behind it (`isAscending_ascending`). So a search in them that asks for a property finds the
least element that has it (`isLeast_of_find?`). The order of UUIDs and that of characteristics tell
apart what is different.
-/

namespace GattSync.Platform

open Std

section Sets

variable {α : Type} [Ord α] {a b : α} {l : List α}

/-- Every element is less than those behind it. -/
def IsAscending (l : List α) : Prop := l.Pairwise fun a b => compare a b = .lt

/-- The element has the property, and no other one of the list that has it is less. -/
structure IsLeast (l : List α) (p : α → Bool) (a : α) : Prop where
  mem : a ∈ l
  has : p a
  le {b : α} (hm : b ∈ l) (hb : p b) : (compare a b).isLE

theorem mem_insertAscending [LawfulEqOrd α] : b ∈ insertAscending a l ↔ b = a ∨ b ∈ l := by
  induction l with
  | nil => simp [insertAscending]
  | cons c rest ih =>
    unfold insertAscending
    cases hc : compare a c with
    | lt => simp
    | eq =>
      obtain rfl := LawfulEqOrd.eq_of_compare hc
      simp
    | gt =>
      simp only [List.mem_cons, ih]
      exact or_left_comm

theorem IsAscending.insertAscending [TransOrd α] [LawfulEqOrd α] (h : IsAscending l) (a : α) :
    IsAscending (insertAscending a l) := by
  induction l with
  | nil => simp [Platform.insertAscending, IsAscending]
  | cons c rest ih =>
    obtain ⟨first, later⟩ := List.pairwise_cons.mp h
    unfold Platform.insertAscending
    cases hc : compare a c with
    | lt =>
      refine List.pairwise_cons.mpr ⟨fun b hb => ?_, h⟩
      rcases List.mem_cons.mp hb with rfl | hb
      · exact hc
      · exact TransCmp.lt_trans hc (first b hb)
    | eq => exact h
    | gt =>
      refine List.pairwise_cons.mpr ⟨fun b hb => ?_, ih later⟩
      rcases mem_insertAscending.mp hb with rfl | hb
      · exact OrientedCmp.lt_of_gt hc
      · exact first b hb

theorem isAscending_ascending [TransOrd α] [LawfulEqOrd α] (l : List α) :
    IsAscending (ascending l) := by
  have folded : ∀ set : List α, IsAscending set →
      IsAscending (l.foldl (fun set a => Platform.insertAscending a set) set) := by
    induction l with
    | nil => exact fun _ h => h
    | cons a rest ih => exact fun set h => ih _ (h.insertAscending a)
  exact folded [] .nil

theorem mem_ascending [LawfulEqOrd α] : b ∈ ascending l ↔ b ∈ l := by
  have folded : ∀ set : List α,
      b ∈ l.foldl (fun set a => Platform.insertAscending a set) set ↔ b ∈ l ∨ b ∈ set := by
    induction l with
    | nil => simp
    | cons a rest ih =>
      intro set
      rw [List.foldl_cons, ih, mem_insertAscending, List.mem_cons]
      exact or_left_comm.trans or_assoc.symm
  exact (folded []).trans (by simp)

/-- A search finds the least element that has the property. -/
theorem isLeast_of_find? [TransOrd α] [LawfulEqOrd α] {p : α → Bool}
    (h : (ascending l).find? p = some a) : IsLeast l p a := by
  obtain ⟨has, before, after, split, earlier⟩ := List.find?_eq_some_iff_append.mp h
  have sorted := isAscending_ascending l
  rw [split] at sorted
  obtain ⟨least, -⟩ := List.pairwise_cons.mp (List.pairwise_append.mp sorted).2.1
  refine ⟨mem_ascending.mp (List.mem_of_find?_eq_some h), has, fun {b} hm hb => ?_⟩
  have place : b ∈ before ++ a :: after := split ▸ mem_ascending.mpr hm
  rcases List.mem_append.mp place with early | late
  · exact absurd hb (by simpa using earlier b early)
  · rcases List.mem_cons.mp late with rfl | late
    · simp
    · rw [least b late]
      rfl

/-- There is only one least element. -/
theorem IsLeast.eq [TransOrd α] [LawfulEqOrd α] {p : α → Bool} (ha : IsLeast l p a)
    (hb : IsLeast l p b) : a = b :=
  LawfulEqOrd.eq_of_compare
    (OrientedCmp.isLE_antisymm (ha.le hb.mem hb.has) (hb.le ha.mem ha.has))

theorem find?_ascending_eq_none [LawfulEqOrd α] {p : α → Bool} :
    (ascending l).find? p = none ↔ ∀ b ∈ l, ¬ p b := by
  simp [List.find?_eq_none, mem_ascending]

end Sets

/-! ## The order of attributes -/

instance : TransOrd Uuid := inferInstanceAs (TransCmp (compareOn fun u : Uuid => u.bits.toNat))

instance : LawfulEqOrd Uuid where
  eq_of_compare {a b} h := by
    have same : a.bits.toNat = b.bits.toNat := LawfulEqOrd.eq_of_compare h
    cases a
    cases b
    exact congrArg _ (BitVec.eq_of_toNat_eq same)

instance : TransOrd Characteristic :=
  inferInstanceAs (TransCmp (compareLex (compareOn fun c : Characteristic => c.uuid)
    (compareLex (compareOn fun c => c.service)
      (compareLex (compareOn fun c => c.properties.toNat)
        (compareOn fun c => c.descriptors)))))

instance : LawfulEqOrd Characteristic where
  eq_of_compare {a b} h := by
    obtain ⟨uuid, h⟩ := Ordering.then_eq_eq.mp h
    obtain ⟨service, h⟩ := Ordering.then_eq_eq.mp h
    obtain ⟨bits, descriptors⟩ := Ordering.then_eq_eq.mp h
    have uuid : a.uuid = b.uuid := LawfulEqOrd.eq_of_compare uuid
    have service : a.service = b.service := LawfulEqOrd.eq_of_compare service
    have properties : a.properties = b.properties :=
      UInt8.toNat_inj.mp (LawfulEqOrd.eq_of_compare bits)
    have descriptors : a.descriptors = b.descriptors := LawfulEqCmp.eq_of_compare descriptors
    obtain ⟨⟨_, _, _⟩, _⟩ := a
    obtain ⟨⟨_, _, _⟩, _⟩ := b
    cases uuid
    cases service
    cases properties
    cases descriptors
    rfl

end GattSync.Platform
