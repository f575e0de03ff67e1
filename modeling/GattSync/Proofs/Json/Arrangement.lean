import GattSync.Proofs.Json.Records
import GattSync.Proofs.Spec.Respelling
import Mathlib.Data.Setoid.Basic

/-!
# Records in other arrangements

A record can be given in many ways. The members of its object come in any order, members with other
names can be among them, a field that is left out can be given its default, and the object can be
replaced by the array of its fields. All this goes on inside the fields, if they are records or are
made of records (`Rearranged`). None of it makes a difference to a decoder that takes each field by
itself (`Rearranged.bind_eq`).

A member that is given twice is refused, at whatever depth it stands (`Repeats.bind_eq_none`).
-/

namespace GattSync.Json

/-- A field of a record, and how it can be given. -/
structure Form where
  name : String
  /-- What a field that is left out stands for; none if it has to be given. -/
  default? : Option Json := none
  /-- Values that are the same in this field. -/
  alike : Json → Json → Prop := Eq
  /-- Values in which a member is given twice. -/
  repeats : Json → Prop := fun _ => False

/-- The names of the fields of a record. -/
def names (forms : List Form) : List String := forms.map (·.name)

/-- One step from one arrangement of a record to another. -/
inductive Rearrangement (forms : List Form) : Json → Json → Prop where
  /-- The members are put in another order. -/
  | order {ms ms' : List (Option String × Json)} (h : ms.Perm ms') :
    Rearrangement forms (.object ms) (.object ms')
  /-- A member that is no field is put somewhere. -/
  | unknown (before after : List (Option String × Json)) {name : String} (w : Json)
    (h : name ∉ names forms) :
    Rearrangement forms (.object (before ++ after)) (.object (before ++ member name w :: after))
  /-- A field that is left out is given its default. -/
  | default {ms : List (Option String × Json)} {f : Form} {d : Json} (hf : f ∈ forms)
    (hd : f.default? = some d) (left : ∀ m ∈ ms, m.1 ≠ some f.name) :
    Rearrangement forms (.object ms) (.object (member f.name d :: ms))
  /-- An object with all the fields is written as their array. -/
  | sequence {values : List Json} (h : values.length = forms.length) :
    Rearrangement forms (record (names forms) values) (.array values)
  /-- A member is replaced by one that is alike. -/
  | member (before after : List (Option String × Json)) {f : Form} {w w' : Json} (hf : f ∈ forms)
    (h : f.alike w w') :
    Rearrangement forms (.object (before ++ member f.name w :: after))
      (.object (before ++ member f.name w' :: after))
  /-- An item of an array is replaced by one that is alike. -/
  | item (before after : List Json) {f : Form} {w w' : Json}
    (place : forms[before.length]? = some f) (h : f.alike w w') :
    Rearrangement forms (.array (before ++ w :: after)) (.array (before ++ w' :: after))

/-- Arrangements of one record. -/
def Rearranged (forms : List Form) : Json → Json → Prop := Relation.EqvGen (Rearrangement forms)

/-- A field is given twice in the record, or in one of its fields. -/
inductive Repeats (forms : List Form) : Json → Prop where
  | twice {f : Form} (hf : f ∈ forms) (before between after : List (Option String × Json))
    (w w' : Json) :
    Repeats forms
      (.object (before ++ member f.name w :: (between ++ member f.name w' :: after)))
  | member {f : Form} (hf : f ∈ forms) (before after : List (Option String × Json)) {w : Json}
    (h : f.repeats w) : Repeats forms (.object (before ++ member f.name w :: after))
  | item (before after : List Json) {f : Form} {w : Json} (place : forms[before.length]? = some f)
    (h : f.repeats w) : Repeats forms (.array (before ++ w :: after))

/-- Arrays with items that are alike, one by one. -/
def ItemsAlike (R : Json → Json → Prop) (v v' : Json) : Prop :=
  ∃ vs vs', v = .array vs ∧ v' = .array vs' ∧ List.Forall₂ R vs vs'

/-- An array that has such an item. -/
def HasItem (P : Json → Prop) (v : Json) : Prop := ∃ vs, v = .array vs ∧ ∃ w ∈ vs, P w

/-- What a step does not change is not changed by any number of steps, back and forth. -/
theorem eq_of_eqvGen {β : Type} {r : Json → Json → Prop} {v v' : Json} (g : Json → β)
    (h : Relation.EqvGen r v v') (step : ∀ v v', r v v' → g v = g v') : g v = g v' :=
  Setoid.eqvGen_le (s := Setoid.ker g) step h

/-! ## Fields -/

variable {α : Type} {f : Form} {forms : List Form} {decode : Json → Option α} {d : α}
  {v v' w w' j : Json} {x y : Option Json} {xs ys : Fields} {k : Fields → Option α}
  {ms ms' : List (Option String × Json)} {name : String}

/-- What a field is given as, in two arrangements of a record. -/
inductive Form.Interchanges (f : Form) : Option Json → Option Json → Prop where
  | same (x : Option Json) : Interchanges f x x
  | default {d : Json} (h : f.default? = some d) : Interchanges f none (some d)
  | alike {w w' : Json} (h : f.alike w w') : Interchanges f (some w) (some w')

/-- All the fields of two arrangements of a record. -/
inductive Interchange : List Form → Fields → Fields → Prop where
  | nil : Interchange [] [] []
  | cons {f : Form} {forms : List Form} {x y : Option Json} {xs ys : Fields}
    (first : f.Interchanges x y) (rest : Interchange forms xs ys) :
    Interchange (f :: forms) (x :: xs) (y :: ys)

/-- A field has a member that is given twice. -/
inductive Faulty : List Form → Fields → Prop where
  | here {f : Form} {w : Json} (h : f.repeats w) (forms : List Form) (xs : Fields) :
    Faulty (f :: forms) (some w :: xs)
  | there {forms : List Form} {xs : Fields} (f : Form) (x : Option Json) (h : Faulty forms xs) :
    Faulty (f :: forms) (x :: xs)

theorem Form.Interchanges.required?_eq (h : f.Interchanges x y) (given : f.default? = none)
    (decoded : ∀ w w', f.alike w w' → decode w = decode w') :
    required? decode x = required? decode y := by
  cases h with
  | same => rfl
  | default h =>
    rw [given] at h
    cases h
  | alike h => exact decoded _ _ h

theorem Form.Interchanges.optional?_eq (h : f.Interchanges x y) (left : f.default? = some j)
    (default : decode j = some d) (decoded : ∀ w w', f.alike w w' → decode w = decode w') :
    optional? decode d x = optional? decode d y := by
  cases h with
  | same => rfl
  | default h =>
    obtain rfl := Option.some.inj (left.symm.trans h)
    exact default.symm
  | alike h => exact decoded _ _ h

theorem interchange_refl (length : xs.length = forms.length) : Interchange forms xs xs := by
  induction xs generalizing forms with
  | nil =>
    obtain rfl := List.length_eq_zero_iff.mp length.symm
    exact .nil
  | cons x xs ih =>
    cases forms with
    | nil => cases length
    | cons f forms => exact .cons (.same x) (ih (Nat.succ.inj length))

theorem interchange_append_cons (before after : Fields)
    (length : (before ++ x :: after).length = forms.length)
    (place : forms[before.length]? = some f) (h : f.Interchanges x y) :
    Interchange forms (before ++ x :: after) (before ++ y :: after) := by
  induction before generalizing forms with
  | nil =>
    cases forms with
    | nil => cases length
    | cons g forms =>
      obtain rfl := Option.some.inj place
      exact .cons h (interchange_refl (Nat.succ.inj length))
  | cons z before ih =>
    cases forms with
    | nil => cases length
    | cons g forms => exact .cons (.same z) (ih (Nat.succ.inj length) place)

/-- Fields that are found one by one. -/
theorem mapM_interchange {g g' : String → Option (Option Json)}
    (h : ∀ f ∈ forms, Option.Rel f.Interchanges (g f.name) (g' f.name)) :
    Option.Rel (Interchange forms) ((names forms).mapM g) ((names forms).mapM g') := by
  induction forms with
  | nil => exact .some .nil
  | cons f forms ih =>
    obtain ⟨first, rest⟩ := List.forall_mem_cons.mp h
    have rest := ih rest
    show Option.Rel _ ((f.name :: names forms).mapM g) ((f.name :: names forms).mapM g')
    rw [List.mapM_cons, List.mapM_cons]
    generalize g f.name = x, g' f.name = y at first
    generalize (names forms).mapM g = xs, (names forms).mapM g' = ys at rest
    cases first with
    | none => exact .none
    | some first =>
      cases rest with
      | none => exact .none
      | some rest => exact .some (.cons first rest)

/-! ## Objects -/

theorem field?_perm (h : ms.Perm ms') (name : String) : field? ms name = field? ms' name := by
  have found := h.filter fun m => m.1 == some name
  have length := found.length_eq
  unfold field?
  generalize ms.filter (fun m => m.1 == some name) = given at found length
  generalize ms'.filter (fun m => m.1 == some name) = given' at found length
  rcases given with _ | ⟨m, _ | ⟨n, given⟩⟩
  · rw [found.nil_eq]
  · rw [List.singleton_perm.mp found]
  · -- Both are given more than once, whatever stands first.
    rcases given' with _ | ⟨m', _ | ⟨n', given'⟩⟩
    · cases length
    · cases length
    · rfl

theorem field?_of_left (left : ∀ m ∈ ms, m.1 ≠ some name) : field? ms name = some none := by
  rw [field?, List.filter_eq_nil_iff.mpr]
  rintro ⟨key, w⟩ hm
  simpa using left _ hm

theorem field?_cons_self (left : ∀ m ∈ ms, m.1 ≠ some name) :
    field? (member name w :: ms) name = some (some w) := by
  have given : field? ([] ++ member name w :: ms) name = some (some w) :=
    field?_append_cons nofun left
  exact given

theorem field?_cons_of_ne {other : String} (h : other ≠ name) :
    field? (member name w :: ms) other = field? ms other := by
  have given : field? ([] ++ member name w :: ms) other = field? ([] ++ ms) other := field?_of_ne h
  exact given

theorem field?_of_twice (before between after : List (Option String × Json)) (name : String)
    (w w' : Json) :
    field? (before ++ member name w :: (between ++ member name w' :: after)) name = none := by
  simp only [field?, member, List.filter_append, List.filter_cons, beq_self_eq_true, if_true]
  generalize before.filter (fun m => m.1 == some name) = front
  generalize between.filter (fun m => m.1 == some name) = middle
  rcases front with _ | ⟨_, _ | _⟩
  · cases middle <;> rfl
  · rfl
  · rfl

theorem Form.rel_refl (f : Form) (o : Option (Option Json)) : Option.Rel f.Interchanges o o := by
  cases o with
  | none => exact .none
  | some x => exact .some (.same x)

theorem rel_of_forall_field? (keys : (ms.all fun m => m.1.isSome) = ms'.all fun m => m.1.isSome)
    (h : ∀ f ∈ forms, Option.Rel f.Interchanges (field? ms f.name) (field? ms' f.name)) :
    Option.Rel (Interchange forms) (asFields? (names forms) (.object ms))
      (asFields? (names forms) (.object ms')) := by
  rw [asFields?_object, asFields?_object, keys]
  split
  · exact mapM_interchange h
  · exact .none

theorem mem_names (hf : f ∈ forms) : f.name ∈ names forms := List.mem_map_of_mem hf

theorem names_length : (names forms).length = forms.length := List.length_map _

theorem asFields?_array (forms : List Form) (items : List Json) :
    asFields? (names forms) (.array items) =
      if items.length ≤ forms.length then
        some (items.map some ++ List.replicate (forms.length - items.length) none)
      else none := by
  rw [asFields?, names_length]

/-- Each field is found alike in two arrangements. -/
theorem Rearrangement.rel (nodup : (names forms).Nodup) (h : Rearrangement forms v v') :
    Option.Rel (Interchange forms) (asFields? (names forms) v) (asFields? (names forms) v') := by
  -- A step is about one member at most, and so about one field: its name is no other field's.
  cases h with
  | order h =>
    refine rel_of_forall_field? h.all_eq fun f _ => ?_
    rw [field?_perm h]
    exact f.rel_refl _
  | @unknown before after name w h =>
    refine rel_of_forall_field? (by simp [Json.member]) fun f hf => ?_
    have other : f.name ≠ name := fun eq => h (eq ▸ mem_names hf)
    rw [field?_of_ne other]
    exact f.rel_refl _
  | @default ms f d hf hd left =>
    refine rel_of_forall_field? (by simp [Json.member]) fun g hg => ?_
    by_cases same : g.name = f.name
    · obtain rfl : g = f := List.inj_on_of_nodup_map nodup hg hf same
      rw [field?_of_left left, field?_cons_self left]
      exact .some (.default hd)
    · rw [field?_cons_of_ne same]
      exact g.rel_refl _
  | @sequence values h =>
    rw [asFields?_record nodup (names_length.trans h.symm), asFields?_array, if_pos h.le, h,
      Nat.sub_self, List.replicate_zero, List.append_nil]
    exact .some (interchange_refl ((List.length_map _).trans h))
  | @member before after f w w' hf h =>
    refine rel_of_forall_field? (by simp [Json.member]) fun g hg => ?_
    by_cases same : g.name = f.name
    · obtain rfl : g = f := List.inj_on_of_nodup_map nodup hg hf same
      rcases field?_member before after g.name with once | twice
      · rw [once, once]
        exact .some (.alike h)
      · rw [twice, twice]
        exact .none
    · rw [field?_of_ne same, field?_of_ne same]
      exact g.rel_refl _
  | @item before after f w w' place h =>
    rw [asFields?_array, asFields?_array]
    simp only [List.length_append, List.length_cons, List.map_append, List.map_cons,
      List.append_assoc, List.cons_append]
    split
    · case isTrue short =>
      refine .some (interchange_append_cons _ _ ?_ ?_ (.alike h))
      · simp only [List.length_append, List.length_cons, List.length_map, List.length_replicate]
        omega
      · rwa [List.length_map]
    · exact .none

/-- Arrangements of a record are decoded alike if every field is. -/
theorem Rearranged.bind_eq (h : Rearranged forms v v') (nodup : (names forms).Nodup)
    (fields : ∀ xs ys, Interchange forms xs ys → k xs = k ys) :
    asFields? (names forms) v >>= k = asFields? (names forms) v' >>= k := by
  refine eq_of_eqvGen (fun v => asFields? (names forms) v >>= k) h fun v v' step => ?_
  have same := step.rel nodup
  generalize asFields? (names forms) v = o, asFields? (names forms) v' = o' at same
  cases same with
  | none => rfl
  | some same => exact fields _ _ same

theorem ItemsAlike.asList?_eq {R : Json → Json → Prop} (h : ItemsAlike R v v')
    (decoded : ∀ w w', R w w' → decode w = decode w') : asList? decode v = asList? decode v' := by
  obtain ⟨vs, vs', rfl, rfl, items⟩ := h
  exact mapM_congr (items.imp decoded)

/-! ## Members given twice -/

theorem mapM_eq_none {β : Type} {read : β → Option α} {b : β} {bs : List β} (mem : b ∈ bs)
    (h : read b = none) : bs.mapM read = none := by
  induction bs with
  | nil => cases mem
  | cons c bs ih =>
    rw [List.mapM_cons]
    rcases List.mem_cons.mp mem with rfl | mem
    · rw [h]
      rfl
    · rw [ih mem]
      cases read c <;> rfl

theorem HasItem.asList?_eq_none {P : Json → Prop} (h : HasItem P v)
    (refused : ∀ w, P w → decode w = none) : asList? decode v = none := by
  obtain ⟨vs, rfl, w, mem, hw⟩ := h
  exact mapM_eq_none mem (refused w hw)

theorem faulty_of_mapM {g : String → Option (Option Json)} (hf : f ∈ forms)
    (given : g f.name = some (some w)) (h : f.repeats w) (hx : (names forms).mapM g = some xs) :
    Faulty forms xs := by
  induction forms generalizing xs with
  | nil => cases hf
  | cons e forms ih =>
    have found : (e.name :: names forms).mapM g = some xs := hx
    rw [List.mapM_cons] at found
    obtain ⟨x, first, found⟩ := Option.bind_eq_some_iff.mp found
    obtain ⟨rest, others, found⟩ := Option.bind_eq_some_iff.mp found
    obtain rfl := Option.some.inj found
    rcases List.mem_cons.mp hf with rfl | hf
    · obtain rfl := Option.some.inj (given.symm.trans first)
      exact .here h forms rest
    · exact .there e x (ih hf others)

theorem faulty_append_cons (before after : Fields) (place : forms[before.length]? = some f)
    (h : f.repeats w) : Faulty forms (before ++ some w :: after) := by
  induction before generalizing forms with
  | nil =>
    cases forms with
    | nil => cases place
    | cons e forms =>
      obtain rfl := Option.some.inj place
      exact .here h forms after
  | cons x before ih =>
    cases forms with
    | nil => cases place
    | cons e forms => exact .there e x (ih place)

/-- A record with a member that is given twice is refused if such a field is. -/
theorem Repeats.bind_eq_none (h : Repeats forms v) (fields : ∀ xs, Faulty forms xs → k xs = none) :
    asFields? (names forms) v >>= k = none := by
  have refused (g : String → Option (Option Json))
      (faulty : ∀ xs, (names forms).mapM g = some xs → Faulty forms xs) :
      (names forms).mapM g >>= k = none := by
    cases found : (names forms).mapM g with
    | none => rfl
    | some xs => exact fields xs (faulty xs found)
  cases h with
  | @twice f hf before between after w w' =>
    rw [asFields?_object]
    split
    · rw [mapM_eq_none (mem_names hf) (field?_of_twice before between after f.name w w')]
      rfl
    · rfl
  | @member f hf before after w h =>
    rw [asFields?_object]
    split
    · rcases field?_member before after f.name with once | twice
      · exact refused _ fun xs => faulty_of_mapM hf (once w) h
      · rw [mapM_eq_none (mem_names hf) (twice w)]
        rfl
    · rfl
  | @item before after f w place h =>
    rw [asFields?_array]
    split
    · rw [List.map_append, List.append_assoc]
      exact fields _ (faulty_append_cons _ _ (by rwa [List.length_map]) h)
    · rfl

end GattSync.Json
