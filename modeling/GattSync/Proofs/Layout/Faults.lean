import GattSync.Proofs.Decimal.Zero
import GattSync.Proofs.Layout.Fields

/-!
# Faults of layouts

When a payload is not converted, and why (`conversion`). A payload has to reach to the last octet of
the field, the field has to fit in a word, and no operation may divide by a zero of either sign;
otherwise the payload is refused, for the first of these reasons that there is.

The computation is carried out in words of 64 bits, in which not every step can be taken: a sum may
be no word, a range may not lie in the payload, bits may be shifted out. In the order in which a
layout is checked and read, every step can be taken (`inWords?_eq`). It depends on the order: the
width of a layout need not be a word, but is one if its indices lie in a payload
(`exists_width_eq`).
-/

namespace GattSync

/-! ## Operations -/

/-- The operation divides by a zero of either sign. -/
def Operation.DividesByZero (op : Operation) : Prop :=
  op.kind = .divide ∧ (op.operand = 0.0 ∨ op.operand = -0.0)

theorem Operation.apply_of_dividesByZero {op : Operation} (h : op.DividesByZero) (x : Float) :
    op.apply x = .error .divisionByZero := by
  obtain ⟨kind, zero⟩ := h
  rw [Operation.apply, kind]
  exact if_pos (Decimal.beq_zero_iff.mpr zero)

theorem Operation.exists_apply_eq {op : Operation} (h : ¬ op.DividesByZero) (x : Float) :
    ∃ y, op.apply x = .ok y := by
  unfold Operation.apply
  split
  case h_4 kind =>
    refine ⟨_, if_neg fun zero => ?_⟩
    exact h ⟨kind, Decimal.beq_zero_iff.mp zero⟩
  all_goals exact ⟨_, rfl⟩

namespace Layout

variable {l : Layout} {payload octets : Bytes} {ops : List Operation}

/-- Operations fail if one of them divides by zero, wherever it stands. -/
theorem foldlM_of_dividesByZero (h : ∃ op ∈ ops, op.DividesByZero) (x : Float) :
    ops.foldlM (fun x op => Operation.apply op x) x = .error .divisionByZero := by
  induction ops generalizing x with
  | nil =>
    obtain ⟨op, mem, -⟩ := h
    cases mem
  | cons op ops ih =>
    rw [List.foldlM_cons]
    by_cases zero : op.DividesByZero
    · rw [op.apply_of_dividesByZero zero]
      rfl
    · obtain ⟨y, applied⟩ := op.exists_apply_eq zero x
      obtain ⟨other, mem, divides⟩ := h
      have later : other ∈ ops := by
        rcases List.mem_cons.mp mem with rfl | later
        · exact absurd divides zero
        · exact later
      rw [applied]
      exact ih ⟨other, later, divides⟩ y

theorem exists_foldlM_eq (h : ∀ op ∈ ops, ¬ op.DividesByZero) (x : Float) :
    ∃ y, ops.foldlM (fun x op => Operation.apply op x) x = .ok y := by
  induction ops generalizing x with
  | nil => exact ⟨x, rfl⟩
  | cons op ops ih =>
    obtain ⟨first, rest⟩ := List.forall_mem_cons.mp h
    obtain ⟨y, applied⟩ := op.exists_apply_eq first x
    rw [List.foldlM_cons, applied]
    exact ih rest y

/-! ## Faults and errors -/

/-- The fault as an error of the data received. -/
def Fault.error (fault : Fault) : Error := .invalidData fault.message

theorem convert_of_fault {fault : Fault} (h : l.field payload = .error fault) :
    l.convert payload = .error fault.error := by
  rw [convert, reading, h]
  rfl

/-- Every fault is an error of the data received. -/
theorem exists_fault_of_convert {e : Error} (h : l.convert payload = .error e) :
    ∃ fault : Fault, e = .invalidData fault.message := by
  rw [convert] at h
  cases read : l.reading payload with
  | error fault =>
    rw [read] at h
    exact ⟨fault, (Except.error.inj h).symm⟩
  | ok x =>
    rw [read] at h
    cases h

theorem operated_of_dividesByZero (h : ∃ op ∈ l.operations, op.DividesByZero) (x : Float) :
    l.operated x = .error Fault.divisionByZero.error := by
  rw [operated, foldlM_of_dividesByZero h]
  rfl

theorem exists_operated_eq (h : ∀ op ∈ l.operations, ¬ op.DividesByZero) (x : Float) :
    ∃ y, l.operated x = .ok y := by
  obtain ⟨y, applied⟩ := exists_foldlM_eq h x
  exact ⟨y, by rw [operated, applied]; rfl⟩

/-! ## The computation in words -/

/-- A sum, if it is a word. -/
def add? (a b : UInt64) : Option UInt64 :=
  if a.toNat + b.toNat < 2 ^ 64 then some (a + b) else none

/-- How far two words are apart. -/
def distance (a b : UInt64) : UInt64 := if a ≤ b then b - a else a - b

/-- The octets from the first index through the last, if the index behind the last one is a word, is
not before the first one, and is not beyond the end of the payload. -/
def slice? (payload : Bytes) (first last : UInt64) : Option Bytes := do
  let stop ← add? last 1
  if first ≤ stop ∧ stop.toNat ≤ payload.length then
    some ((payload.drop first.toNat).take (stop - first).toNat)
  else none

/-- The octets of the field, in reading order. -/
def taken? (l : Layout) (payload : Bytes) : Option Bytes :=
  if l.start ≤ l.stop then slice? payload l.start l.stop
  else (slice? payload l.stop l.start).map List.reverse

/-- A number with one more octet behind it, if no bit of it is shifted out. -/
def assemble? (n : UInt64) (b : UInt8) : Option UInt64 :=
  if n.toNat < 2 ^ 56 then some (n <<< 8 ||| b.toUInt64) else none

/-- A number shifted to the left, if there are as many places. -/
def shiftLeft? (n : UInt64) (places : UInt32) : Option UInt64 :=
  if places < 64 then some (n <<< places.toUInt64) else none

/-- A number shifted to the right, if there are as many places. -/
def shiftRight? (n : UInt64) (places : UInt32) : Option UInt64 :=
  if places < 64 then some (n >>> places.toUInt64) else none

/-- The number after its shift; zero if there are not as many places. -/
def shiftInWords (l : Layout) (n : UInt64) : UInt64 :=
  if l.shiftLeft ≠ 0 then (shiftLeft? n l.shiftLeft).getD 0
  else if l.shiftRight ≠ 0 then (shiftRight? n l.shiftRight).getD 0
  else n

/-- The conversion of a payload as it is computed in words, step by step; none if there is a step
that cannot be taken. -/
def inWords? (l : Layout) (payload : Bytes) : Option (Except Error Float) :=
  let last := if l.start ≤ l.stop then l.stop else l.start
  if payload.length ≤ last.toNat then
    some (.error (Fault.outOfRange last.toNat payload.length).error)
  else do
    let width ← add? (distance l.start l.stop) 1
    if 8 < width then some (.error (Fault.tooWide width.toNat).error)
    else
      let taken ← l.taken? payload
      let n ← taken.foldlM assemble? 0
      some (l.operated (l.shiftInWords n).toFloat)

theorem exists_add?_eq {a b : UInt64} (h : a.toNat + b.toNat < 2 ^ 64) :
    ∃ c, add? a b = some c ∧ c.toNat = a.toNat + b.toNat := by
  refine ⟨a + b, if_pos h, ?_⟩
  rw [UInt64.toNat_add, Nat.mod_eq_of_lt h]

theorem toNat_distance (a b : UInt64) :
    (distance a b).toNat = max a.toNat b.toNat - min a.toNat b.toNat := by
  unfold distance
  split
  · rename_i le
    rw [UInt64.toNat_sub_of_le _ _ le]
    have order := UInt64.le_iff_toNat_le.mp le
    omega
  · rename_i gt
    have le : b ≤ a := UInt64.le_of_lt (UInt64.not_le.mp gt)
    rw [UInt64.toNat_sub_of_le _ _ le]
    have order := UInt64.le_iff_toNat_le.mp le
    omega

/-- The width of a layout whose indices lie in a payload is a word. -/
theorem exists_width_eq (inside : l.last < 2 ^ 64 - 1) :
    ∃ width, add? (distance l.start l.stop) 1 = some width ∧ width.toNat = l.width := by
  have apart := toNat_distance l.start l.stop
  have room : (distance l.start l.stop).toNat + (1 : UInt64).toNat < 2 ^ 64 := by
    show _ + 1 < 2 ^ 64
    unfold last at inside
    omega
  obtain ⟨width, sum, number⟩ := exists_add?_eq room
  exact ⟨width, sum, by rw [number, apart]; rfl⟩

example : add? (distance 0 0xffffffffffffffff) 1 = none := by decide

theorem slice?_eq {first last : UInt64} (order : first ≤ last)
    (inside : last.toNat < payload.length) (h : payload.length < 2 ^ 64) :
    slice? payload first last =
      some ((payload.drop first.toNat).take (last.toNat - first.toNat + 1)) := by
  have order' := UInt64.le_iff_toNat_le.mp order
  have room : last.toNat + (1 : UInt64).toNat < 2 ^ 64 := by
    show _ + 1 < 2 ^ 64
    omega
  obtain ⟨stop, sum, number⟩ := exists_add?_eq room
  have number : stop.toNat = last.toNat + 1 := number
  have before : first ≤ stop := UInt64.le_iff_toNat_le.mpr (by omega)
  rw [slice?, sum]
  show (if first ≤ stop ∧ stop.toNat ≤ payload.length then _ else none) = _
  rw [if_pos ⟨before, by omega⟩, UInt64.toNat_sub_of_le _ _ before, number,
    Nat.succ_sub order']

/-- No bit is shifted out of a number of up to eight octets while it is put together. -/
theorem foldlM_assemble? (h : octets.length ≤ maxWidth) :
    octets.foldlM assemble? 0 = some (bigEndian octets) := by
  induction octets using List.reverseRecOn with
  | nil => rfl
  | append_singleton octets b ih =>
    rw [List.length_append, List.length_singleton] at h
    have room : (bigEndian octets).toNat < 2 ^ 56 := by
      rw [toNat_bigEndian (Nat.le_of_succ_le h)]
      exact numberOf_lt (w := 7) (Nat.le_of_succ_le_succ h)
    rw [List.foldlM_append, ih (Nat.le_of_succ_le h), bigEndian_concat]
    exact congrArg (Option.bind · some) (if_pos room)

theorem shiftInWords_eq (l : Layout) (n : UInt64) : l.shiftInWords n = l.shift n := by
  unfold shiftInWords shift shiftLeft? shiftRight?
  split
  · split <;> rfl
  · split
    · split <;> rfl
    · rename_i none
      rw [not_not.mp none]
      exact (UInt64.shiftRight_zero).symm

theorem taken?_eq (inside : l.last < payload.length) (h : payload.length < 2 ^ 64) :
    l.taken? payload = some (l.octets payload) := by
  unfold taken? octets
  by_cases forwards : l.start ≤ l.stop
  · have order := UInt64.le_iff_toNat_le.mp forwards
    have first : min l.start.toNat l.stop.toNat = l.start.toNat := Nat.min_eq_left order
    have final : l.last = l.stop.toNat := Nat.max_eq_right order
    have width : l.width = l.stop.toNat - l.start.toNat + 1 := by
      unfold width
      omega
    simp only [if_pos forwards, first, width, slice?_eq forwards (final ▸ inside) h]
  · have backwards : l.stop ≤ l.start := UInt64.le_of_lt (UInt64.not_le.mp forwards)
    have order := UInt64.le_iff_toNat_le.mp backwards
    have first : min l.start.toNat l.stop.toNat = l.stop.toNat := Nat.min_eq_right order
    have final : l.last = l.start.toNat := Nat.max_eq_left order
    have width : l.width = l.start.toNat - l.stop.toNat + 1 := by
      unfold width
      omega
    simp only [if_neg forwards, first, width, slice?_eq backwards (final ▸ inside) h,
      Option.map_some]

theorem length_octets_le (payload : Bytes) : (l.octets payload).length ≤ l.width := by
  unfold octets
  split
  · exact List.length_take_le _ _
  · rw [List.length_reverse]
    exact List.length_take_le _ _

/-- Every step of a conversion can be taken in words. -/
theorem inWords?_eq (h : payload.length < 2 ^ 64) :
    l.inWords? payload = some (l.convert payload) := by
  have last_eq : (if l.start ≤ l.stop then l.stop else l.start).toNat = l.last := by
    unfold last
    split
    · rename_i le
      have order := UInt64.le_iff_toNat_le.mp le
      omega
    · rename_i gt
      have order := UInt64.lt_iff_toNat_lt.mp (UInt64.not_le.mp gt)
      omega
  rw [inWords?, last_eq]
  by_cases outside : payload.length ≤ l.last
  · rw [if_pos outside, convert_of_fault (field_of_outside outside)]
  have inside := Nat.lt_of_not_le outside
  obtain ⟨width, sum, number⟩ := exists_width_eq (l := l) (by omega)
  rw [if_neg outside, sum]
  show (if 8 < width then _ else _) = _
  have limit : 8 < width ↔ maxWidth < l.width := number ▸ UInt64.lt_iff_toNat_lt
  by_cases wide : maxWidth < l.width
  · rw [if_pos (limit.mpr wide), number, convert_of_fault (field_of_wide inside wide)]
  have narrow := Nat.le_of_not_lt wide
  have short : (l.octets payload).length ≤ maxWidth :=
    Nat.le_trans (length_octets_le payload) narrow
  rw [if_neg (mt limit.mp wide), taken?_eq inside h, convert_of_field (field_of_fits inside narrow)]
  show (List.foldlM assemble? 0 (l.octets payload)).bind _ = _
  rw [foldlM_assemble? short]
  exact congrArg (fun n => some (l.operated n.toFloat)) (l.shiftInWords_eq _)

/-! ## Conversion -/

/-- How a payload is converted by a layout. -/
structure Conversion (l : Layout) (payload : Bytes) : Prop where
  /-- In words, it is computed without a step that cannot be taken, if the length is a word. -/
  computed : payload.length < 2 ^ 64 → l.inWords? payload = some (l.convert payload)
  fails_iff : (∃ e, l.convert payload = .error e) ↔
    payload.length ≤ l.last ∨ maxWidth < l.width ∨ ∃ op ∈ l.operations, op.DividesByZero
  invalid {e : Error} : l.convert payload = .error e →
    ∃ fault : Fault, e = .invalidData fault.message
  /-- An index outside of the payload is named whatever else is wrong. -/
  outside : payload.length ≤ l.last →
    l.convert payload = .error (Fault.outOfRange l.last payload.length).error
  wide : l.last < payload.length → maxWidth < l.width →
    l.convert payload = .error (Fault.tooWide l.width).error
  divides : l.last < payload.length → l.width ≤ maxWidth →
    (∃ op ∈ l.operations, op.DividesByZero) → l.convert payload = .error Fault.divisionByZero.error

/-- A payload is refused for the first fault there is, or it is converted. -/
theorem convert_cases (l : Layout) (payload : Bytes) :
    (payload.length ≤ l.last ∧
      l.convert payload = .error (Fault.outOfRange l.last payload.length).error) ∨
    (l.last < payload.length ∧ maxWidth < l.width ∧
      l.convert payload = .error (Fault.tooWide l.width).error) ∨
    (l.last < payload.length ∧ l.width ≤ maxWidth ∧ (∃ op ∈ l.operations, op.DividesByZero) ∧
      l.convert payload = .error Fault.divisionByZero.error) ∨
    (l.last < payload.length ∧ l.width ≤ maxWidth ∧ (∀ op ∈ l.operations, ¬ op.DividesByZero) ∧
      ∃ x, l.convert payload = .ok x) := by
  by_cases outside : payload.length ≤ l.last
  · exact .inl ⟨outside, convert_of_fault (field_of_outside outside)⟩
  have inside := Nat.lt_of_not_le outside
  by_cases wide : maxWidth < l.width
  · exact .inr (.inl ⟨inside, wide, convert_of_fault (field_of_wide inside wide)⟩)
  have narrow := Nat.le_of_not_lt wide
  have converted := convert_of_field (field_of_fits inside narrow)
  by_cases zero : ∃ op ∈ l.operations, op.DividesByZero
  · have refused := converted.trans (operated_of_dividesByZero zero _)
    exact .inr (.inr (.inl ⟨inside, narrow, zero, refused⟩))
  · have nowhere : ∀ op ∈ l.operations, ¬ op.DividesByZero := fun op mem divides =>
      zero ⟨op, mem, divides⟩
    obtain ⟨x, applied⟩ :=
      exists_operated_eq nowhere (l.shift (bigEndian (l.octets payload))).toFloat
    exact .inr (.inr (.inr ⟨inside, narrow, nowhere, x, converted.trans applied⟩))

/-- A payload is refused exactly if it ends before the field does, if the field does not fit in a
word, or if an operation divides by zero, and for the first of these. Nothing else goes wrong: every
step of the computation can be taken in words. -/
theorem conversion (l : Layout) (payload : Bytes) : l.Conversion payload where
  computed := inWords?_eq
  fails_iff := by
    rcases l.convert_cases payload with ⟨outside, refused⟩ | ⟨-, wide, refused⟩ |
      ⟨-, -, zero, refused⟩ | ⟨inside, narrow, nowhere, x, converted⟩
    · exact iff_of_true ⟨_, refused⟩ (.inl outside)
    · exact iff_of_true ⟨_, refused⟩ (.inr (.inl wide))
    · exact iff_of_true ⟨_, refused⟩ (.inr (.inr zero))
    · refine iff_of_false ?_ ?_
      · rintro ⟨e, refused⟩
        cases converted.symm.trans refused
      · rintro (outside | wide | ⟨op, mem, zero⟩)
        · exact Nat.not_le_of_lt inside outside
        · exact Nat.not_lt_of_le narrow wide
        · exact nowhere op mem zero
  invalid := exists_fault_of_convert
  outside h := convert_of_fault (field_of_outside h)
  wide inside h := convert_of_fault (field_of_wide inside h)
  divides inside narrow zero :=
    (convert_of_field (field_of_fits inside narrow)).trans (operated_of_dividesByZero zero _)

end Layout
end GattSync
