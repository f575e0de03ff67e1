import GattSync.Layout
import Mathlib.Algebra.Group.Nat.Defs
import Mathlib.Data.List.Induction

/-!
# Fields

What a layout makes of a number that a peripheral has written into a payload. The octets of a number
stand with the most significant one first (`mostFirst`) or last (`leastFirst`). A layout that runs
over them in the direction in which they go from the most to the least significant one has the
number for its field, whatever stands around them, and hands on what is left of it after its shift
(`readsAs_written`).

The field is put together in a word of 64 bits. A number of eight octets fills it to the last bit,
and no bit is lost on the way (`toNat_bigEndian`).
-/

namespace GattSync.Layout

variable {l : Layout} {payload front field back octets : Bytes} {w v : Nat}

/-! ## Numbers and their octets -/

/-- The lowest `w` octets of a number, the most significant one first. -/
def mostFirst : Nat → Nat → Bytes
  | 0, _ => []
  | w + 1, v => mostFirst w (v / 256) ++ [UInt8.ofNat (v % 256)]

/-- The lowest `w` octets of a number, the least significant one first. -/
def leastFirst : Nat → Nat → Bytes
  | 0, _ => []
  | w + 1, v => UInt8.ofNat (v % 256) :: leastFirst w (v / 256)

/-- The number that octets denote, the first one being the most significant. -/
def numberOf (octets : Bytes) : Nat := octets.foldl (fun n b => n * 256 + b.toNat) 0

@[simp] theorem length_mostFirst (w v : Nat) : (mostFirst w v).length = w := by
  induction w generalizing v with
  | zero => rfl
  | succ w ih => rw [mostFirst, List.length_append, ih, List.length_singleton]

@[simp] theorem reverse_leastFirst (w v : Nat) : (leastFirst w v).reverse = mostFirst w v := by
  induction w generalizing v with
  | zero => rfl
  | succ w ih => rw [leastFirst, List.reverse_cons, ih, mostFirst]

@[simp] theorem length_leastFirst (w v : Nat) : (leastFirst w v).length = w := by
  rw [← List.length_reverse, reverse_leastFirst, length_mostFirst]

theorem numberOf_concat (octets : Bytes) (b : UInt8) :
    numberOf (octets ++ [b]) = numberOf octets * 256 + b.toNat := by
  rw [numberOf, List.foldl_append]
  rfl

/-- The octets of a number denote it, as far as it fits in them. -/
theorem numberOf_mostFirst (w v : Nat) : numberOf (mostFirst w v) = v % 256 ^ w := by
  induction w generalizing v with
  | zero => exact (Nat.mod_one v).symm
  | succ w ih =>
    have last : (UInt8.ofNat (v % 256)).toNat = v % 256 :=
      Nat.mod_eq_of_lt (Nat.mod_lt v (by decide))
    rw [mostFirst, numberOf_concat, ih, last, Nat.pow_succ', Nat.mod_mul]
    omega

theorem numberOf_lt (h : octets.length ≤ w) : numberOf octets < 256 ^ w := by
  induction octets using List.reverseRecOn generalizing w with
  | nil => exact Nat.pow_pos (by decide)
  | append_singleton octets b ih =>
    rw [List.length_append, List.length_singleton] at h
    obtain ⟨k, rfl⟩ : ∃ k, w = k + 1 := ⟨w - 1, by omega⟩
    have higher := ih (Nat.le_of_succ_le_succ h)
    have small : b.toNat < 256 := b.toNat_lt
    rw [numberOf_concat, Nat.pow_succ]
    omega

/-- An octet is put behind a number without the loss of a bit, if the number has 56 bits. -/
theorem toNat_assemble {n : UInt64} (h : n.toNat < 2 ^ 56) (b : UInt8) :
    (n <<< 8 ||| b.toUInt64).toNat = n.toNat * 256 + b.toNat := by
  have room : n.toNat * 2 ^ 8 < 2 ^ 64 := by omega
  have low : b.toNat < 2 ^ 8 := b.toNat_lt
  rw [UInt64.toNat_or, UInt64.toNat_shiftLeft, UInt8.toNat_toUInt64, Nat.shiftLeft_eq]
  show n.toNat * 2 ^ 8 % 2 ^ 64 ||| b.toNat = _
  rw [Nat.mod_eq_of_lt room, Nat.mul_comm, ← Nat.two_pow_add_eq_or_of_lt low, Nat.mul_comm]

theorem bigEndian_concat (octets : Bytes) (b : UInt8) :
    bigEndian (octets ++ [b]) = bigEndian octets <<< 8 ||| b.toUInt64 := by
  rw [bigEndian, List.foldl_append]
  rfl

/-- A word holds the number of up to eight octets. -/
theorem toNat_bigEndian (h : octets.length ≤ maxWidth) :
    (bigEndian octets).toNat = numberOf octets := by
  induction octets using List.reverseRecOn with
  | nil => rfl
  | append_singleton octets b ih =>
    rw [List.length_append, List.length_singleton] at h
    have whole := ih (Nat.le_of_succ_le h)
    have room : (bigEndian octets).toNat < 2 ^ 56 :=
      whole ▸ numberOf_lt (w := 7) (Nat.le_of_succ_le_succ h)
    rw [bigEndian_concat, toNat_assemble room, whole, numberOf_concat]

/-! ## Selecting and shifting -/

/-- The index of the octet of the field that comes last in a payload. -/
def last (l : Layout) : Nat := max l.start.toNat l.stop.toNat

/-- What a layout hands on of a number: what is left of it in 64 bits when it has been shifted. A
shift to the left goes before one to the right. -/
def shifted (l : Layout) (v : Nat) : Nat :=
  if l.shiftLeft ≠ 0 then v * 2 ^ l.shiftLeft.toNat % 2 ^ 64 else v / 2 ^ l.shiftRight.toNat

theorem take_drop_field :
    ((front ++ field ++ back).drop front.length).take field.length = field := by
  rw [List.append_assoc, List.drop_left, List.take_left]

/-- A layout that runs over a field forwards takes its octets. -/
theorem octets_forwards (filled : 1 ≤ field.length) (start : l.start.toNat = front.length)
    (stop : l.stop.toNat + 1 = front.length + field.length) :
    l.octets (front ++ field ++ back) = field := by
  have forwards : l.start ≤ l.stop := UInt64.le_iff_toNat_le.mpr (by omega)
  have first : min l.start.toNat l.stop.toNat = front.length := by omega
  have width : l.width = field.length := by
    unfold width
    omega
  rw [octets, first, width, if_pos forwards, take_drop_field]

/-- A layout that runs over a field backwards takes its octets from the last one on. -/
theorem octets_backwards (filled : 1 ≤ field.length) (stop : l.stop.toNat = front.length)
    (start : l.start.toNat + 1 = front.length + field.length) :
    l.octets (front ++ field ++ back) = field.reverse := by
  have first : min l.start.toNat l.stop.toNat = front.length := by omega
  have width : l.width = field.length := by
    unfold width
    omega
  rw [octets, first, width, take_drop_field]
  split
  · -- A field of one octet is run over in either direction.
    rename_i forwards
    have alone : field.length = 1 := by
      have order := UInt64.le_iff_toNat_le.mp forwards
      omega
    obtain ⟨b, rfl⟩ := List.length_eq_one_iff.mp alone
    rfl
  · rfl

theorem field_of_outside (h : payload.length ≤ l.last) :
    l.field payload = .error (.outOfRange l.last payload.length) :=
  if_pos h

theorem field_of_wide (inside : l.last < payload.length) (wide : maxWidth < l.width) :
    l.field payload = .error (.tooWide l.width) :=
  (if_neg (Nat.not_le_of_lt inside)).trans (if_pos wide)

theorem field_of_fits (inside : l.last < payload.length) (narrow : l.width ≤ maxWidth) :
    l.field payload = .ok (bigEndian (l.octets payload)) :=
  (if_neg (Nat.not_le_of_lt inside)).trans (if_neg (Nat.not_lt_of_le narrow))

/-- From 64 places on, all bits are shifted out of a word. -/
theorem mul_two_pow_mod_eq_zero {k : Nat} (h : 64 ≤ k) : v * 2 ^ k % 2 ^ 64 = 0 :=
  Nat.mod_eq_zero_of_dvd (Nat.dvd_mul_left_of_dvd (Nat.pow_dvd_pow 2 h) v)

theorem toNat_shift (l : Layout) (n : UInt64) : (l.shift n).toNat = l.shifted n.toNat := by
  have word : n.toNat < 2 ^ 64 := n.toNat_lt
  have places {k : UInt32} (h : k < 64) : k.toUInt64.toNat % 64 = k.toNat :=
    Nat.mod_eq_of_lt (UInt32.lt_iff_toNat_lt.mp h)
  have beyond {k : UInt32} (h : ¬ k < 64) : 64 ≤ k.toNat :=
    Nat.le_of_not_lt fun few => h (UInt32.lt_iff_toNat_lt.mpr few)
  unfold shift shifted
  split
  · split
    · rename_i few
      rw [UInt64.toNat_shiftLeft, places few, Nat.shiftLeft_eq]
    · rename_i many
      exact (mul_two_pow_mod_eq_zero (beyond many)).symm
  · split
    · rename_i few
      rw [UInt64.toNat_shiftRight, places few, Nat.shiftRight_eq_div_pow]
    · rename_i many
      refine (Nat.div_eq_of_lt (Nat.lt_of_lt_of_le word ?_)).symm
      exact Nat.pow_le_pow_right (by decide) (beyond many)

/-! ## Reading -/

/-- The reading that the operations of a layout make of a number, with faults as errors of the data
received. -/
def operated (l : Layout) (x : Float) : Except Error Float :=
  (l.operations.foldlM (fun x op => Operation.apply op x) x).mapError fun fault =>
    .invalidData fault.message

/-- The operations of a layout begin with this number. -/
def HandsOn (l : Layout) (payload : Bytes) (v : Nat) : Prop :=
  ∃ n : UInt64, n.toNat = v ∧ l.convert payload = l.operated n.toFloat

/-- A payload is read as a number by a layout: the number is that of the field, and what is left of
it after the shift is what the operations begin with. -/
structure ReadsAs (l : Layout) (payload : Bytes) (v : Nat) : Prop where
  field : (l.field payload).map UInt64.toNat = .ok v
  /-- A shift to the left, whatever the one to the right is. -/
  left : l.shiftLeft ≠ 0 → l.HandsOn payload (v * 2 ^ l.shiftLeft.toNat % 2 ^ 64)
  leftOut : 64 ≤ l.shiftLeft.toNat → l.HandsOn payload 0
  /-- A shift to the right, if there is none to the left. -/
  right : l.shiftLeft = 0 → l.HandsOn payload (v / 2 ^ l.shiftRight.toNat)
  rightOut : l.shiftLeft = 0 → 64 ≤ l.shiftRight.toNat → l.HandsOn payload 0

theorem convert_of_field {n : UInt64} (h : l.field payload = .ok n) :
    l.convert payload = l.operated (l.shift n).toFloat := by
  rw [convert, reading, h]
  rfl

/-- A number with its octets in the field is what a payload is read as. -/
theorem readsAs_of_octets (inside : l.last < payload.length) (width : l.width = w)
    (narrow : w ≤ maxWidth) (fits : v < 256 ^ w) (h : l.octets payload = mostFirst w v) :
    l.ReadsAs payload v := by
  have number : (bigEndian (l.octets payload)).toNat = v := by
    rw [h, toNat_bigEndian (by rwa [length_mostFirst]), numberOf_mostFirst, Nat.mod_eq_of_lt fits]
  have read := field_of_fits inside (width ▸ narrow)
  have handed : l.HandsOn payload (l.shifted v) :=
    ⟨_, by rw [toNat_shift, number], convert_of_field read⟩
  have word : v < 2 ^ 64 :=
    Nat.lt_of_lt_of_le fits (Nat.pow_le_pow_right (n := 256) (by decide) narrow)
  constructor
  case field =>
    rw [read, ← number]
    rfl
  case left =>
    intro nonzero
    rwa [shifted, if_pos nonzero] at handed
  case leftOut =>
    intro many
    have nonzero : l.shiftLeft ≠ 0 := by
      rintro zero
      rw [zero] at many
      exact absurd many (by decide)
    rwa [shifted, if_pos nonzero, mul_two_pow_mod_eq_zero many] at handed
  case right =>
    intro unshifted
    rwa [shifted, if_neg (not_not_intro unshifted)] at handed
  case rightOut =>
    intro unshifted many
    have small : v < 2 ^ l.shiftRight.toNat :=
      Nat.lt_of_lt_of_le word (Nat.pow_le_pow_right (by decide) many)
    rwa [shifted, if_neg (not_not_intro unshifted), Nat.div_eq_of_lt small] at handed

/-- What a peripheral has written is what is read: a number of one to eight octets, by a layout that
runs forwards over the octets with the most significant one first, or backwards over the octets with
the most significant one last, whatever stands before and behind them. -/
theorem readsAs_written (l : Layout) {w v : Nat} (filled : 1 ≤ w) (narrow : w ≤ maxWidth)
    (fits : v < 256 ^ w) (front back : Bytes) :
    (l.start.toNat = front.length → l.stop.toNat + 1 = front.length + w →
      l.ReadsAs (front ++ mostFirst w v ++ back) v) ∧
    (l.stop.toNat = front.length → l.start.toNat + 1 = front.length + w →
      l.ReadsAs (front ++ leastFirst w v ++ back) v) := by
  constructor
  · intro start stop
    apply readsAs_of_octets (w := w) _ _ narrow fits
    · apply octets_forwards <;> simpa
    · simp [last]
      omega
    · unfold width
      omega
  · intro stop start
    apply readsAs_of_octets (w := w) _ _ narrow fits
    · rw [octets_backwards _ stop, reverse_leastFirst] <;> simpa
    · simp [last]
      omega
    · unfold width
      omega

/-- A number that fills a word is read in either direction, whatever the octets around it are. -/
theorem readsAs_written_counter :
    0xf102030405060708 < 256 ^ maxWidth ∧
      ({ start := 1, stop := 8, shiftRight := 4 } : Layout).ReadsAs
        [0xff, 0xf1, 2, 3, 4, 5, 6, 7, 8, 0xee] 0xf102030405060708 ∧
      ({ start := 8, stop := 1, shiftLeft := 60, shiftRight := 4 } : Layout).ReadsAs
        [0xff, 8, 7, 6, 5, 4, 3, 2, 0xf1, 0xee] 0xf102030405060708 := by
  have fits : 0xf102030405060708 < 256 ^ 8 := by decide
  exact ⟨fits, (readsAs_written _ (by decide) (by decide) fits [0xff] [0xee]).1 rfl rfl,
    (readsAs_written _ (by decide) (by decide) fits [0xff] [0xee]).2 rfl rfl⟩

end GattSync.Layout
