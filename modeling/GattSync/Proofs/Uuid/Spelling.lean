import GattSync.Proofs.Spec.Identity
import GattSync.Proofs.Uuid.Grammar

/-!
# Spellings of UUIDs

The texts that a UUID is documented to be given by: the digits of its assigned number, if it has
one, or its own in a row or in hyphenated groups, with letters of either case and blanks around them
(`IsSpelling`). Each of them is read as the UUID (`parse_of_isSpelling`), whichever of the readers
its length selects.

An assigned number keeps its digits when it is expanded (`text_ofShort32`), so that no two numbers
have the same UUID.
-/

namespace GattSync.Uuid

open Text.Payload

variable {c : Char} {cs ds text front back : List Char} {n w : Nat} {u : Uuid} {s : String}

/-! ## Letter case -/

theorem toLower_toLower (c : Char) : c.toLower.toLower = c.toLower := by
  rw [← Char.toNat_inj, toNat_toLower, toNat_toLower]
  grind

/-- A character that is no letter is in lower case what nothing else is. -/
theorem toLower_eq_iff {d : Char} (h : d.toNat < 65 ∨ 122 < d.toNat) : c.toLower = d ↔ c = d := by
  rw [← Char.toNat_inj, ← Char.toNat_inj, toNat_toLower]
  split <;> omega

theorem isDigit_of_toLower (h : IsDigit c.toLower) : IsDigit c := by
  rw [isDigit_iff, toNat_toLower] at h
  rw [isDigit_iff]
  split at h <;> omega

theorem digitValue_toLower (c : Char) : digitValue c.toLower = digitValue c := by
  rw [digitValue, digitValue, toLower_toLower]

theorem numeral_map_toLower (ds : List Char) : numeral (ds.map Char.toLower) = numeral ds := by
  rw [numeral, numeral, ← List.map_reverse, List.map_map]
  exact congrArg _ (List.map_congr_left fun c _ => digitValue_toLower c)

/-- The text has the digits of the number, as many as there are places, in letters of either
case. -/
def HasDigits (width n : Nat) (ds : List Char) : Prop := ds.map Char.toLower = hex width n

theorem HasDigits.length (h : HasDigits w n ds) : ds.length = w := by
  rw [← List.length_map Char.toLower, h, length_hex]

theorem HasDigits.isDigit (h : HasDigits (w + 1) n ds) : ∀ c ∈ ds, IsDigit c := by
  obtain ⟨-, digits, -⟩ := hexNumber?_eq_some_iff.mp (hexNumber?_hex w n)
  intro c hc
  refine isDigit_of_toLower (digits _ ?_)
  rw [← h]
  exact List.mem_map_of_mem hc

theorem HasDigits.numeral_eq (h : HasDigits (w + 1) n ds) (fits : n < 16 ^ (w + 1)) :
    numeral ds = n := by
  obtain ⟨-, -, number⟩ := hexNumber?_eq_some_iff.mp (hexNumber?_hex w n)
  rw [← numeral_map_toLower, h, ← number, Nat.mod_eq_of_lt fits]

/-! ## Spellings -/

/-- The text, without blanks around it, spells the UUID. -/
inductive Spells : Uuid → List Char → Prop where
  /-- Four digits of an assigned number. -/
  | short16 (n : BitVec 16) {mark ds : List Char} (hm : mark ∈ marks)
      (hd : HasDigits 4 n.toNat ds) : Spells (ofShort16 n) (mark ++ ds)
  /-- Eight digits of an assigned number. -/
  | short32 (n : BitVec 32) {mark ds : List Char} (hm : mark ∈ marks)
      (hd : HasDigits 8 n.toNat ds) : Spells (ofShort32 n) (mark ++ ds)
  /-- All digits in a row. -/
  | simple (u : Uuid) {ds : List Char} (hd : HasDigits 32 u.bits.toNat ds) : Spells u ds
  /-- All digits in groups with hyphens between them. -/
  | hyphenated (u : Uuid) {cs : List Char} (h : cs.map Char.toLower = u.text.toList) : Spells u cs

/-- The text spells the UUID, with any blanks around it. -/
def IsSpelling (u : Uuid) (s : String) : Prop :=
  ∃ front text back, s.toList = front ++ text ++ back ∧ (∀ c ∈ front, Text.isBlank c = true) ∧
    (∀ c ∈ back, Text.isBlank c = true) ∧ Spells u text

/-- Eight digits may be given for a number of 16 bits as well. -/
theorem Spells.short16_wide (n : BitVec 16) {mark : List Char} (hm : mark ∈ marks)
    (hd : HasDigits 8 n.toNat ds) : Spells (ofShort16 n) (mark ++ ds) := by
  refine .short32 (n.setWidth 32) hm ?_
  rwa [BitVec.toNat_setWidth_of_le (by decide)]

example : IsSpelling batteryLevel " 0X2A19\n" :=
  have digits : HasDigits 4 0x2a19 ['2', 'A', '1', '9'] := rfl
  ⟨[' '], ['0', 'X'] ++ ['2', 'A', '1', '9'], ['\n'], rfl,
    List.forall_mem_singleton.mpr rfl, List.forall_mem_singleton.mpr rfl,
    .short16 0x2a19 (by decide) digits⟩

/-! ## Reading -/

theorem isBlank_of_isDigit : IsDigit c → Text.isBlank c = false :=
  IsDigit.elim (p := fun c => Text.isBlank c = false) (by decide) (by decide) (by decide)

theorem HasDigits.isBlank (h : HasDigits (w + 1) n ds) : ∀ c ∈ ds, Text.isBlank c = false :=
  fun c hc => isBlank_of_isDigit (h.isDigit c hc)

theorem isBlank_of_mem_marks : ∀ mark ∈ marks, ∀ c ∈ mark, Text.isBlank c = false := by
  have unblank : ∀ mark ∈ marks, mark.any Text.isBlank = false := by decide
  simpa using unblank

theorem ofSimple?_of_hasDigits (h : HasDigits 32 u.bits.toNat ds) : ofSimple? ds = some u := by
  have some_digit : ds ≠ [] := by
    rintro rfl
    cases h.length
  have number : hexNumber? ds = some u.bits.toNat :=
    hexNumber?_eq_some_iff.mpr ⟨some_digit, h.isDigit, (h.numeral_eq u.bits.isLt).symm⟩
  rw [ofSimple?, if_pos h.length, number]
  simp

theorem exists_hyphen {before after : List Char}
    (h : cs.map Char.toLower = before ++ '-' :: after) :
    ∃ l r, cs = l ++ '-' :: r ∧ l.map Char.toLower = before ∧ r.map Char.toLower = after := by
  obtain ⟨l, rest, rfl, hl, hrest⟩ := List.map_eq_append_iff.mp h
  obtain ⟨c, r, rfl, hc, hr⟩ := List.map_eq_cons_iff.mp hrest
  obtain rfl := (toLower_eq_iff (by decide)).mp hc
  exact ⟨l, r, rfl, hl, hr⟩

/-- Groups in letters of either case are read as their digits in a row, which have letters of either
case too. -/
theorem exists_ofHyphenated?_eq (h : cs.map Char.toLower = grouped (hex 32 n)) :
    ∃ ds, HasDigits 32 n ds ∧ ofHyphenated? cs = ofSimple? ds ∧ ∀ c ∈ cs, c = '-' ∨ c ∈ ds := by
  -- The last group is split off first.
  obtain ⟨cs, e, rfl, h, he⟩ := exists_hyphen h
  obtain ⟨cs, d, rfl, h, hd⟩ := exists_hyphen h
  obtain ⟨cs, c, rfl, h, hc⟩ := exists_hyphen h
  obtain ⟨a, b, rfl, ha, hb⟩ := exists_hyphen h
  have count {l hs : List Char} (hl : l.map Char.toLower = hs) : l.length = hs.length := by
    rw [← hl, List.length_map]
  have whole : (hex 32 n).length = 32 := length_hex 32 n
  refine ⟨a ++ b ++ c ++ d ++ e, ?_, ?_, ?_⟩
  · simp only [HasDigits, List.map_append, ha, hb, hc, hd, he, take_append_groups]
  · apply ofHyphenated?_groups
    · simp [count ha, whole]
    · simp [count hb, whole]
    · simp [count hc, whole]
    · simp [count hd, whole]
    · simp [count he, whole]
  · intro x hx
    simp only [List.mem_append, List.mem_cons] at hx ⊢
    grind

theorem ofFull?_of_hyphenated (h : cs.map Char.toLower = u.text.toList) :
    ofFull? cs = some u ∧ ∀ c ∈ cs, c = '-' ∨ IsDigit c := by
  have written : u.text.toList = grouped (hex 32 u.bits.toNat) := String.toList_ofList
  rw [written] at h
  obtain ⟨ds, digits, groups, within⟩ := exists_ofHyphenated?_eq h
  have within : ∀ c ∈ cs, c = '-' ∨ IsDigit c := fun c hc =>
    (within c hc).imp_right (digits.isDigit c)
  have length : cs.length = 36 := by
    rw [← List.length_map Char.toLower, h, length_grouped (length_hex 32 _)]
  have first {c : Char} : IsDigit c → c ≠ '\x7b' ∧ c.toLower ≠ 'u' :=
    IsDigit.elim (p := fun c => c ≠ '\x7b' ∧ c.toLower ≠ 'u') (by decide) (by decide) (by decide)
  have bare : unwrap cs = cs := by
    refine unwrap_of_head fun c hc => ?_
    rcases within c (List.mem_of_mem_head? hc) with rfl | digit
    · decide
    · exact first digit
  rw [ofFull?, if_neg (by rw [length]; decide), bare, groups, ofSimple?_of_hasDigits digits]
  exact ⟨rfl, within⟩

theorem namesShort_of_hasDigits {mark : List Char} (hm : mark ∈ marks) (hd : HasDigits (w + 1) n ds)
    (hw : w + 1 = 4 ∨ w + 1 = 8) (fits : n < 16 ^ (w + 1))
    (hu : u.bits.toNat = n * 2 ^ 96 + base.bits.toNat) : NamesShort [] (mark ++ ds) u := by
  refine ⟨mark, hm, ds, rfl, ?_, hd.isDigit, ?_⟩
  · rw [List.nil_append, hd.length]
    exact hw
  · rw [hu, hd.numeral_eq fits]

/-- A spelling names its UUID, and there are no blanks in it. -/
theorem Spells.names (h : Spells u text) :
    (NamesShort [] text u ∨ ofFull? text = some u) ∧ ∀ c ∈ text, Text.isBlank c = false := by
  cases h with
  | short16 n hm hd =>
    refine ⟨.inl (namesShort_of_hasDigits hm hd (.inl rfl) n.isLt ?_), ?_⟩
    · rw [← toNat_ofShort16_ofNat n.isLt, BitVec.ofNat_toNat, BitVec.setWidth_eq]
    · exact List.forall_mem_append.mpr ⟨isBlank_of_mem_marks _ hm, hd.isBlank⟩
  | short32 n hm hd =>
    refine ⟨.inl (namesShort_of_hasDigits hm hd (.inr rfl) n.isLt (toNat_ofShort32 n)), ?_⟩
    exact List.forall_mem_append.mpr ⟨isBlank_of_mem_marks _ hm, hd.isBlank⟩
  | simple u hd =>
    refine ⟨.inr ?_, hd.isBlank⟩
    rw [ofFull?, if_pos hd.length, ofSimple?_of_hasDigits hd]
  | hyphenated u h =>
    obtain ⟨full, within⟩ := ofFull?_of_hyphenated h
    refine ⟨.inr full, fun c hc => ?_⟩
    rcases within c hc with rfl | digit
    · decide
    · exact isBlank_of_isDigit digit

/-- A spelling with blanks around it is read as its UUID. -/
theorem parse_of_isSpelling (h : IsSpelling u s) : parse s = .ok u := by
  obtain ⟨front, text, back, parts, blankFront, blankBack, spells⟩ := h
  obtain ⟨named, solid⟩ := spells.names
  have trimmed : text = Text.trim s.toList :=
    Text.IsTrimmed.eq_trim ⟨⟨front, back, parts, blankFront, blankBack⟩,
      fun c hc => solid c (List.mem_of_mem_head? hc),
      fun c hc => solid c (List.mem_of_mem_getLast? hc)⟩
  rw [trimmed] at named
  exact parse_eq_ok_iff_namesShort.mpr (named.imp_right .inl)

/-! ## Expansion -/

theorem hex_add (v w n : Nat) : hex (v + w) n = hex v (n / 16 ^ w) ++ hex w n := by
  induction w generalizing n with
  | zero => simp [hex]
  | succ w ih =>
    rw [← Nat.add_assoc, hex, ih, hex, Nat.div_div_eq_div_mul, ← Nat.pow_succ', List.append_assoc]

/-- What does not fit in the places is not written. -/
theorem hex_add_mul (w n k : Nat) : hex w (n + k * 16 ^ w) = hex w n := by
  induction w generalizing n k with
  | zero => rfl
  | succ w ih =>
    have shifted : k * 16 ^ (w + 1) = k * 16 ^ w * 16 := by rw [Nat.pow_succ, Nat.mul_assoc]
    rw [hex, hex, shifted, Nat.add_mul_div_right _ _ (by decide), Nat.add_mul_mod_self_right, ih]

/-- The digits of the number, and behind them those of the base. -/
theorem hex_ofShort32 (n : BitVec 32) :
    hex 32 (ofShort32 n).bits.toNat = hex 8 n.toNat ++ hex 24 base.bits.toNat := by
  have places : (2 : Nat) ^ 96 = 16 ^ 24 := by decide
  have low : base.bits.toNat < 16 ^ 24 := by decide
  rw [toNat_ofShort32, places, hex_add 8 24, Nat.add_comm (n.toNat * 16 ^ 24), hex_add_mul,
    Nat.add_mul_div_right _ _ (Nat.pow_pos (by decide)), Nat.div_eq_of_lt low, Nat.zero_add]

/-- The UUID of an assigned number begins with its digits, and goes on as the base does. -/
theorem text_ofShort32 (n : BitVec 32) : (ofShort32 n).text =
    String.ofList (hex 8 n.toNat ++ "-0000-1000-8000-00805f9b34fb".toList) := by
  have rest : hex 24 base.bits.toNat = "00001000800000805f9b34fb".toList := by decide
  have length : (hex 8 n.toNat).length = 8 := length_hex 8 _
  rw [text, hex_ofShort32, rest]
  generalize hex 8 n.toNat = ds at length
  match ds, length with
  | [_, _, _, _, _, _, _, _], _ => rfl

theorem text_ofShort16 (n : BitVec 16) : (ofShort16 n).text =
    String.ofList ("0000".toList ++ hex 4 n.toNat ++ "-0000-1000-8000-00805f9b34fb".toList) := by
  have front : hex 8 n.toNat = "0000".toList ++ hex 4 n.toNat := by
    rw [hex_add 4 4, Nat.div_eq_of_lt (show n.toNat < 16 ^ 4 from n.isLt)]
    rfl
  rw [ofShort16, text_ofShort32, BitVec.toNat_setWidth_of_le (by decide), front]

theorem ofShort32_inj {m n : BitVec 32} : ofShort32 m = ofShort32 n ↔ m = n := by
  refine ⟨fun h => ?_, congrArg ofShort32⟩
  have bits := congrArg (fun u : Uuid => u.bits.toNat) h
  simp only [toNat_ofShort32] at bits
  exact BitVec.eq_of_toNat_eq (by omega)

theorem ofShort16_eq_ofShort32_iff {m : BitVec 16} {n : BitVec 32} :
    ofShort16 m = ofShort32 n ↔ m.toNat = n.toNat := by
  rw [ofShort16, ofShort32_inj, ← BitVec.toNat_inj, BitVec.toNat_setWidth_of_le (by decide)]

theorem ofShort16_inj {m n : BitVec 16} : ofShort16 m = ofShort16 n ↔ m = n := by
  refine ⟨fun h => BitVec.eq_of_toNat_eq ?_, congrArg ofShort16⟩
  exact (ofShort16_eq_ofShort32_iff.mp h).trans (BitVec.toNat_setWidth_of_le (by decide))

end GattSync.Uuid
