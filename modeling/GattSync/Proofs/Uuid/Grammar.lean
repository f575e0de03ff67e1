import GattSync.Proofs.Uuid.Text
import Mathlib.Data.Nat.Digits.Lemmas

/-!
# The grammar of identifiers

Which texts name a UUID, and which one. As documented, a text without the blanks around it names a
UUID by a short number, which is four or eight digits with a mark in front or none, or else in full
(`IsDocumented`).

Reading accepts all of these, and nothing else but short numbers in which a plus sign stands in the
place of the first digit; for all other texts it is as documented (`parse_reading`).
-/

namespace GattSync.Uuid

open Text.Payload

variable {c : Char} {cs text mark sign ds : List Char} {n acc : Nat} {u v : Uuid} {s : String}

/-! ## Digits and what they denote -/

/-- A hexadecimal digit of either letter case. -/
def IsDigit (c : Char) : Prop :=
  ('0' ≤ c ∧ c ≤ '9') ∨ ('a' ≤ c ∧ c ≤ 'f') ∨ ('A' ≤ c ∧ c ≤ 'F')

instance (c : Char) : Decidable (IsDigit c) :=
  inferInstanceAs (Decidable (('0' ≤ c ∧ c ≤ '9') ∨ ('a' ≤ c ∧ c ≤ 'f') ∨ ('A' ≤ c ∧ c ≤ 'F')))

/-- What a digit counts: its place in the row of digits. -/
def digitValue (c : Char) : Nat := "0123456789abcdef".toList.idxOf c.toLower

/-- The number that digits denote, the first one being the most significant. -/
def numeral (ds : List Char) : Nat := Nat.ofDigits 16 (ds.reverse.map digitValue)

theorem isDigit_iff : IsDigit c ↔ (48 ≤ c.toNat ∧ c.toNat ≤ 57) ∨
    (97 ≤ c.toNat ∧ c.toNat ≤ 102) ∨ (65 ≤ c.toNat ∧ c.toNat ≤ 70) := Iff.rfl

/-- What holds of the ten numbers and of the six letters in either case holds of every digit. -/
theorem IsDigit.elim {p : Char → Prop} (numbers : ∀ n < 10, p (Char.ofNat (48 + n)))
    (small : ∀ n < 6, p (Char.ofNat (97 + n))) (capital : ∀ n < 6, p (Char.ofNat (65 + n)))
    (h : IsDigit c) : p c := by
  rw [← Char.ofNat_toNat c]
  rcases isDigit_iff.mp h with ⟨low, high⟩ | ⟨low, high⟩ | ⟨low, high⟩
  · exact Nat.add_sub_cancel' low ▸ numbers (c.toNat - 48) (by omega)
  · exact Nat.add_sub_cancel' low ▸ small (c.toNat - 97) (by omega)
  · exact Nat.add_sub_cancel' low ▸ capital (c.toNat - 65) (by omega)

theorem hexValue?_of_isDigit : IsDigit c → Text.hexValue? c = some (digitValue c) :=
  IsDigit.elim (p := fun c => Text.hexValue? c = some (digitValue c))
    (by decide) (by decide) (by decide)

theorem digitValue_lt : IsDigit c → digitValue c < 16 :=
  IsDigit.elim (p := fun c => digitValue c < 16) (by decide) (by decide) (by decide)

theorem utf8Size_of_isDigit : IsDigit c → c.utf8Size = 1 :=
  IsDigit.elim (p := fun c => c.utf8Size = 1) (by decide) (by decide) (by decide)

theorem ne_of_isDigit : IsDigit c → c ≠ 'x' ∧ c ≠ 'X' ∧ c ≠ '+' :=
  IsDigit.elim (p := fun c => c ≠ 'x' ∧ c ≠ 'X' ∧ c ≠ '+') (by decide) (by decide) (by decide)

theorem isDigit_of_hexValue? {d : Nat} (h : Text.hexValue? c = some d) : IsDigit c := by
  rw [isDigit_iff]
  simp only [Text.hexValue?] at h
  split at h
  · exact .inl ‹_›
  · split at h
    · exact .inr (.inl ‹_›)
    · split at h
      · exact .inr (.inr ‹_›)
      · cases h

theorem hexValue?_eq_some_iff {d : Nat} :
    Text.hexValue? c = some d ↔ IsDigit c ∧ d = digitValue c := by
  constructor
  · intro h
    have digit := isDigit_of_hexValue? h
    exact ⟨digit, Option.some.inj (h.symm.trans (hexValue?_of_isDigit digit))⟩
  · rintro ⟨digit, rfl⟩
    exact hexValue?_of_isDigit digit

theorem numeral_cons (c : Char) (ds : List Char) :
    numeral (c :: ds) = digitValue c * 16 ^ ds.length + numeral ds := by
  simp [numeral, Nat.ofDigits_append]
  ring

theorem numeral_lt (h : ∀ c ∈ ds, IsDigit c) : numeral ds < 16 ^ ds.length := by
  have small : ∀ d ∈ ds.reverse.map digitValue, d < 16 := by
    intro d hd
    obtain ⟨c, hc, rfl⟩ := List.mem_map.mp hd
    exact digitValue_lt (h c (List.mem_reverse.mp hc))
  simpa [numeral] using Nat.ofDigits_lt_base_pow_length (by decide) small

/-- Digits are read as the number that they denote, and nothing else is read as a number. -/
theorem hexNumberFrom?_eq_some_iff : hexNumberFrom? acc cs = some n ↔
    (∀ c ∈ cs, IsDigit c) ∧ n = acc * 16 ^ cs.length + numeral cs := by
  induction cs generalizing acc with
  | nil => simp [hexNumberFrom?, numeral, eq_comm]
  | cons c cs ih =>
    rw [hexNumberFrom?, Option.bind_eq_some_iff, List.forall_mem_cons, numeral_cons]
    simp only [hexValue?_eq_some_iff, ih]
    have shift (d : Nat) : (acc * 16 + d) * 16 ^ cs.length + numeral cs =
        acc * 16 ^ (c :: cs).length + (d * 16 ^ cs.length + numeral cs) := by
      rw [List.length_cons]
      ring
    constructor
    · rintro ⟨_, ⟨digit, rfl⟩, rest, rfl⟩
      exact ⟨⟨digit, rest⟩, shift _⟩
    · rintro ⟨⟨digit, rest⟩, rfl⟩
      exact ⟨_, ⟨digit, rfl⟩, rest, (shift _).symm⟩

theorem hexNumber?_eq_some_iff : hexNumber? cs = some n ↔
    cs ≠ [] ∧ (∀ c ∈ cs, IsDigit c) ∧ n = numeral cs := by
  cases cs with
  | nil => simp [hexNumber?]
  | cons c cs => simp [hexNumber?, hexNumberFrom?_eq_some_iff]

/-! ## Octets -/

theorem octetCount_of_isDigit (h : ∀ c ∈ ds, IsDigit c) : octetCount ds = ds.length :=
  octetCount_eq_length fun c hc => utf8Size_of_isDigit (h c hc)

theorem length_le_octetCount (cs : List Char) : cs.length ≤ octetCount cs := by
  induction cs with
  | nil => exact Nat.zero_le _
  | cons c cs ih =>
    have size := c.utf8Size_pos
    rw [octetCount_cons, List.length_cons]
    omega

/-! ## Short numbers -/

/-- What may stand in front of a short number. -/
def marks : List (List Char) := [[], ['0', 'x'], ['0', 'X']]

/-- What may stand in front of the digits of a number. -/
def signs : List (List Char) := [[], ['+']]

/-- The text names a UUID by a short number: behind a mark or none there are four or eight
characters, which are the sign and then digits, and the UUID has the number that they denote in its
top 32 bits and the base below. -/
def NamesShort (sign text : List Char) (u : Uuid) : Prop :=
  ∃ mark ∈ marks, ∃ ds, text = mark ++ (sign ++ ds) ∧
    ((sign ++ ds).length = 4 ∨ (sign ++ ds).length = 8) ∧ (∀ c ∈ ds, IsDigit c) ∧
    u.bits.toNat = numeral ds * 2 ^ 96 + base.bits.toNat

theorem ext_toNat (h : u.bits.toNat = v.bits.toNat) : u = v := by
  obtain ⟨a⟩ := u
  obtain ⟨b⟩ := v
  exact congrArg Uuid.mk (BitVec.eq_of_toNat_eq h)

/-- The base has no bits where an assigned number has its own. -/
theorem toNat_ofShort32 (n : BitVec 32) :
    (ofShort32 n).bits.toNat = n.toNat * 2 ^ 96 + base.bits.toNat := by
  have low : base.bits.toNat < 2 ^ 96 := by decide
  have high : n.toNat * 2 ^ 96 < 2 ^ 128 := by
    have bound := n.isLt
    omega
  have wide : n.toNat < 2 ^ 128 := by omega
  rw [ofShort32, BitVec.toNat_or, BitVec.toNat_shiftLeft, BitVec.toNat_setWidth,
    Nat.mod_eq_of_lt wide, Nat.shiftLeft_eq, Nat.mod_eq_of_lt high, Nat.or_comm, Nat.mul_comm,
    Nat.two_pow_add_eq_or_of_lt low]

theorem toNat_ofShort32_ofNat (h : n < 2 ^ 32) :
    (ofShort32 (BitVec.ofNat 32 n)).bits.toNat = n * 2 ^ 96 + base.bits.toNat := by
  rw [toNat_ofShort32, BitVec.toNat_ofNat, Nat.mod_eq_of_lt h]

theorem toNat_ofShort16_ofNat (h : n < 2 ^ 16) :
    (ofShort16 (BitVec.ofNat 16 n)).bits.toNat = n * 2 ^ 96 + base.bits.toNat := by
  have wide : n < 2 ^ 32 := by omega
  rw [ofShort16, toNat_ofShort32, BitVec.toNat_setWidth, BitVec.toNat_ofNat, Nat.mod_eq_of_lt h,
    Nat.mod_eq_of_lt wide]

/-- A number has a plus sign in front or none. -/
theorem signedHexNumber?_eq_some_iff : signedHexNumber? cs = some n ↔
    ∃ sign ∈ signs, ∃ ds, cs = sign ++ ds ∧ ds ≠ [] ∧ (∀ c ∈ ds, IsDigit c) ∧
      n = numeral ds := by
  unfold signedHexNumber?
  split
  · rename_i ds
    rw [hexNumber?_eq_some_iff]
    constructor
    · rintro ⟨some_digit, digits, rfl⟩
      exact ⟨['+'], by decide, ds, rfl, some_digit, digits, rfl⟩
    · rintro ⟨sign, hs, ds', hds, some_digit, digits, rfl⟩
      rcases List.mem_pair.mp hs with rfl | rfl
      · obtain rfl : '+' :: ds = ds' := hds
        exact absurd rfl (ne_of_isDigit (digits '+' List.mem_cons_self)).2.2
      · obtain rfl : ds = ds' := (List.cons.inj hds).2
        exact ⟨some_digit, digits, rfl⟩
  · rename_i unsigned
    rw [hexNumber?_eq_some_iff]
    constructor
    · rintro ⟨some_digit, digits, rfl⟩
      exact ⟨[], by decide, cs, rfl, some_digit, digits, rfl⟩
    · rintro ⟨sign, hs, ds, rfl, some_digit, digits, rfl⟩
      rcases List.mem_pair.mp hs with rfl | rfl
      · exact ⟨some_digit, digits, rfl⟩
      · exact absurd rfl (unsigned ds)

theorem octetCount_signed (hs : sign ∈ signs) (hd : ∀ c ∈ ds, IsDigit c) :
    octetCount (sign ++ ds) = (sign ++ ds).length := by
  rcases List.mem_pair.mp hs with rfl | rfl
  · exact octetCount_of_isDigit hd
  · rw [List.singleton_append, octetCount_cons, octetCount_of_isDigit hd, List.length_cons,
      Nat.add_comm]
    rfl

/-- A number fits in its octets, with or without a sign. -/
theorem lt_of_signedHexNumber? (h : signedHexNumber? cs = some n) : n < 16 ^ octetCount cs := by
  obtain ⟨sign, hs, ds, rfl, -, hd, rfl⟩ := signedHexNumber?_eq_some_iff.mp h
  refine Nat.lt_of_lt_of_le (numeral_lt hd) (Nat.pow_le_pow_right (by decide) ?_)
  rw [octetCount_signed hs hd, List.length_append]
  exact Nat.le_add_left _ _

theorem exists_mark (cs : List Char) : ∃ mark ∈ marks, cs = mark ++ stripHexMark cs := by
  unfold stripHexMark
  split
  · exact ⟨['0', 'x'], by decide, rfl⟩
  · exact ⟨['0', 'X'], by decide, rfl⟩
  · exact ⟨[], by decide, rfl⟩

theorem stripHexMark_append (hm : mark ∈ marks) (h : ∀ c ∈ cs, c ≠ 'x' ∧ c ≠ 'X') :
    stripHexMark (mark ++ cs) = cs := by
  simp only [marks, List.mem_cons, List.not_mem_nil, or_false] at hm
  rcases hm with rfl | rfl | rfl
  · rw [List.nil_append]
    unfold stripHexMark
    split
    · exact absurd rfl (h 'x' (by simp)).1
    · exact absurd rfl (h 'X' (by simp)).2
    · rfl
  · rfl
  · rfl

theorem stripHexMark_signed (hm : mark ∈ marks) (hs : sign ∈ signs) (hd : ∀ c ∈ ds, IsDigit c) :
    stripHexMark (mark ++ (sign ++ ds)) = sign ++ ds := by
  refine stripHexMark_append hm (List.forall_mem_append.mpr ⟨?_, fun c hc => ?_⟩)
  · rcases List.mem_pair.mp hs with rfl | rfl
    · exact List.forall_mem_nil _
    · exact List.forall_mem_singleton.mpr (by decide)
  · obtain ⟨small, capital, -⟩ := ne_of_isDigit (hd c hc)
    exact ⟨small, capital⟩

/-- Without its mark, a short number is read in four or eight octets. -/
theorem exists_namesShort_iff : (∃ sign ∈ signs, NamesShort sign text u) ↔
    (octetCount (stripHexMark text) = 4 ∨ octetCount (stripHexMark text) = 8) ∧
      ∃ n, signedHexNumber? (stripHexMark text) = some n ∧
        u.bits.toNat = n * 2 ^ 96 + base.bits.toNat := by
  constructor
  · rintro ⟨sign, hs, mark, hm, ds, rfl, length, hd, hu⟩
    have some_digit : ds ≠ [] := by
      rintro rfl
      rcases List.mem_pair.mp hs with rfl | rfl <;> simp at length
    rw [stripHexMark_signed hm hs hd, octetCount_signed hs hd]
    exact ⟨length, _, signedHexNumber?_eq_some_iff.mpr ⟨sign, hs, ds, rfl, some_digit, hd, rfl⟩, hu⟩
  · rintro ⟨octets, n, number, hu⟩
    obtain ⟨mark, hm, parts⟩ := exists_mark text
    obtain ⟨sign, hs, ds, short, -, hd, rfl⟩ := signedHexNumber?_eq_some_iff.mp number
    rw [short, octetCount_signed hs hd] at octets
    exact ⟨sign, hs, mark, hm, ds, short ▸ parts, octets, hd, hu⟩

/-! ## UUIDs in full -/

theorem length_unwrap_le (cs : List Char) : (unwrap cs).length ≤ cs.length := by
  unfold unwrap
  split
  · simp
  · split
    · split
      · rw [List.length_dropLast, List.length_cons]
        omega
      · exact Nat.le_refl _
    · exact Nat.le_refl _

/-- No text that is read in full is as short as a short number. -/
theorem le_length_of_ofFull? (h : ofFull? cs = some u) : 32 ≤ cs.length := by
  unfold ofFull? at h
  split at h
  · omega
  · have whole : (unwrap cs).length = 36 := by
      unfold ofHyphenated? at h
      split at h
      · exact And.left ‹_›
      · cases h
    have shorter := length_unwrap_le cs
    omega

theorem length_le_length_stripHexMark (cs : List Char) :
    cs.length ≤ (stripHexMark cs).length + 2 := by
  obtain ⟨mark, hm, parts⟩ := exists_mark cs
  have short : mark.length ≤ 2 := by
    clear parts
    revert mark
    decide
  have lengths := congrArg List.length parts
  rw [List.length_append] at lengths
  omega

theorem octetCount_of_ofFull? (h : ofFull? cs = some u) : 30 ≤ octetCount (stripHexMark cs) := by
  have long := le_length_of_ofFull? h
  have stripped := length_le_length_stripHexMark cs
  have octets := length_le_octetCount (stripHexMark cs)
  omega

/-! ## Reading -/

/-- What has four or eight octets without its mark is read as a number, which is expanded. -/
theorem map_signedHexNumber?_eq_some_iff {width : Nat} {expand : Nat → Uuid}
    (octets : octetCount (stripHexMark text) = width) (hw : width = 4 ∨ width = 8)
    (he : ∀ n < 16 ^ width, (expand n).bits.toNat = n * 2 ^ 96 + base.bits.toNat) :
    (signedHexNumber? (stripHexMark text)).map expand = some u ↔
      (∃ sign ∈ signs, NamesShort sign text u) ∨ ofFull? text = some u := by
  rw [exists_namesShort_iff, octets, Option.map_eq_some_iff]
  constructor
  · rintro ⟨n, number, rfl⟩
    have fits := lt_of_signedHexNumber? number
    rw [octets] at fits
    exact .inl ⟨hw, n, number, he n fits⟩
  · rintro (⟨-, n, number, hu⟩ | full)
    · have fits := lt_of_signedHexNumber? number
      rw [octets] at fits
      exact ⟨n, number, ext_toNat ((he n fits).trans hu.symm)⟩
    · have long := octetCount_of_ofFull? full
      omega

/-- A text names a UUID by a short number, with a sign or without, or in full. -/
theorem ofText?_eq_some_iff : ofText? s = some u ↔
    (∃ sign ∈ signs, NamesShort sign (Text.trim s.toList) u) ∨
      ofFull? (Text.trim s.toList) = some u := by
  simp only [ofText?]
  split
  · rename_i octets
    exact map_signedHexNumber?_eq_some_iff octets (.inl rfl) fun n fits =>
      toNat_ofShort16_ofNat fits
  · rename_i octets
    exact map_signedHexNumber?_eq_some_iff octets (.inr rfl) fun n fits =>
      toNat_ofShort32_ofNat fits
  · rename_i not_four not_eight
    refine ⟨.inr, fun named => named.resolve_left fun short => ?_⟩
    rcases (exists_namesShort_iff.mp short).1 with four | eight
    · exact not_four four
    · exact not_eight eight

theorem parse_eq_ok_iff : parse s = .ok u ↔ ofText? s = some u := by
  unfold parse
  split <;> simp [*]

/-- What is not read is refused, and quoted as it was given. -/
theorem parse_of_forall_ne (h : ∀ u, parse s ≠ .ok u) : parse s = .error (.invalidUuid s) := by
  unfold parse at h ⊢
  split at h
  · exact absurd rfl (h _)
  · rfl

/-! ## The documented grammar -/

/-- The text is read as documented: it names a UUID by a short number or in full when the blanks
around it are left out, and otherwise it is refused and quoted. -/
def IsDocumented (s : String) : Prop :=
  (∀ u, parse s = .ok u ↔
    NamesShort [] (Text.trim s.toList) u ∨ ofFull? (Text.trim s.toList) = some u) ∧
  ((∀ u, ¬ NamesShort [] (Text.trim s.toList) u ∧ ofFull? (Text.trim s.toList) ≠ some u) →
    parse s = .error (.invalidUuid s))

theorem ofFull?_of_namesShort (hs : sign ∈ signs) (h : NamesShort sign text u) :
    ofFull? text = none := by
  obtain ⟨octets, -⟩ := exists_namesShort_iff.mp ⟨sign, hs, h⟩
  refine Option.eq_none_iff_forall_ne_some.mpr fun v full => ?_
  have long := octetCount_of_ofFull? full
  omega

/-- What begins with a sign does not begin with a digit. -/
theorem not_namesShort_signed (h : NamesShort [] text u) : ¬ NamesShort ['+'] text v := by
  rintro ⟨mark', hm', ds', parts, -, hd', -⟩
  obtain ⟨mark, hm, ds, rfl, -, hd, -⟩ := h
  have unsigned : stripHexMark (mark ++ ([] ++ ds)) = [] ++ ds :=
    stripHexMark_signed hm (by decide) hd
  rw [parts, stripHexMark_signed hm' (by decide) hd', List.nil_append] at unsigned
  exact (ne_of_isDigit (hd '+' (by simp [← unsigned]))).2.2 rfl

theorem parse_eq_ok_iff_namesShort : parse s = .ok u ↔ NamesShort [] (Text.trim s.toList) u ∨
    ofFull? (Text.trim s.toList) = some u ∨ NamesShort ['+'] (Text.trim s.toList) u := by
  rw [parse_eq_ok_iff, ofText?_eq_some_iff]
  simp only [signs, List.mem_cons, List.not_mem_nil, or_false, exists_eq_or_imp, exists_eq_left]
  exact or_right_comm.trans or_assoc

/-- Reading is as documented unless the text is a short number with a sign. -/
theorem isDocumented_iff : IsDocumented s ↔ ∀ u, ¬ NamesShort ['+'] (Text.trim s.toList) u := by
  constructor
  · rintro ⟨documented, -⟩ u signed
    have accepted := parse_eq_ok_iff_namesShort.mpr (.inr (.inr signed))
    rcases (documented u).mp accepted with unsigned | full
    · exact not_namesShort_signed unsigned signed
    · rw [ofFull?_of_namesShort (by decide) signed] at full
      cases full
  · intro unsigned
    have documented (u : Uuid) : parse s = .ok u ↔
        NamesShort [] (Text.trim s.toList) u ∨ ofFull? (Text.trim s.toList) = some u := by
      rw [parse_eq_ok_iff_namesShort, or_iff_left (unsigned u)]
    refine ⟨documented, fun unnamed => parse_of_forall_ne fun u accepted => ?_⟩
    rcases (documented u).mp accepted with short | full
    · exact (unnamed u).1 short
    · exact (unnamed u).2 full

/-- How a text is read. -/
structure Reading (s : String) : Prop where
  /-- Leaving out the blanks around the text leaves what stands between them. -/
  trimmed {t : List Char} : Text.IsTrimmed s.toList t ↔ t = Text.trim s.toList
  /-- The text names a UUID by a short number or in full. In a short number a plus sign can stand in
  the place of the first digit. -/
  accepts {u : Uuid} : parse s = .ok u ↔ NamesShort [] (Text.trim s.toList) u ∨
    ofFull? (Text.trim s.toList) = some u ∨ NamesShort ['+'] (Text.trim s.toList) u
  /-- All other texts are refused, and quoted as they were given. -/
  refuses (h : ∀ u, parse s ≠ .ok u) : parse s = .error (.invalidUuid s)
  /-- No text is read in more than one of these ways. -/
  unambiguous {u : Uuid} (h : NamesShort [] (Text.trim s.toList) u) :
    ofFull? (Text.trim s.toList) = none ∧ ∀ v, ¬ NamesShort ['+'] (Text.trim s.toList) v
  /-- So reading is as documented but for the plus sign. -/
  documented_iff : IsDocumented s ↔ ∀ u, ¬ NamesShort ['+'] (Text.trim s.toList) u

/-- A text names a UUID by four or eight digits behind a mark or none, or in full, or by a short
number with a plus sign, which is not documented. -/
theorem parse_reading (s : String) : Reading s where
  trimmed := Text.isTrimmed_iff
  accepts := parse_eq_ok_iff_namesShort
  refuses := parse_of_forall_ne
  unambiguous h := ⟨ofFull?_of_namesShort (by decide) h, fun _ => not_namesShort_signed h⟩
  documented_iff := isDocumented_iff

/-- A plus sign and three digits are read as a short number. -/
theorem signed_undocumented :
    parse "+2a1" = .ok (ofShort16 0x2a1) ∧ ¬ IsDocumented "+2a1" := by
  refine ⟨rfl, fun documented => ?_⟩
  have digits : ∀ c ∈ ['2', 'a', '1'], IsDigit c :=
    List.forall_mem_cons.mpr ⟨by decide, List.forall_mem_cons.mpr ⟨by decide,
      List.forall_mem_singleton.mpr (by decide)⟩⟩
  refine isDocumented_iff.mp documented (ofShort16 0x2a1) ⟨[], by decide, ['2', 'a', '1'], ?_⟩
  exact ⟨rfl, .inl rfl, digits, rfl⟩

end GattSync.Uuid
