import GattSync.Proofs.Text.Hexadecimal
import GattSync.Proofs.Text.Trimming

/-!
# UUIDs as they are written

The text of a UUID names it (`ofText?_text`). It consists of digits and hyphens: none of the things
that a reader makes allowance for can be mistaken in it, and it is too long for a short number.
-/

namespace GattSync.Uuid

open Text.Payload

/-- The characters that a UUID is written with. -/
def IsMark (c : Char) : Prop := c = '-' ∨ ∃ d < 16, c = hexDigit d

variable {c : Char} {cs : List Char}

theorem isMark_of_mem_hex {width n : Nat} (h : c ∈ hex width n) : IsMark c :=
  .inr (exists_eq_hexDigit_of_mem_hex h)

/-- What holds of the hyphen and the sixteen digits holds of all of them. -/
theorem IsMark.elim {p : Char → Prop} (hyphen : p '-') (digits : ∀ d < 16, p (hexDigit d))
    (h : IsMark c) : p c := by
  obtain rfl | ⟨d, lt, rfl⟩ := h
  · exact hyphen
  · exact digits d lt

theorem isBlank_eq_false_of_isMark : IsMark c → Text.isBlank c = false :=
  IsMark.elim (p := fun c => Text.isBlank c = false) (by decide) (by decide)

theorem utf8Size_of_isMark : IsMark c → c.utf8Size = 1 :=
  IsMark.elim (p := fun c => c.utf8Size = 1) (by decide) (by decide)

theorem ne_of_isMark : IsMark c → c ≠ 'x' ∧ c ≠ 'X' ∧ c ≠ '\x7b' ∧ c.toLower ≠ 'u' :=
  IsMark.elim (p := fun c => c ≠ 'x' ∧ c ≠ 'X' ∧ c ≠ '\x7b' ∧ c.toLower ≠ 'u')
    (by decide) (by decide)

/-! ## Octets -/

theorem foldl_utf8Size (cs : List Char) (n : Nat) :
    cs.foldl (fun n c => n + c.utf8Size) n = n + octetCount cs := by
  induction cs generalizing n with
  | nil => rfl
  | cons c cs ih =>
    rw [octetCount, List.foldl_cons, List.foldl_cons, ih, ih, Nat.zero_add, Nat.add_assoc]

theorem octetCount_cons (c : Char) (cs : List Char) :
    octetCount (c :: cs) = c.utf8Size + octetCount cs := by
  rw [octetCount, List.foldl_cons, foldl_utf8Size, Nat.zero_add]

/-- A text of characters that take one octet each takes as many as it has characters. -/
theorem octetCount_eq_length (h : ∀ c ∈ cs, c.utf8Size = 1) : octetCount cs = cs.length := by
  induction cs with
  | nil => rfl
  | cons c cs ih =>
    obtain ⟨single, rest⟩ := List.forall_mem_cons.mp h
    rw [octetCount_cons, single, ih rest, List.length_cons, Nat.add_comm]

/-! ## What readers make allowance for -/

theorem trimStart_of_isMark (h : ∀ c ∈ cs, IsMark c) : Text.trimStart cs = cs :=
  Text.trimStart_eq_self fun c hc => isBlank_eq_false_of_isMark (h c (List.mem_of_mem_head? hc))

theorem trim_of_isMark (h : ∀ c ∈ cs, IsMark c) : Text.trim cs = cs := by
  have back : ∀ c ∈ cs.reverse, IsMark c := fun c hc => h c (List.mem_reverse.mp hc)
  rw [Text.trim, trimStart_of_isMark h, trimStart_of_isMark back, List.reverse_reverse]

theorem stripHexMark_of_isMark (h : ∀ c ∈ cs, IsMark c) : stripHexMark cs = cs := by
  unfold stripHexMark
  split
  · exact absurd rfl (ne_of_isMark (h 'x' (by simp))).1
  · exact absurd rfl (ne_of_isMark (h 'X' (by simp))).2.1
  · rfl

/-- Nothing is taken off a text that does not begin like a brace or a URN. -/
theorem unwrap_of_head (h : ∀ c ∈ cs.head?, c ≠ '\x7b' ∧ c.toLower ≠ 'u') : unwrap cs = cs := by
  cases cs with
  | nil => rfl
  | cons c cs =>
    obtain ⟨brace, urn⟩ := h c rfl
    have other : ((c :: cs).take urnMark.length).map Char.toLower ≠ urnMark := by
      intro eq
      exact urn (List.cons.inj eq).1
    rw [unwrap, if_neg other]
    intro inner eq
    exact brace (List.cons.inj eq).1

theorem unwrap_of_isMark (h : ∀ c ∈ cs, IsMark c) : unwrap cs = cs := by
  refine unwrap_of_head fun c hc => ?_
  obtain ⟨-, -, brace, urn⟩ := ne_of_isMark (h c (List.mem_of_mem_head? hc))
  exact ⟨brace, urn⟩

/-! ## The text -/

/-- Groups with hyphens between them are read as the digits in a row. -/
theorem ofHyphenated?_groups {a b c d e : List Char} (ha : a.length = 8) (hb : b.length = 4)
    (hc : c.length = 4) (hd : d.length = 4) (he : e.length = 12) :
    ofHyphenated? (a ++ '-' :: b ++ '-' :: c ++ '-' :: d ++ '-' :: e) =
      ofSimple? (a ++ b ++ c ++ d ++ e) := by
  match a, ha, b, hb, c, hc, d, hd with
  | [_, _, _, _, _, _, _, _], _, [_, _, _, _], _, [_, _, _, _], _, [_, _, _, _], _ =>
    exact if_pos ⟨by simp [he], rfl, rfl, rfl, rfl⟩

/-- The digits of a UUID with hyphens between their groups. -/
def grouped (ds : List Char) : List Char :=
  ds.take 8 ++ '-' :: (ds.drop 8).take 4 ++ '-' :: (ds.drop 12).take 4 ++
    '-' :: (ds.drop 16).take 4 ++ '-' :: ds.drop 20

theorem length_grouped {ds : List Char} (length : ds.length = 32) : (grouped ds).length = 36 := by
  simp [grouped, length]

theorem isMark_of_mem_grouped {ds : List Char} (h : ∀ c ∈ ds, IsMark c) :
    ∀ c ∈ grouped ds, IsMark c := by
  have hyphen : IsMark '-' := .inl rfl
  have taken (n k : Nat) : ∀ c ∈ (ds.drop n).take k, IsMark c :=
    fun c hc => h c (List.mem_of_mem_drop (List.mem_of_mem_take hc))
  simp only [grouped, List.forall_mem_append, List.forall_mem_cons]
  exact ⟨⟨⟨⟨taken 0 8, hyphen, taken 8 4⟩, hyphen, taken 12 4⟩, hyphen, taken 16 4⟩, hyphen,
    fun c hc => h c (List.mem_of_mem_drop hc)⟩

theorem take_append_groups (ds : List Char) :
    ds.take 8 ++ (ds.drop 8).take 4 ++ (ds.drop 12).take 4 ++ (ds.drop 16).take 4 ++ ds.drop 20 =
      ds := by
  have split (n k : Nat) : (ds.drop n).take k ++ ds.drop (n + k) = ds.drop n := by
    rw [← List.drop_drop, List.take_append_drop]
  rw [List.append_assoc, split 16 4, List.append_assoc, split 12 4, List.append_assoc, split 8 4,
    List.take_append_drop]

theorem ofHyphenated?_grouped {ds : List Char} (length : ds.length = 32) :
    ofHyphenated? (grouped ds) = ofSimple? ds := by
  rw [grouped, ofHyphenated?_groups, take_append_groups]
  iterate 5 simp [length]

theorem ofSimple?_hex (u : Uuid) : ofSimple? (hex 32 u.bits.toNat) = some u := by
  have whole : u.bits.toNat % 16 ^ 32 = u.bits.toNat := Nat.mod_eq_of_lt u.bits.isLt
  rw [ofSimple?, if_pos (length_hex 32 _), hexNumber?_hex, whole]
  simp

/-- The text of a UUID names it. -/
theorem ofText?_text (u : Uuid) : ofText? u.text = some u := by
  have length : (hex 32 u.bits.toNat).length = 32 := length_hex 32 _
  have marks : ∀ c ∈ grouped (hex 32 u.bits.toNat), IsMark c :=
    isMark_of_mem_grouped fun c => isMark_of_mem_hex
  have chars : u.text.toList = grouped (hex 32 u.bits.toNat) := String.toList_ofList
  rw [ofText?, chars, trim_of_isMark marks, stripHexMark_of_isMark marks,
    octetCount_eq_length fun c hc => utf8Size_of_isMark (marks c hc), length_grouped length]
  show ofFull? (grouped (hex 32 u.bits.toNat)) = some u
  rw [ofFull?, if_neg (by rw [length_grouped length]; decide), unwrap_of_isMark marks,
    ofHyphenated?_grouped length, ofSimple?_hex]

end GattSync.Uuid
