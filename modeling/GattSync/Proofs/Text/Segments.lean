import GattSync.Proofs.Text.Pieces

/-!
# Where a string of octets is cut

A character is cut out wherever its UTF-8 form begins, and an octet stands alone where no form
begins. There is one way to cut a string by this rule, and `pieces` finds it (`isCut_iff`).

Of a form only the first octet is no tail, so forms do not overlap. Strings that are joined are
therefore cut as each of them was, unless the first one breaks off within a form and the second one
begins with a tail (`pieces_append`). An octet stands alone if it is in no form anywhere in a string
(`isStray_iff`), and so do all octets of a form that breaks off (`pieces_of_append_eq_form`).
-/

namespace GattSync.Text

open Octets

/-- The UTF-8 form of a text. -/
def encode (text : List Char) : Bytes := text.flatMap String.utf8EncodeChar

/-- The octets are the UTF-8 form of some text. -/
def IsText (s : Bytes) : Prop := ∃ text, encode text = s

/-- The string begins with the UTF-8 form of a character. -/
def BeginsForm (s : Bytes) : Prop := ∃ c, String.utf8EncodeChar c <+: s

/-! ## The forms of characters -/

namespace Octets

/-- A well-formed sequence, and the character that it is the form of. -/
inductive IsForm : Char → Bytes → Prop where
  | single {a : UInt8} (h : a < 0x80) : IsForm (Char.ofNat a.toNat) [a]
  | pair {a b : UInt8} (h : isPair a b) : IsForm (pair a b) [a, b]
  | triple {a b c : UInt8} (h : isTriple a b c) : IsForm (triple a b c) [a, b, c]
  | quad {a b c d : UInt8} (h : isQuad a b c d) : IsForm (quad a b c d) [a, b, c, d]

variable {a b c d : UInt8} {x : Char} {s : Bytes}

theorem IsForm.utf8EncodeChar_eq (h : IsForm x s) : String.utf8EncodeChar x = s := by
  cases h with
  | single h => exact utf8EncodeChar_ofNat h
  | pair h => exact utf8EncodeChar_pair h
  | triple h => exact utf8EncodeChar_triple h
  | quad h => exact utf8EncodeChar_quad h

theorem IsForm.beginsForm_append (h : IsForm x s) (rest : Bytes) : BeginsForm (s ++ rest) :=
  ⟨x, rest, by rw [h.utf8EncodeChar_eq]⟩

theorem toNat_ofNat_of_lt {n : Nat} (h : n < 256) : (UInt8.ofNat n).toNat = n :=
  Nat.mod_eq_of_lt h

/-- The character of a sequence, from the number that its octets make up. -/
theorem IsForm.of_eq {n : Nat} (h : IsForm (Char.ofNat n) s) (hn : n = x.toNat) : IsForm x s := by
  rwa [hn, Char.ofNat_toNat] at h

/-- The form of every character is a well-formed sequence for it. -/
theorem isForm_utf8EncodeChar (x : Char) : IsForm x (String.utf8EncodeChar x) := by
  have valid : x.toNat < 0xd800 ∨ 0xdfff < x.toNat ∧ x.toNat < 0x110000 := x.valid
  have number : x.val.toNat = x.toNat := rfl
  unfold String.utf8EncodeChar
  simp only [number]
  generalize hv : x.toNat = v at valid
  split
  · case isTrue small =>
    have first : (UInt8.ofNat v).toNat = v := toNat_ofNat_of_lt (by omega)
    refine .of_eq (.single ?_) (first.trans hv.symm)
    rw [UInt8.lt_iff_toNat_lt, first]
    exact Nat.lt_succ_of_le small
  · split
    · case isTrue small =>
      have first := toNat_ofNat_of_lt (n := v / 64 % 32 + 192) (by omega)
      have second := toNat_ofNat_of_lt (n := v % 64 + 128) (by omega)
      refine .of_eq (.pair ?_) ?_
      · rw [isPair_iff, isTail_iff, first, second]
        omega
      · simp only [low, first, second]
        omega
    · split
      · case isTrue small =>
        have first := toNat_ofNat_of_lt (n := v / 4096 % 16 + 224) (by omega)
        have second := toNat_ofNat_of_lt (n := v / 64 % 64 + 128) (by omega)
        have third := toNat_ofNat_of_lt (n := v % 64 + 128) (by omega)
        refine .of_eq (.triple ?_) ?_
        · rw [isTriple_iff, isTail_iff, isTail_iff, first, second, third]
          omega
        · simp only [low, first, second, third]
          omega
      · have first := toNat_ofNat_of_lt (n := v / 262144 % 8 + 240) (by omega)
        have second := toNat_ofNat_of_lt (n := v / 4096 % 64 + 128) (by omega)
        have third := toNat_ofNat_of_lt (n := v / 64 % 64 + 128) (by omega)
        have fourth := toNat_ofNat_of_lt (n := v % 64 + 128) (by omega)
        refine .of_eq (.quad ?_) ?_
        · rw [isQuad_iff, isTail_iff, isTail_iff, isTail_iff, first, second, third, fourth]
          omega
        · simp only [low, first, second, third, fourth]
          omega

/-- Of a form only the first octet is no tail. -/
theorem IsForm.exists_eq_cons (h : IsForm x s) :
    ∃ a l, s = a :: l ∧ ¬isTail a ∧ ∀ b ∈ l, isTail b := by
  cases h with
  | single h =>
    have small : _ < 0x80 := UInt8.lt_iff_toNat_lt.mp h
    refine ⟨_, [], rfl, ?_, nofun⟩
    rw [isTail_iff]
    omega
  | pair h =>
    rw [isPair_iff] at h
    refine ⟨_, _, rfl, ?_, List.forall_mem_singleton.mpr h.2.2⟩
    rw [isTail_iff]
    omega
  | triple h =>
    simp only [isTriple_iff, isTail_iff] at h
    refine ⟨_, _, rfl, ?_, ?_⟩
    · rw [isTail_iff]
      omega
    · simp only [List.forall_mem_cons, isTail_iff]
      exact ⟨by omega, by omega, nofun⟩
  | quad h =>
    simp only [isQuad_iff, isTail_iff] at h
    refine ⟨_, _, rfl, ?_, ?_⟩
    · rw [isTail_iff]
      omega
    · simp only [List.forall_mem_cons, isTail_iff]
      exact ⟨by omega, by omega, by omega, nofun⟩

/-! ## The lengths exclude each other -/

theorem not_single_of_le (h : 0x80 ≤ a.toNat) : ¬a < 0x80 := by
  rw [UInt8.lt_iff_toNat_lt]
  exact Nat.not_lt.mpr h

theorem not_single_of_isPair (h : isPair a b) : ¬a < 0x80 := by
  rw [isPair_iff] at h
  exact not_single_of_le (by omega)

theorem not_shorter_of_isTriple (h : isTriple a b c) : ¬a < 0x80 ∧ ¬isPair a b := by
  rw [isTriple_iff] at h
  refine ⟨not_single_of_le (by omega), ?_⟩
  rw [isPair_iff]
  omega

theorem not_shorter_of_isQuad (h : isQuad a b c d) :
    ¬a < 0x80 ∧ ¬isPair a b ∧ ¬isTriple a b c := by
  rw [isQuad_iff] at h
  refine ⟨not_single_of_le (by omega), ?_, ?_⟩
  · rw [isPair_iff]
    omega
  · rw [isTriple_iff]
    omega

end Octets

/-! ## One cut -/

variable {a b : UInt8} {c : Char} {s t u w : Bytes} {ps : List Piece}

/-- A form is cut out as its character. -/
theorem pieces_form_append (c : Char) (s : Bytes) :
    pieces (String.utf8EncodeChar c ++ s) = .char c :: pieces s := by
  have form := isForm_utf8EncodeChar c
  generalize String.utf8EncodeChar c = t at form ⊢
  cases form with
  | single h => exact (pieces.eq_def _).trans (if_pos h)
  | pair h => exact (pieces.eq_def _).trans ((if_neg (not_single_of_isPair h)).trans (if_pos h))
  | triple h =>
    obtain ⟨single, pair⟩ := not_shorter_of_isTriple h
    exact (pieces.eq_def _).trans ((if_neg single).trans ((if_neg pair).trans (if_pos h)))
  | quad h =>
    obtain ⟨single, pair, triple⟩ := not_shorter_of_isQuad h
    exact (pieces.eq_def _).trans
      ((if_neg single).trans ((if_neg pair).trans ((if_neg triple).trans (if_pos h))))

/-- Where no form begins an octet stands alone. -/
theorem pieces_cons (h : ¬BeginsForm (a :: s)) : pieces (a :: s) = .octet a :: pieces s := by
  have single : ¬a < 0x80 := fun ha => h (IsForm.single ha |>.beginsForm_append s)
  cases s with
  | nil => exact (pieces.eq_def _).trans (if_neg single)
  | cons b s =>
    have pair : ¬isPair a b := fun hp => h (IsForm.pair hp |>.beginsForm_append s)
    cases s with
    | nil => exact (pieces.eq_def _).trans ((if_neg single).trans (if_neg pair))
    | cons c s =>
      have triple : ¬isTriple a b c := fun ht => h (IsForm.triple ht |>.beginsForm_append s)
      cases s with
      | nil =>
        exact (pieces.eq_def _).trans ((if_neg single).trans ((if_neg pair).trans (if_neg triple)))
      | cons d s =>
        have quad : ¬isQuad a b c d := fun hq => h (IsForm.quad hq |>.beginsForm_append s)
        exact (pieces.eq_def _).trans
          ((if_neg single).trans ((if_neg pair).trans ((if_neg triple).trans (if_neg quad))))

/-- A string is cut into characters where forms begin, and into single octets elsewhere. -/
inductive IsCut : Bytes → List Piece → Prop where
  | nil : IsCut [] []
  | char (c : Char) {s : Bytes} {ps : List Piece} :
    IsCut s ps → IsCut (String.utf8EncodeChar c ++ s) (.char c :: ps)
  | octet {a : UInt8} {s : Bytes} {ps : List Piece} (h : ¬BeginsForm (a :: s)) :
    IsCut s ps → IsCut (a :: s) (.octet a :: ps)

theorem isCut_pieces : (s : Bytes) → IsCut s (pieces s)
  | [] => .nil
  | a :: s => by
    by_cases h : BeginsForm (a :: s)
    · obtain ⟨c, rest, hs⟩ := h
      have shorter : rest.length < s.length + 1 := by
        have whole := congrArg List.length hs
        have nonempty := List.length_pos_iff.mpr (String.utf8EncodeChar_ne_nil (c := c))
        rw [List.length_append, List.length_cons] at whole
        omega
      rw [← hs, pieces_form_append]
      exact .char c (isCut_pieces rest)
    · rw [pieces_cons h]
      exact .octet h (isCut_pieces s)
termination_by s => s.length

theorem IsCut.pieces_eq (h : IsCut s ps) : pieces s = ps := by
  induction h with
  | nil => rfl
  | char c _ ih => rw [pieces_form_append, ih]
  | octet h _ ih => rw [pieces_cons h, ih]

/-- There is one way to cut a string, and it is taken. -/
theorem isCut_iff : IsCut s ps ↔ pieces s = ps :=
  ⟨IsCut.pieces_eq, fun h => h ▸ isCut_pieces s⟩

/-! ## Joined strings -/

theorem not_beginsForm_of_isTail (h : isTail a) : ¬BeginsForm (a :: s) := by
  rintro ⟨c, rest, hs⟩
  obtain ⟨first, others, form, fresh, -⟩ := (isForm_utf8EncodeChar c).exists_eq_cons
  rw [form] at hs
  exact fresh ((List.cons.inj hs).1 ▸ h)

/-- A form that goes on into a string goes on with a tail. -/
theorem BeginsForm.of_append (h : BeginsForm (a :: s ++ t)) (ht : ∀ b ∈ t.head?, ¬isTail b) :
    BeginsForm (a :: s) := by
  obtain ⟨c, hc⟩ := h
  rcases List.prefix_or_prefix_of_prefix hc (List.prefix_append (a :: s) t) with within | ⟨more, hm⟩
  · exact ⟨c, within⟩
  · rw [← hm, List.prefix_append_right_inj] at hc
    cases more with
    | nil =>
      rw [List.append_nil] at hm
      exact ⟨c, hm ▸ List.prefix_refl _⟩
    | cons b more =>
      obtain ⟨rest, rfl⟩ := hc
      obtain ⟨first, others, form, -, tails⟩ := (isForm_utf8EncodeChar c).exists_eq_cons
      rw [form, List.cons_append] at hm
      have last : b ∈ others := (List.cons.inj hm).2 ▸ List.mem_append_right s List.mem_cons_self
      exact absurd (tails b last) (ht b rfl)

theorem pieces_encode_append (text : List Char) (s : Bytes) :
    pieces (encode text ++ s) = text.map .char ++ pieces s := by
  induction text with
  | nil => rfl
  | cons c text ih =>
    rw [encode, List.flatMap_cons, List.append_assoc, pieces_form_append]
    exact congrArg _ ih

theorem pieces_encode (text : List Char) : pieces (encode text) = text.map .char := by
  simpa [pieces] using pieces_encode_append text []

/-- Strings are cut apart where the first is a text or the second does not go on with a tail. -/
theorem pieces_append (h : IsText s ∨ ∀ b ∈ t.head?, ¬isTail b) :
    pieces (s ++ t) = pieces s ++ pieces t := by
  rcases h with ⟨text, rfl⟩ | fresh
  · rw [pieces_encode_append, pieces_encode]
  · have cut := isCut_pieces s
    generalize pieces s = ps at cut ⊢
    induction cut with
    | nil => rfl
    | char c _ ih => rw [List.append_assoc, pieces_form_append, ih, List.cons_append]
    | @octet a s ps h _ ih =>
      have whole : ¬BeginsForm (a :: (s ++ t)) := fun begins => h (begins.of_append fresh)
      rw [List.cons_append, pieces_cons whole, ih, List.cons_append]

/-- A form is cut out wherever it stands. -/
theorem pieces_append_form_append (s : Bytes) (c : Char) (t : Bytes) :
    pieces (s ++ String.utf8EncodeChar c ++ t) = pieces s ++ .char c :: pieces t := by
  obtain ⟨first, others, form, fresh, -⟩ := (isForm_utf8EncodeChar c).exists_eq_cons
  rw [List.append_assoc, pieces_append, pieces_form_append]
  refine .inr fun b hb => ?_
  rw [form] at hb
  exact Option.some.inj hb ▸ fresh

/-! ## Stray octets -/

/-- In the string of an octet with these before and behind it, the octet is in no form. -/
def IsStray (before : Bytes) (b : UInt8) (behind : Bytes) : Prop :=
  ∀ front c back, before ++ b :: behind = front ++ String.utf8EncodeChar c ++ back →
    before.length < front.length ∨ (front ++ String.utf8EncodeChar c).length ≤ before.length

theorem IsStray.of_append (h : IsStray (s ++ t) b w) : IsStray t b w := by
  intro front c back hs
  have whole : s ++ t ++ b :: w = s ++ front ++ String.utf8EncodeChar c ++ back := by
    rw [List.append_assoc, hs]
    simp only [List.append_assoc]
  have place := h (s ++ front) c back whole
  simp only [List.length_append] at place ⊢
  omega

/-- A form that begins before a stray octet ends before it. -/
theorem IsStray.beginsForm (h : IsStray s b t) (begins : BeginsForm (s ++ b :: t)) :
    BeginsForm s := by
  obtain ⟨c, back, hs⟩ := begins
  have place := h [] c back hs.symm
  have short : (String.utf8EncodeChar c).length ≤ s.length := by simpa using place
  exact ⟨c, List.prefix_of_prefix_length_le ⟨back, hs⟩ (List.prefix_append s _) short⟩

theorem not_beginsForm_nil : ¬BeginsForm [] := by
  rintro ⟨c, hc⟩
  exact String.utf8EncodeChar_ne_nil (List.prefix_nil.mp hc)

/-- A stray octet stands alone, and what is before and behind it is cut as it was. -/
theorem pieces_append_cons_of_isStray (h : IsStray s b t) :
    pieces (s ++ b :: t) = pieces s ++ .octet b :: pieces t := by
  have cut := isCut_pieces s
  generalize pieces s = ps at cut ⊢
  induction cut with
  | nil => exact pieces_cons fun begins => not_beginsForm_nil (h.beginsForm begins)
  | char c _ ih => rw [List.append_assoc, pieces_form_append, ih h.of_append, List.cons_append]
  | @octet a s ps fresh _ ih =>
    have rest : IsStray s b t := IsStray.of_append (s := [a]) h
    have whole : ¬BeginsForm (a :: (s ++ b :: t)) := fun begins => fresh (h.beginsForm begins)
    rw [List.cons_append, pieces_cons whole, ih rest, List.cons_append]

/-- Octets behind the first one of a form stand alone where none of it is before them. -/
theorem pieces_append_of_forall_isTail (h : ∀ b ∈ s, isTail b) (t : Bytes) :
    pieces (s ++ t) = s.map .octet ++ pieces t := by
  induction s with
  | nil => rfl
  | cons a s ih =>
    obtain ⟨first, others⟩ := List.forall_mem_cons.mp h
    rw [List.cons_append, pieces_cons (not_beginsForm_of_isTail first), ih others]
    rfl

/-- A form is no longer than one that it begins with. -/
theorem eq_nil_of_form_append_eq_form {d : Char}
    (h : String.utf8EncodeChar d ++ s = String.utf8EncodeChar c) : s = [] := by
  have cut := pieces_form_append c []
  rw [List.append_nil, ← h, pieces_form_append] at cut
  obtain rfl := Piece.char.inj (List.cons.inj cut).1
  exact List.append_right_eq_self.mp h

/-- A form that has begun begins with no tail. -/
theorem not_isTail_of_append_eq_form (h : s ++ t = String.utf8EncodeChar c) :
    ∀ b ∈ s.head?, ¬isTail b := by
  obtain ⟨first, others, whole, fresh, -⟩ := (isForm_utf8EncodeChar c).exists_eq_cons
  rw [whole] at h
  cases s with
  | nil => exact nofun
  | cons a s =>
    rintro _ ⟨⟩
    exact (List.cons.inj h).1 ▸ fresh

/-- All octets of a form that breaks off stand alone. -/
theorem pieces_of_append_eq_form (h : s ++ t = String.utf8EncodeChar c) (broken : t ≠ []) :
    pieces s = s.map .octet := by
  cases s with
  | nil => rfl
  | cons a s =>
    have fresh : ¬BeginsForm (a :: s) := by
      rintro ⟨d, more, hd⟩
      rw [← hd, List.append_assoc] at h
      exact broken (List.append_eq_nil_iff.mp (eq_nil_of_form_append_eq_form h)).2
    obtain ⟨first, others, form, -, tails⟩ := (isForm_utf8EncodeChar c).exists_eq_cons
    rw [form, List.cons_append] at h
    have rest : ∀ b ∈ s, isTail b := fun b hb =>
      tails b ((List.cons.inj h).2 ▸ List.mem_append_left t hb)
    have alone := pieces_append_of_forall_isTail rest []
    rw [List.append_nil] at alone
    rw [pieces_cons fresh, alone, List.map_cons]
    exact congrArg _ (List.append_nil _)

/-- The octets in no form are those that stand alone. -/
theorem isStray_iff : IsStray s b t ↔ pieces (s ++ b :: t) = pieces s ++ .octet b :: pieces t := by
  refine ⟨pieces_append_cons_of_isStray, fun alone front c back whole => ?_⟩
  rcases Nat.lt_or_ge s.length front.length with beyond | reaches
  · exact .inl beyond
  refine .inr (Nat.not_lt.mp fun covers => ?_)
  -- A form that had the octet would have begun in `s`, and would be broken off there.
  obtain ⟨begun, rfl⟩ : front <+: s :=
    List.prefix_of_prefix_length_le ⟨_, (List.append_assoc ..) ▸ whole.symm⟩
      (List.prefix_append s _) reaches
  simp only [List.append_assoc, List.append_cancel_left_eq, List.length_append] at whole covers
  obtain ⟨missing, form⟩ : begun ++ [b] <+: String.utf8EncodeChar c :=
    List.prefix_of_prefix_length_le ⟨t, by simpa using whole⟩ (List.prefix_append _ back)
      (by rw [List.length_append, List.length_singleton]; omega)
  have begins : begun ++ b :: missing = String.utf8EncodeChar c := by simpa using form
  rw [List.append_assoc, whole, ← List.append_assoc, pieces_append_form_append,
    pieces_append (.inr (not_isTail_of_append_eq_form begins)),
    pieces_of_append_eq_form begins (List.cons_ne_nil b missing), List.append_assoc,
    List.append_cancel_left_eq] at alone
  cases begun with
  | nil => cases alone
  | cons a begun => cases alone

/-- Whether an octet is in no form can be told by cutting the string. -/
instance : Decidable (IsStray s b t) := decidable_of_iff _ isStray_iff.symm

end GattSync.Text
