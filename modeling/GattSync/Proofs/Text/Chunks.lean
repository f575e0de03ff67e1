import GattSync.Proofs.Text.Segments
import GattSync.Proofs.Text.Quotation

/-!
# Quoting by chunks

A payload can also be quoted without being cut into pieces: the longest text at its front is written
as it is, then the octets of the ill-formed sequence behind it, and so on with the rest
(`Payload.chunks?`). How long an ill-formed sequence is, is told by the reader of texts, unless it
is the end of the payload that breaks it off; then it is all that is left.
-/

namespace GattSync.Text

open Octets

/-! ## Reading a text -/

/-- Where a string of octets stops being a text. -/
structure Flaw where
  /-- So many octets in front are a text. -/
  good : Nat
  /-- The length of the ill-formed sequence behind them; none if it is broken off by the end. -/
  bad? : Option Nat
  deriving DecidableEq, Repr

/-- What is read behind a character whose form has this length. -/
def readBehind (c : Char) (length : Nat) :
    Except Flaw (List Char) → Except Flaw (List Char)
  | .ok text => .ok (c :: text)
  | .error flaw => .error { flaw with good := length + flaw.good }

namespace Octets

/-- The two octets can begin a sequence of three. -/
def leadsTriple (a b : UInt8) : Bool :=
  a == 0xe0 && 0xa0 ≤ b && b ≤ 0xbf || 0xe1 ≤ a && a ≤ 0xec && isTail b ||
    a == 0xed && 0x80 ≤ b && b ≤ 0x9f || 0xee ≤ a && a ≤ 0xef && isTail b

/-- The two octets can begin a sequence of four. -/
def leadsQuad (a b : UInt8) : Bool :=
  a == 0xf0 && 0x90 ≤ b && b ≤ 0xbf || 0xf1 ≤ a && a ≤ 0xf3 && isTail b ||
    a == 0xf4 && 0x80 ≤ b && b ≤ 0x8f

end Octets

/-- The text whose form a string is, or its first flaw. A sequence is ill-formed up to the octet
that cannot be part of it, and that octet is none of it unless it is the first one. -/
def readText : Bytes → Except Flaw (List Char)
  | [] => .ok []
  | a :: l =>
    if a < 0x80 then readBehind (Char.ofNat a.toNat) 1 (readText l)
    else if 0xc2 ≤ a && a ≤ 0xdf then
      match l with
      | [] => .error ⟨0, none⟩
      | b :: m => if isTail b then readBehind (pair a b) 2 (readText m) else .error ⟨0, some 1⟩
    else if 0xe0 ≤ a && a ≤ 0xef then
      match l with
      | [] => .error ⟨0, none⟩
      | b :: m =>
        if leadsTriple a b then
          match m with
          | [] => .error ⟨0, none⟩
          | c :: n =>
            if isTail c then readBehind (triple a b c) 3 (readText n) else .error ⟨0, some 2⟩
        else .error ⟨0, some 1⟩
    else if 0xf0 ≤ a && a ≤ 0xf4 then
      match l with
      | [] => .error ⟨0, none⟩
      | b :: m =>
        if leadsQuad a b then
          match m with
          | [] => .error ⟨0, none⟩
          | c :: n =>
            if isTail c then
              match n with
              | [] => .error ⟨0, none⟩
              | d :: o =>
                if isTail d then readBehind (quad a b c d) 4 (readText o) else .error ⟨0, some 3⟩
            else .error ⟨0, some 2⟩
        else .error ⟨0, some 1⟩
    else .error ⟨0, some 1⟩

/-- The first of the strings is not empty, and all its octets stand alone in front of the other. -/
def StandAlone (bad rest : Bytes) : Prop :=
  bad ≠ [] ∧ pieces (bad ++ rest) = bad.map .octet ++ pieces rest

/-- What reading a string gives: its text, or the place and the length of what is no text. -/
inductive Reads : Bytes → Except Flaw (List Char) → Prop where
  | text (text : List Char) : Reads (encode text) (.ok text)
  | ill (text : List Char) {bad rest : Bytes} (h : StandAlone bad rest) :
    Reads (encode text ++ (bad ++ rest)) (.error ⟨(encode text).length, some bad.length⟩)
  | brokenOff (text : List Char) {bad : Bytes} (h : StandAlone bad []) :
    Reads (encode text ++ bad) (.error ⟨(encode text).length, none⟩)

variable {a b c d : UInt8} {x : Char} {s l m n o bad rest : Bytes}
  {r : Except Flaw (List Char)}

theorem Reads.behind (form : IsForm x s) (h : Reads rest r) :
    Reads (s ++ rest) (readBehind x s.length r) := by
  have whole (text : List Char) : encode (x :: text) = s ++ encode text := by
    rw [← form.utf8EncodeChar_eq]
    rfl
  cases h with
  | text text => exact whole text ▸ .text (x :: text)
  | ill text h =>
    have further := Reads.ill (x :: text) h
    rwa [whole, List.append_assoc, List.length_append] at further
  | brokenOff text h =>
    have further := Reads.brokenOff (x :: text) h
    rwa [whole, List.append_assoc, List.length_append] at further

/-! ## Sequences by their first octet -/

/-- How the form of a character can begin, and how it goes on from there. -/
inductive Beginning : UInt8 → Bytes → Prop where
  | single {a : UInt8} {l : Bytes} (first : a.toNat < 0x80) : Beginning a l
  | pair {a b : UInt8} {m : Bytes} (first : 0xc2 ≤ a.toNat ∧ a.toNat ≤ 0xdf)
    (second : isTail b) : Beginning a (b :: m)
  | triple {a b c : UInt8} {n : Bytes} (first : 0xe0 ≤ a.toNat ∧ a.toNat ≤ 0xef)
    (second : leadsTriple a b) (third : isTail c) : Beginning a (b :: c :: n)
  | quad {a b c d : UInt8} {o : Bytes} (first : 0xf0 ≤ a.toNat ∧ a.toNat ≤ 0xf4)
    (second : leadsQuad a b) (third : isTail c) (fourth : isTail d) :
    Beginning a (b :: c :: d :: o)

theorem isTriple_eq : isTriple a b c = (isTail c && leadsTriple a b) := rfl

theorem isQuad_eq : isQuad a b c d = (isTail c && isTail d && leadsQuad a b) := rfl

theorem beginning_of_beginsForm (h : BeginsForm (a :: l)) : Beginning a l := by
  obtain ⟨x, rest, hs⟩ := h
  have form := isForm_utf8EncodeChar x
  generalize String.utf8EncodeChar x = s at form hs
  cases form with
  | single h =>
    obtain ⟨rfl, rfl⟩ := List.cons.inj hs
    exact .single h
  | pair h =>
    obtain ⟨rfl, rfl⟩ := List.cons.inj hs
    rw [isPair_iff] at h
    exact .pair ⟨h.1, h.2.1⟩ h.2.2
  | triple h =>
    obtain ⟨rfl, rfl⟩ := List.cons.inj hs
    have bounds := isTriple_iff.mp h
    rw [isTriple_eq, Bool.and_eq_true] at h
    exact .triple (by omega) h.2 h.1
  | quad h =>
    obtain ⟨rfl, rfl⟩ := List.cons.inj hs
    have bounds := isQuad_iff.mp h
    rw [isQuad_eq, Bool.and_eq_true, Bool.and_eq_true] at h
    exact .quad (by omega) h.2 h.1.1 h.1.2

/-- An octet that begins no form stands alone, and so do the tails behind it. -/
theorem standAlone (h : ¬Beginning a (s ++ rest)) (tails : ∀ b ∈ s, isTail b) :
    StandAlone (a :: s) rest := by
  refine ⟨List.cons_ne_nil a s, ?_⟩
  rw [List.cons_append, pieces_cons fun begins => h (beginning_of_beginsForm begins),
    pieces_append_of_forall_isTail tails]
  rfl

theorem isTail_of_leadsTriple (h : leadsTriple a b) : isTail b := by
  have extended : isTriple a b 0x80 := by
    rw [isTriple_eq, h]
    rfl
  simp only [isTriple_iff, isTail_iff] at extended ⊢
  omega

theorem isTail_of_leadsQuad (h : leadsQuad a b) : isTail b := by
  have extended : isQuad a b 0x80 0x80 := by
    rw [isQuad_eq, h]
    rfl
  simp only [isQuad_iff, isTail_iff] at extended ⊢
  omega

theorem not_beginning_of_pair (first : 0xc2 ≤ a.toNat ∧ a.toNat ≤ 0xdf)
    (h : ∀ b m, l = b :: m → ¬isTail b) : ¬Beginning a l := by
  intro begins
  cases begins with
  | single other => omega
  | pair _ second => exact h _ _ rfl second
  | triple other => omega
  | quad other => omega

theorem not_beginning_of_triple (first : 0xe0 ≤ a.toNat ∧ a.toNat ≤ 0xef)
    (h : ∀ b c n, l = b :: c :: n → leadsTriple a b → ¬isTail c) : ¬Beginning a l := by
  intro begins
  cases begins with
  | single other => omega
  | pair other => omega
  | triple _ second third => exact h _ _ _ rfl second third
  | quad other => omega

theorem not_beginning_of_quad (first : 0xf0 ≤ a.toNat ∧ a.toNat ≤ 0xf4)
    (h : ∀ b c d o, l = b :: c :: d :: o → leadsQuad a b → isTail c → ¬isTail d) :
    ¬Beginning a l := by
  intro begins
  cases begins with
  | single other => omega
  | pair other => omega
  | triple other => omega
  | quad _ second third fourth => exact h _ _ _ _ rfl second third fourth

theorem isPair_of_between (first : (0xc2 ≤ a && a ≤ 0xdf) = true) (second : isTail b) :
    isPair a b := by
  rw [isPair, first, second]
  rfl

theorem toNat_between {lo hi : UInt8} (h : (lo ≤ a && a ≤ hi) = true) :
    lo.toNat ≤ a.toNat ∧ a.toNat ≤ hi.toNat := by
  simpa [UInt8.le_iff_toNat_le] using h

/-! ## What is read, by the first octet -/

/-- A string whose first octet begins no form is a flaw that takes in the tails behind it. -/
theorem reads_ill (s : Bytes) (fresh : ¬Beginning a (s ++ rest)) (tails : ∀ b ∈ s, isTail b) :
    Reads (a :: (s ++ rest)) (.error ⟨0, some (s.length + 1)⟩) :=
  .ill [] (standAlone fresh tails)

/-- If there are only tails behind an octet that begins no form, the flaw is broken off. -/
theorem reads_brokenOff (fresh : ¬Beginning a s) (tails : ∀ b ∈ s, isTail b) :
    Reads (a :: s) (.error ⟨0, none⟩) :=
  .brokenOff [] (standAlone (by rwa [List.append_nil]) tails)

theorem reads_single (first : a < 0x80) (ih : Reads l (readText l)) :
    Reads (a :: l) (readText (a :: l)) := by
  rw [readText.eq_def]
  simp only [if_pos first]
  exact ih.behind (.single first)

theorem reads_pair (single : ¬a < 0x80) (first : (0xc2 ≤ a && a ≤ 0xdf) = true)
    (ih : ∀ m : Bytes, m.length < l.length → Reads m (readText m)) :
    Reads (a :: l) (readText (a :: l)) := by
  have range := toNat_between first
  rw [readText.eq_def]
  simp only [if_neg single, if_pos first]
  cases l with
  | nil => exact reads_brokenOff (not_beginning_of_pair range nofun) nofun
  | cons b m =>
    dsimp only
    split
    next second => exact (ih m (Nat.lt_add_one _)).behind (.pair (isPair_of_between first second))
    next second =>
      refine reads_ill [] (not_beginning_of_pair range ?_) nofun
      rintro _ _ ⟨⟩
      exact second

theorem reads_triple (single : ¬a < 0x80) (pair : ¬(0xc2 ≤ a && a ≤ 0xdf) = true)
    (first : (0xe0 ≤ a && a ≤ 0xef) = true)
    (ih : ∀ m : Bytes, m.length < l.length → Reads m (readText m)) :
    Reads (a :: l) (readText (a :: l)) := by
  have range := toNat_between first
  rw [readText.eq_def]
  simp only [if_neg single, if_neg pair, if_pos first]
  rcases l with _ | ⟨b, m⟩
  · exact reads_brokenOff (not_beginning_of_triple range nofun) nofun
  dsimp only
  split
  next second =>
    have tails : ∀ x ∈ [b], isTail x := by simpa using isTail_of_leadsTriple second
    rcases m with _ | ⟨c, n⟩
    · exact reads_brokenOff (not_beginning_of_triple range nofun) tails
    dsimp only
    split
    next third =>
      refine (ih n (by simp only [List.length_cons]; omega)).behind (.triple ?_)
      rw [isTriple_eq, second, third]
      rfl
    next third =>
      refine reads_ill [b] (not_beginning_of_triple range ?_) tails
      rintro _ _ _ ⟨⟩ _
      exact third
  next second =>
    refine reads_ill [] (not_beginning_of_triple range ?_) nofun
    rintro _ _ _ ⟨⟩ other
    exact absurd other second

theorem reads_quad (single : ¬a < 0x80) (pair : ¬(0xc2 ≤ a && a ≤ 0xdf) = true)
    (triple : ¬(0xe0 ≤ a && a ≤ 0xef) = true) (first : (0xf0 ≤ a && a ≤ 0xf4) = true)
    (ih : ∀ m : Bytes, m.length < l.length → Reads m (readText m)) :
    Reads (a :: l) (readText (a :: l)) := by
  have range := toNat_between first
  rw [readText.eq_def]
  simp only [if_neg single, if_neg pair, if_neg triple, if_pos first]
  rcases l with _ | ⟨b, m⟩
  · exact reads_brokenOff (not_beginning_of_quad range nofun) nofun
  dsimp only
  split
  next second =>
    have tail := isTail_of_leadsQuad second
    rcases m with _ | ⟨c, n⟩
    · exact reads_brokenOff (not_beginning_of_quad range nofun) (by simpa using tail)
    dsimp only
    split
    next third =>
      have tails : ∀ x ∈ [b, c], isTail x := by simpa using ⟨tail, third⟩
      rcases n with _ | ⟨d, o⟩
      · exact reads_brokenOff (not_beginning_of_quad range nofun) tails
      dsimp only
      split
      next fourth =>
        refine (ih o (by simp only [List.length_cons]; omega)).behind (.quad ?_)
        rw [isQuad_eq, second, third, fourth]
        rfl
      next fourth =>
        refine reads_ill [b, c] (not_beginning_of_quad range ?_) tails
        rintro _ _ _ _ ⟨⟩ _ _
        exact fourth
    next third =>
      refine reads_ill [b] (not_beginning_of_quad range ?_) (by simpa using tail)
      rintro _ _ _ _ ⟨⟩ _ other
      exact absurd other third
  next second =>
    refine reads_ill [] (not_beginning_of_quad range ?_) nofun
    rintro _ _ _ _ ⟨⟩ other
    exact absurd other second

theorem reads_stray (single : ¬a < 0x80) (pair : ¬(0xc2 ≤ a && a ≤ 0xdf) = true)
    (triple : ¬(0xe0 ≤ a && a ≤ 0xef) = true) (quad : ¬(0xf0 ≤ a && a ≤ 0xf4) = true) :
    Reads (a :: l) (readText (a :: l)) := by
  rw [readText.eq_def]
  simp only [if_neg single, if_neg pair, if_neg triple, if_neg quad]
  have fresh : ¬Beginning a l := by
    simp only [Bool.and_eq_true, decide_eq_true_eq, UInt8.le_iff_toNat_le,
      UInt8.lt_iff_toNat_lt, UInt8.reduceToNat] at single pair triple quad
    rintro ⟨⟩ <;> omega
  exact reads_ill [] fresh nofun

/-- What is read of a string is its text, and what is no text is told apart by octets that all
stand alone. -/
theorem reads_readText : ∀ s : Bytes, Reads s (readText s)
  | [] => .text []
  | a :: l => by
    have ih (m : Bytes) (_ : m.length ≤ l.length) : Reads m (readText m) := reads_readText m
    have ahead (m : Bytes) (h : m.length < l.length) := ih m (Nat.le_of_lt h)
    by_cases single : a < 0x80
    · exact reads_single single (ih l (Nat.le_refl _))
    by_cases pair : (0xc2 ≤ a && a ≤ 0xdf) = true
    · exact reads_pair single pair ahead
    by_cases triple : (0xe0 ≤ a && a ≤ 0xef) = true
    · exact reads_triple single pair triple ahead
    by_cases quad : (0xf0 ≤ a && a ≤ 0xf4) = true
    · exact reads_quad single pair triple quad ahead
    · exact reads_stray single pair triple quad
  termination_by s => s.length

theorem readText_encode (text : List Char) : readText (encode text) = .ok text := by
  have reads := reads_readText (encode text)
  have cut := pieces_encode text
  generalize readText (encode text) = r at reads ⊢
  generalize encode text = s at reads cut
  have noOctet (b : UInt8) : Piece.octet b ∉ text.map .char := by simp
  cases reads with
  | text other =>
    rw [pieces_encode] at cut
    rw [(List.map_inj_right fun _ _ => Piece.char.inj).mp cut]
  | @ill other bad rest h =>
    obtain ⟨b, bad, rfl⟩ := List.exists_cons_of_ne_nil h.1
    rw [pieces_encode_append, h.2] at cut
    exact absurd (cut ▸ by simp) (noOctet b)
  | @brokenOff other bad h =>
    obtain ⟨b, bad, rfl⟩ := List.exists_cons_of_ne_nil h.1
    have alone := h.2
    rw [List.append_nil] at alone
    rw [pieces_encode_append, alone] at cut
    exact absurd (cut ▸ by simp) (noOctet b)

/-! ## Quoting -/

namespace Payload

/-- The two parts of a string in front of a place and from there on, if it has that place. -/
def split? (place : Nat) (s : Bytes) : Option (Bytes × Bytes) :=
  if place ≤ s.length then some (s.splitAt place) else none

/-- How a text is written, and nothing for what is no text. -/
def writeText (s : Bytes) : List Char :=
  match readText s with
  | .ok text => text.flatMap escapeChar
  | .error _ => []

/-- How an ill-formed sequence is written. -/
def writeOctets (s : Bytes) : List Char := s.flatMap fun b => escape (.octet b)

/-- What one pass writes, and what it leaves. -/
def pass? (rest : Bytes) : Option (List Char × Bytes) :=
  match readText rest with
  | .ok text => some (text.flatMap escapeChar, [])
  | .error flaw => do
    let (valid, others) ← split? flaw.good rest
    let (bad, left) ← split? (flaw.bad?.getD others.length) others
    some (writeText valid ++ writeOctets bad, left)

/-- What is written in so many passes at most; none if they do not come to the end. -/
def chunks? : (passes : Nat) → Bytes → Option (List Char)
  | _, [] => some []
  | 0, _ :: _ => none
  | passes + 1, a :: rest => do
    let (chunk, left) ← pass? (a :: rest)
    let more ← chunks? passes left
    some (chunk ++ more)

variable {text : List Char} {payload : Bytes}

theorem split?_append (s t : Bytes) : split? s.length (s ++ t) = some (s, t) := by
  rw [split?, if_pos (by simp), List.splitAt_eq]
  simp

theorem split?_length (s : Bytes) : split? s.length s = some (s, []) := by
  simpa using split?_append s []

theorem writeText_encode : writeText (encode text) = text.flatMap escapeChar := by
  rw [writeText, readText_encode]

theorem body_encode_append (text : List Char) (s : Bytes) :
    body (encode text ++ s) = text.flatMap escapeChar ++ body s := by
  rw [body, pieces_encode_append, List.flatMap_append, List.flatMap_map]
  rfl

theorem body_append_of_standAlone {bad rest : Bytes} (h : StandAlone bad rest) :
    body (bad ++ rest) = writeOctets bad ++ body rest := by
  rw [body, h.2, List.flatMap_append, List.flatMap_map]
  rfl

/-- A pass writes what it does not leave, and leaves less than there was. -/
theorem exists_pass?_eq (h : payload ≠ []) :
    ∃ chunk left, pass? payload = some (chunk, left) ∧ left.length < payload.length ∧
      body payload = chunk ++ body left := by
  have reads := reads_readText payload
  unfold pass?
  generalize readText payload = r at reads ⊢
  cases reads with
  | text text =>
    refine ⟨_, _, rfl, List.length_pos_iff.mpr h, ?_⟩
    simpa using body_encode_append text []
  | @ill text bad rest alone =>
    have nonempty := List.length_pos_iff.mpr alone.1
    refine ⟨writeText (encode text) ++ writeOctets bad, rest, ?_, ?_, ?_⟩
    · simp [split?_append]
    · simp only [List.length_append]
      omega
    · rw [body_encode_append, body_append_of_standAlone alone, writeText_encode, List.append_assoc]
  | @brokenOff text bad alone =>
    refine ⟨writeText (encode text) ++ writeOctets bad, [], ?_, ?_, ?_⟩
    · simp [split?_append, split?_length]
    · exact List.length_pos_iff.mpr h
    · have last := body_append_of_standAlone alone
      rw [List.append_nil] at last
      rw [body_encode_append, last, writeText_encode, List.append_assoc]

/-- The passes come to the end, and together they write the payload. -/
theorem chunks?_eq {passes : Nat} (h : payload.length ≤ passes) :
    chunks? passes payload = some (body payload) := by
  induction passes generalizing payload with
  | zero =>
    obtain rfl := List.length_eq_zero_iff.mp (Nat.le_zero.mp h)
    rfl
  | succ passes ih =>
    cases payload with
    | nil => rfl
    | cons a rest =>
      obtain ⟨chunk, left, pass, shorter, whole⟩ := exists_pass?_eq (List.cons_ne_nil a rest)
      rw [chunks?, pass, whole]
      simp only [Option.bind_eq_bind, Option.bind_some]
      rw [ih (by omega), Option.bind_some]

/-- The seams between chunks cannot be seen: a quoted payload tells characters from stray octets,
wherever they stand, and nothing else. -/
structure Seamless : Prop where
  /-- No more passes are made than there are octets, and what they write is the payload quoted. -/
  terminates (payload : Bytes) {passes : Nat} (h : payload.length ≤ passes) :
    (chunks? passes payload).map (fun chunks => String.ofList ('"' :: chunks ++ ['"'])) =
      some (quote payload)
  /-- Joined strings are written as each of them is, if the first is a text or the second does not
  go on with a tail. -/
  joined {s t : Bytes} (h : IsText s ∨ ∀ b ∈ t.head?, ¬isTail b) : body (s ++ t) = body s ++ body t
  /-- A character is written in one way, wherever its form stands. -/
  char (s : Bytes) (c : Char) (t : Bytes) :
    body (s ++ String.utf8EncodeChar c ++ t) = body s ++ escapeChar c ++ body t
  /-- That is as itself or as an escape that stands for it. -/
  element (c : Char) : IsElement (escapeChar c) (String.utf8EncodeChar c)
  /-- An octet that is in no form is written as one escape. -/
  stray {s t : Bytes} {b : UInt8} (h : IsStray s b t) :
    body (s ++ b :: t) = body s ++ ('\\' :: 'x' :: hex 2 b.toNat) ++ body t
  /-- So is every octet of a form that breaks off, at the end or before what does not go on. -/
  brokenOff {form missing : Bytes} {c : Char} (h : form ++ missing = String.utf8EncodeChar c)
    (broken : missing ≠ []) (s : Bytes) {t : Bytes} (ht : ∀ b ∈ t.head?, ¬isTail b) :
    body (s ++ form ++ t) =
      body s ++ form.flatMap (fun b => '\\' :: 'x' :: hex 2 b.toNat) ++ body t

theorem body_append {s t : Bytes} (h : IsText s ∨ ∀ b ∈ t.head?, ¬isTail b) :
    body (s ++ t) = body s ++ body t := by
  rw [body, pieces_append h, List.flatMap_append]
  rfl

theorem body_brokenOff {form missing : Bytes} {c : Char}
    (h : form ++ missing = String.utf8EncodeChar c) (broken : missing ≠ []) :
    body form = writeOctets form := by
  rw [body, pieces_of_append_eq_form h broken, List.flatMap_map]
  rfl

theorem quote_seamless : Seamless where
  terminates payload passes h := by
    rw [chunks?_eq h]
    rfl
  joined := body_append
  char s c t := by
    rw [body, pieces_append_form_append, List.flatMap_append, List.append_assoc]
    rfl
  element c := isElement_escape (.char c)
  stray h := by
    rw [body, pieces_append_cons_of_isStray h, List.flatMap_append, List.append_assoc]
    rfl
  brokenOff h broken s t ht := by
    rw [body_append (.inr ht), body_append (.inr (not_isTail_of_append_eq_form h)),
      body_brokenOff h broken]
    rfl

/-- A euro sign that breaks off before a full stop, and an octet that no form has. -/
theorem quote_seamless_euro :
    [0xe2, 0x82] ++ [0xac] = String.utf8EncodeChar '€' ∧
      body ([0x35] ++ [0xe2, 0x82] ++ [0x2e]) =
        body [0x35] ++ ['\\', 'x', 'e', '2', '\\', 'x', '8', '2'] ++ body [0x2e] ∧
      IsStray [0x35] 0xff [] ∧
      body ([0x35] ++ [0xff]) = body [0x35] ++ ['\\', 'x', 'f', 'f'] ++ body [] := by
  have form : [0xe2, 0x82] ++ [0xac] = String.utf8EncodeChar '€' := by decide
  have fresh : ∀ b ∈ [(0x2e : UInt8)].head?, ¬isTail b := by
    rintro _ ⟨⟩
    decide
  have stray : IsStray [0x35] 0xff [] := by decide
  exact ⟨form, quote_seamless.brokenOff form (List.cons_ne_nil _ _) [0x35] fresh, stray,
    quote_seamless.stray stray⟩

end Payload

end GattSync.Text
