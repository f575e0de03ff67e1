import GattSync.Proofs.Text.Hexadecimal
import GattSync.Proofs.Text.Pieces
import Mathlib.Data.Option.Basic

/-!
# Quoting loses nothing

A quoted payload is a literal, that is a sequence of elements: characters that stand for themselves,
and escapes of three kinds (`IsElement`). An `\x` escape stands for an octet, and every other
element for the UTF-8 form of a character. `decode?` reads a literal without knowing how it came
about.

Quoting gives a literal for the payload, and reading it gives the payload again (`quote_lossless`),
whatever valid and stray octets it mixes. So no two payloads are reported as the same text.
-/

namespace GattSync.Text.Payload

/-! ## Literals -/

/-- The character that a letter stands for after a backslash. -/
def ofLetter? (l : Char) : Option Char :=
  match l with
  | '"' => some '"'
  | '\\' => some '\\'
  | 'a' => some '\x07'
  | 'b' => some '\x08'
  | 'f' => some '\x0c'
  | 'n' => some '\n'
  | 'r' => some '\r'
  | 't' => some '\t'
  | 'v' => some '\x0b'
  | _ => none

/-- A character that may stand for itself. -/
def isPlain (c : Char) : Bool := c != '"' && c != '\\' && !isControl c

/-- The octets that a literal without its quotes stands for. -/
def decode? : List Char → Option Bytes
  | [] => some []
  | '\\' :: 'x' :: a :: b :: rest => do
    let n ← Uuid.hexNumber? [a, b]
    let payload ← decode? rest
    some (UInt8.ofNat n :: payload)
  | '\\' :: 'u' :: a :: b :: c :: d :: rest => do
    let n ← Uuid.hexNumber? [a, b, c, d]
    guard n.isValidChar
    let payload ← decode? rest
    some (String.utf8EncodeChar (Char.ofNat n) ++ payload)
  | '\\' :: l :: rest => do
    let c ← ofLetter? l
    let payload ← decode? rest
    some (String.utf8EncodeChar c ++ payload)
  | c :: rest => do
    guard (isPlain c)
    let payload ← decode? rest
    some (String.utf8EncodeChar c ++ payload)

/-- An element of a literal, and the octets that it stands for. -/
inductive IsElement : List Char → Bytes → Prop
  | plain {c : Char} (h : isPlain c) : IsElement [c] (String.utf8EncodeChar c)
  /-- A quote, a backslash, or one of the letters a, b, f, n, r, t and v, after a backslash. -/
  | letter {l c : Char} (h : ofLetter? l = some c) :
    IsElement ['\\', l] (String.utf8EncodeChar c)
  | octet {a b : Char} {n : Nat} (h : Uuid.hexNumber? [a, b] = some n) :
    IsElement ['\\', 'x', a, b] [UInt8.ofNat n]
  | unit {a b c d : Char} {n : Nat} (h : Uuid.hexNumber? [a, b, c, d] = some n)
      (hv : n.isValidChar) :
    IsElement ['\\', 'u', a, b, c, d] (String.utf8EncodeChar (Char.ofNat n))

/-- A literal is any number of elements, and stands for the octets of all of them in order. -/
inductive Denotes : List Char → Bytes → Prop
  | nil : Denotes [] []
  | cons {element rest : List Char} {octets payload : Bytes} (h : IsElement element octets) :
    Denotes rest payload → Denotes (element ++ rest) (octets ++ payload)

/-- An element is read as what it stands for, whatever follows it. -/
theorem IsElement.decode?_append {element : List Char} {octets : Bytes}
    (h : IsElement element octets) (rest : List Char) :
    decode? (element ++ rest) = (decode? rest).map (octets ++ ·) := by
  cases h with
  | @plain c h =>
    have backslash : c ≠ '\\' := by
      rintro rfl
      cases h
    rw [List.singleton_append, decode?]
    · simp only [h, guard, if_true, Option.bind_eq_bind, Option.map_eq_bind]
      rfl
    all_goals simp [backslash]
  | @letter l c h =>
    have x : l ≠ 'x' := by
      rintro rfl
      cases h
    have u : l ≠ 'u' := by
      rintro rfl
      cases h
    rw [List.cons_append, List.singleton_append, decode?]
    · simp only [h, Option.bind_eq_bind, Option.map_eq_bind]
      rfl
    all_goals simp [x, u]
  | octet h =>
    simp only [List.cons_append, List.nil_append, decode?, h, Option.bind_eq_bind,
      Option.map_eq_bind, Option.bind_some]
    rfl
  | unit h hv =>
    simp only [List.cons_append, List.nil_append, decode?, h, hv, guard, if_true,
      Option.bind_eq_bind, Option.map_eq_bind, Option.bind_some]
    rfl

/-- A literal is read as what it stands for. -/
theorem Denotes.decode?_eq {s : List Char} {payload : Bytes} (h : Denotes s payload) :
    decode? s = some payload := by
  induction h with
  | nil => rfl
  | cons h _ ih => rw [h.decode?_append, ih, Option.map_some]

/-- A hexadecimal digit is no control character. -/
theorem isControl_of_hexValue? {c : Char} {n : Nat} (h : hexValue? c = some n) :
    isControl c = false := by
  simp only [hexValue?] at h
  simp only [isControl, Bool.or_eq_false_iff, Bool.and_eq_false_iff, decide_eq_false_iff_not]
  split at h
  · omega
  · split at h
    · omega
    · split at h
      · omega
      · cases h

/-- Nor is a letter that stands for a character. -/
theorem isControl_of_ofLetter? {l c : Char} (h : ofLetter? l = some c) : isControl l = false := by
  unfold ofLetter? at h
  split at h
  all_goals first
    | rfl
    | cases h

theorem IsElement.isControl_eq_false {element : List Char} {octets : Bytes}
    (h : IsElement element octets) : ∀ c ∈ element, isControl c = false := by
  have digits {cs : List Char} {n : Nat} (h : Uuid.hexNumberFrom? 0 cs = some n) :
      ∀ c ∈ cs, isControl c = false := by
    intro c hc
    obtain ⟨d, hd⟩ := exists_hexValue?_of_mem h hc
    exact isControl_of_hexValue? hd
  cases h with
  | plain h =>
    simp only [isPlain, Bool.and_eq_true, Bool.not_eq_true'] at h
    exact List.forall_mem_singleton.mpr h.2
  | letter h =>
    exact List.forall_mem_cons.mpr ⟨rfl, List.forall_mem_singleton.mpr (isControl_of_ofLetter? h)⟩
  | octet h => exact List.forall_mem_cons.mpr ⟨rfl, List.forall_mem_cons.mpr ⟨rfl, digits h⟩⟩
  | unit h hv => exact List.forall_mem_cons.mpr ⟨rfl, List.forall_mem_cons.mpr ⟨rfl, digits h⟩⟩

theorem Denotes.isControl_eq_false {s : List Char} {payload : Bytes} (h : Denotes s payload) :
    ∀ c ∈ s, isControl c = false := by
  induction h with
  | nil => exact nofun
  | cons h _ ih => exact List.forall_mem_append.mpr ⟨h.isControl_eq_false, ih⟩

/-! ## Escapes -/

theorem eq_of_toNat_eq {c : Char} {n : Nat} (h : c.toNat = n) : c = Char.ofNat n := by
  rw [← h, Char.ofNat_toNat]

/-- A letter stands for the character that it was chosen for. -/
theorem ofLetter?_of_letter? {c l : Char} (h : letter? c = some l) : ofLetter? l = some c := by
  unfold letter? at h
  split at h <;> cases h
  all_goals
    next hc =>
    rw [eq_of_toNat_eq hc]
    rfl

/-- What has no letter and is no control character stands for itself. -/
theorem isPlain_of_letter?_eq_none {c : Char} (h : letter? c = none) (hc : isControl c = false) :
    isPlain c := by
  have quote : c ≠ '"' := by
    rintro rfl
    cases h
  have backslash : c ≠ '\\' := by
    rintro rfl
    cases h
  simp [isPlain, quote, backslash, hc]

/-- The two digits of an octet. -/
theorem isElement_hex_two {n : Nat} (h : n < 256) :
    IsElement ('\\' :: 'x' :: hex 2 n) [UInt8.ofNat n] := by
  have digits : Uuid.hexNumber? (hex 2 n) = some n := by
    rw [hexNumber?_hex]
    exact congrArg some (Nat.mod_eq_of_lt h)
  exact .octet digits

/-- The four digits of a character. -/
theorem isElement_hex_four {c : Char} (h : c.toNat < 16 ^ 4) :
    IsElement ('\\' :: 'u' :: hex 4 c.toNat) (String.utf8EncodeChar c) := by
  have digits : Uuid.hexNumber? (hex 4 c.toNat) = some c.toNat := by
    rw [hexNumber?_hex, Nat.mod_eq_of_lt h]
  have element := IsElement.unit digits c.valid
  rwa [Char.ofNat_toNat] at element

/-- Every piece of a payload is written as an element that stands for it. -/
theorem isElement_escape (q : Piece) : IsElement (escape q) q.octets := by
  cases q with
  | octet b =>
    have element := isElement_hex_two b.toNat_lt
    rwa [UInt8.ofNat_toNat] at element
  | char c =>
    show IsElement (escapeChar c) (String.utf8EncodeChar c)
    unfold escapeChar
    cases hl : letter? c with
    | some l => exact .letter (ofLetter?_of_letter? hl)
    | none =>
      cases hc : isControl c with
      | false => exact .plain (isPlain_of_letter?_eq_none hl hc)
      | true =>
        simp only [if_true]
        split
        · next small =>
          have single : String.utf8EncodeChar c = [UInt8.ofNat c.toNat] := by
            unfold String.utf8EncodeChar
            exact if_pos (Nat.le_of_lt_succ small)
          rw [single]
          exact isElement_hex_two (by omega)
        · simp only [isControl, Bool.or_eq_true, Bool.and_eq_true, decide_eq_true_eq] at hc
          exact isElement_hex_four (by omega)

/-- What stands between the quotes is a literal for the payload. -/
theorem denotes_body (payload : Bytes) : Denotes (body payload) payload := by
  have cut : ∀ qs : List Piece, Denotes (qs.flatMap escape) (qs.flatMap Piece.octets) := by
    intro qs
    induction qs with
    | nil => exact .nil
    | cons q qs ih => exact .cons (isElement_escape q) ih
  have whole := cut (pieces payload)
  rwa [flatMap_octets_pieces] at whole

theorem toList_quote (payload : Bytes) :
    (quote payload).toList = '"' :: body payload ++ ['"'] := by
  rw [quote, String.toList_ofList]

/-- A payload is reported between quotes as a literal that has no control characters and that reads
as the payload again, octet for octet; so different payloads are reported as different texts. -/
theorem quote_lossless :
    (∀ payload, ∃ literal, (quote payload).toList = '"' :: literal ++ ['"'] ∧
      (∀ c ∈ literal, isControl c = false) ∧ Denotes literal payload ∧
      decode? literal = some payload) ∧
    ∀ payload other, quote payload = quote other → payload = other := by
  constructor
  · intro payload
    have literal := denotes_body payload
    exact ⟨body payload, toList_quote payload, literal.isControl_eq_false, literal,
      literal.decode?_eq⟩
  · intro payload other same
    have bodies : body payload = body other := by
      have texts := congrArg String.toList same
      rw [toList_quote, toList_quote] at texts
      exact List.append_cancel_right (List.cons.inj texts).2
    have reads := (denotes_body payload).decode?_eq
    rw [bodies, (denotes_body other).decode?_eq] at reads
    exact (Option.some.inj reads).symm

/-- All three uses of hexadecimal digits, and a sequence that is cut off. -/
example : quote [0x7f, 0xc2, 0x85, 0xff, 0xe2, 0x82] = "\"\\x7f\\u0085\\xff\\xe2\\x82\"" := by
  decide

end GattSync.Text.Payload
