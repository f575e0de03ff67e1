import GattSync.Json.Token
import GattSync.Proofs.Json.Numerals
import GattSync.Proofs.Text.Hexadecimal

/-!
# Tokens as they are written

A token is read back from its text (`scanFrom_render`), whatever comes behind it: a word or a
numeral goes on as long as its characters do, and so needs something behind it that ends it, which
is the end of the text, a comma, a colon or a closing bracket.
-/

namespace GattSync.Json.Token

variable {m m' : Mode} {c : Char} {s rest : List Char} {t : Token} {out : List Token}

/-! ## Steps of the scanner -/

theorem scanFrom_cons (h : step m c = some (m', out)) :
    scanFrom m (c :: s) = (scanFrom m' s).map (out ++ ·) := by
  rw [scanFrom, h]
  show (scanFrom m' s).bind (fun rest => some (out ++ rest)) = _
  cases scanFrom m' s <;> rfl

theorem scanFrom_cons_of_silent (h : step m c = some (m', [])) :
    scanFrom m (c :: s) = scanFrom m' s := by
  rw [scanFrom_cons h]
  exact Option.map_id'

/-- What may stand behind a word or a numeral. -/
def IsEnd (rest : List Char) : Prop :=
  ∀ c ∈ rest.head?, c = ',' ∨ c = ':' ∨ c = ']' ∨ c = '\x7d'

/-- What has been collected is complete where something ends it. -/
theorem scanFrom_of_flush (complete : flush m = some [t])
    (ends : ∀ c, c ∈ rest.head? → step m c = restart m c) :
    scanFrom m rest = (scanFrom .between rest).map (t :: ·) := by
  cases rest with
  | nil => exact complete
  | cons c rest =>
    have next : step .between c = start c := rfl
    rw [scanFrom, scanFrom, ends c rfl, restart, complete, next]
    cases start c with
    | none => rfl
    | some p =>
      show (scanFrom p.1 rest).bind (fun rest => some ([t] ++ p.2 ++ rest)) =
        ((scanFrom p.1 rest).bind fun rest => some (p.2 ++ rest)).map (t :: ·)
      cases scanFrom p.1 rest <;> rfl

/-! ## Words and numerals -/

/-- Characters are collected, last one first. -/
theorem scanFrom_collect {mode : List Char → Mode} {cs : List Char}
    (goes : ∀ c ∈ s, ∀ cs, step (mode cs) c = some (mode (c :: cs), [])) :
    scanFrom (mode cs) (s ++ rest) = scanFrom (mode (s.reverse ++ cs)) rest := by
  induction s generalizing cs with
  | nil => rfl
  | cons c s ih =>
    obtain ⟨hc, hs⟩ := List.forall_mem_cons.mp goes
    rw [List.cons_append, scanFrom_cons_of_silent (hc cs), ih hs, List.reverse_cons,
      List.append_assoc]
    rfl

/-- A token that is collected is read if something ends it. -/
theorem scanFrom_between_of_collect (mode : List Char → Mode)
    (begins : start c = some (mode [c], []))
    (goes : ∀ d ∈ s, ∀ cs, step (mode cs) d = some (mode (d :: cs), []))
    (complete : flush (mode (c :: s).reverse) = some [t])
    (ends : ∀ d ∈ rest.head?, ∀ cs, step (mode cs) d = restart (mode cs) d) :
    scanFrom .between (c :: s ++ rest) = (scanFrom .between rest).map (t :: ·) := by
  have first : step .between c = some (mode [c], []) := begins
  rw [List.cons_append, scanFrom_cons_of_silent first, scanFrom_collect goes, ← List.reverse_cons]
  exact scanFrom_of_flush complete fun d hd => ends d hd _

theorem scanFrom_word (begins : start c = some (.word [c], []))
    (goes : s.all isLetter = true) (word : ofWord? (c :: s) = some t) (h : IsEnd rest) :
    scanFrom .between (c :: s ++ rest) = (scanFrom .between rest).map (t :: ·) := by
  apply scanFrom_between_of_collect .word begins
  · intro d hd cs
    exact if_pos (List.all_eq_true.mp goes d hd)
  · show (ofWord? (c :: s).reverse.reverse).map ([·]) = some [t]
    rw [List.reverse_reverse, word]
    rfl
  · intro d hd cs
    obtain rfl | rfl | rfl | rfl := h d hd <;> rfl

theorem isNumeralChar_digitChar (d : Fin 10) : isNumeralChar (Decimal.digitChar d) = true := by
  simp [isNumeralChar]

theorem isNumeralChar_of_mem_render {n : Numeral} (h : n.IsGrammatical) (hc : c ∈ n.render) :
    isNumeralChar c = true := by
  have digit (ds : List (Fin 10)) (mem : c ∈ ds.map Decimal.digitChar) :
      isNumeralChar c = true := by
    obtain ⟨d, -, rfl⟩ := List.mem_map.mp mem
    exact isNumeralChar_digitChar d
  rw [Numeral.render_eq, Numeral.fractionText] at hc
  rcases List.mem_append.mp hc with sign | hc
  · split at sign
    · obtain rfl := List.mem_singleton.mp sign
      rfl
    · cases sign
  rcases List.mem_append.mp hc with whole | hc
  · exact digit _ whole
  rcases List.mem_append.mp hc with fraction | power
  · split at fraction
    · cases fraction
    · rcases List.mem_cons.mp fraction with rfl | fraction
      · rfl
      · exact digit _ fraction
  · cases he : n.exponent with
    | none =>
      rw [he] at power
      cases power
    | some e =>
      rw [he] at power
      rcases List.mem_cons.mp power with rfl | power
      · rfl
      rcases List.mem_append.mp power with sign | digits
      · obtain rfl | rfl := (h.exponent e he).2 c (Option.mem_toList.mp sign) <;> rfl
      · exact digit _ digits

/-- A numeral begins with a sign or a digit. -/
theorem exists_render_eq_cons {n : Numeral} (h : n.IsGrammatical) :
    ∃ c s, n.render = c :: s ∧ start c = some (.numeral [c], []) := by
  have digit (d : Fin 10) :
      start (Decimal.digitChar d) = some (.numeral [Decimal.digitChar d], []) := by
    decide +revert
  rw [Numeral.render_eq]
  cases n.negative with
  | true => exact ⟨'-', _, rfl, rfl⟩
  | false =>
    have whole := h.whole
    cases hw : n.whole with
    | nil => simp [hw, Numeral.isWhole] at whole
    | cons d ds => exact ⟨_, _, rfl, digit d⟩

theorem scanFrom_numeral {n : Numeral} (grammatical : n.IsGrammatical) (h : IsEnd rest) :
    scanFrom .between (n.render ++ rest) = (scanFrom .between rest).map (numeral n :: ·) := by
  obtain ⟨c, s, hr, begins⟩ := exists_render_eq_cons grammatical
  have mem : ∀ d ∈ s, d ∈ n.render := fun d hd => hr ▸ List.mem_cons_of_mem c hd
  have read := Numeral.ofChars?_render grammatical
  rw [hr] at read ⊢
  apply scanFrom_between_of_collect .numeral begins
  · intro d hd cs
    exact if_pos (isNumeralChar_of_mem_render grammatical (mem d hd))
  · show (Numeral.ofChars? (c :: s).reverse.reverse).map (fun n => [numeral n]) = _
    rw [List.reverse_reverse, read]
    rfl
  · intro d hd cs
    obtain rfl | rfl | rfl | rfl := h d hd <;> rfl

/-! ## Strings -/

/-- A character is written after a backslash by a letter or by its number, or as itself. -/
theorem escapeChar_cases (c : Char) :
    (∃ letter, letter ≠ 'u' ∧ escaped? letter = some c ∧ escapeChar c = ['\\', letter]) ∨
    (c.toNat < 0x20 ∧ escapeChar c = '\\' :: 'u' :: Text.Payload.hex 4 c.toNat) ∨
    (c ≠ '"' ∧ c ≠ '\\' ∧ ¬c.toNat < 0x20 ∧ escapeChar c = [c]) := by
  unfold escapeChar
  split
  iterate 7 exact .inl ⟨_, by decide, rfl, rfl⟩
  case _ quote backslash _ _ _ _ _ =>
    split
    · case isTrue control => exact .inr (.inl ⟨control, rfl⟩)
    · case isFalse printed => exact .inr (.inr ⟨quote, backslash, printed, rfl⟩)

/-- The number of a code unit is read. -/
theorem scanFrom_hex {es : List Element} {n : Nat} (h : n < 16 ^ 4) :
    scanFrom (.unit es 4 0) (Text.Payload.hex 4 n ++ rest) =
      scanFrom (.text (.unit n :: es)) rest := by
  have digit (n left value : Nat) (more : 1 < left) :
      step (.unit es left value) (Text.Payload.hexDigit (n % 16)) =
        some (.unit es (left - 1) (value * 16 + n % 16), []) := by
    have read : Text.hexValue? (Text.Payload.hexDigit (n % 16)) = some (n % 16) :=
      Text.Payload.hexValue?_hexDigit (Nat.mod_lt n (by decide))
    simp [step, read, Nat.not_le.mpr more]
  have last (n value : Nat) :
      step (.unit es 1 value) (Text.Payload.hexDigit (n % 16)) =
        some (.text (.unit (value * 16 + n % 16) :: es), []) := by
    have read : Text.hexValue? (Text.Payload.hexDigit (n % 16)) = some (n % 16) :=
      Text.Payload.hexValue?_hexDigit (Nat.mod_lt n (by decide))
    simp [step, read]
  simp only [Text.Payload.hex, List.nil_append, List.cons_append]
  rw [scanFrom_cons_of_silent (digit _ _ _ (by decide)),
    scanFrom_cons_of_silent (digit _ _ _ (by decide)),
    scanFrom_cons_of_silent (digit _ _ _ (by decide)), scanFrom_cons_of_silent (last _ _)]
  congr 4
  omega

/-- Each character is written as one element of a string, which stands for it. -/
theorem exists_element (c : Char) : ∃ e : Element,
    (∀ es rest, scanFrom (.text es) (escapeChar c ++ rest) = scanFrom (.text (e :: es)) rest) ∧
    ∀ es, characters? (e :: es) = (characters? es).map (c :: ·) := by
  obtain ⟨letter, ne, stands, he⟩ | ⟨control, he⟩ | ⟨quote, backslash, printed, he⟩ :=
    escapeChar_cases c
  · refine ⟨.char c, fun es rest => ?_, fun es => rfl⟩
    have second : step (.escape es) letter = some (.text (.char c :: es), []) := by
      simp [step, ne, stands]
    rw [he]
    exact (scanFrom_cons_of_silent rfl).trans (scanFrom_cons_of_silent second)
  · refine ⟨.unit c.toNat, fun es rest => ?_, fun es => ?_⟩
    · rw [he, ← scanFrom_hex (Nat.lt_trans control (by decide))]
      exact (scanFrom_cons_of_silent rfl).trans (scanFrom_cons_of_silent rfl)
    · have single : c.toNat < 0xd800 ∨ 0xe000 ≤ c.toNat := .inl (Nat.lt_trans control (by decide))
      rw [characters?.eq_def]
      exact (if_pos single).trans (by rw [Char.ofNat_toNat])
  · refine ⟨.char c, fun es rest => ?_, fun es => rfl⟩
    have taken : step (.text es) c = some (.text (.char c :: es), []) := by
      simp [step, quote, backslash, printed]
    rw [he]
    exact scanFrom_cons_of_silent taken

theorem exists_elements (cs : List Char) : ∃ elements : List Element,
    (∀ es rest, scanFrom (.text es) (cs.flatMap escapeChar ++ rest) =
      scanFrom (.text (elements.reverse ++ es)) rest) ∧ characters? elements = some cs := by
  induction cs with
  | nil => exact ⟨[], fun _ _ => rfl, rfl⟩
  | cons c cs ih =>
    obtain ⟨elements, read, stand⟩ := ih
    obtain ⟨e, first, stands⟩ := exists_element c
    refine ⟨e :: elements, fun es rest => ?_, ?_⟩
    · rw [List.flatMap_cons, List.append_assoc, first, read, List.reverse_cons, List.append_assoc]
      rfl
    · rw [stands, stand]
      rfl

/-- A string is read as the text that was written. -/
theorem scanFrom_text (s : String) (rest : List Char) :
    scanFrom .between ('"' :: s.toList.flatMap escapeChar ++ ['"'] ++ rest) =
      (scanFrom .between rest).map (text (some s) :: ·) := by
  obtain ⟨elements, read, stand⟩ := exists_elements s.toList
  have opened : step .between '"' = some (.text [], []) := rfl
  have closed : step (.text elements.reverse) '"' = some (.between, [text (some s)]) := by
    simp [step, stand, String.ofList_toList]
  rw [List.cons_append, List.cons_append, scanFrom_cons_of_silent opened, List.append_assoc, read,
    List.append_nil]
  exact scanFrom_cons closed

/-! ## All tokens -/

/-- The token is read as itself: a numeral of the grammar, a string that has a text, or any other
token. -/
def IsLegible : Token → Prop
  | numeral n => n.IsGrammatical
  | text s => s.isSome
  | _ => True

/-- Something has to end the token. -/
def isOpen : Token → Bool
  | null | bool _ | numeral _ => true
  | _ => false

theorem scanFrom_mark (begins : start c = some (.between, [t])) :
    scanFrom .between ([c] ++ rest) = (scanFrom .between rest).map (t :: ·) :=
  scanFrom_cons (m := .between) begins

/-- A token is read as it was written, if something ends it where that is needed. -/
theorem scanFrom_render (legible : t.IsLegible) (ends : t.isOpen = true → IsEnd rest) :
    scanFrom .between (t.render ++ rest) = (scanFrom .between rest).map (t :: ·) := by
  cases t with
  | openBrace | closeBrace | openBracket | closeBracket | colon | comma => exact scanFrom_mark rfl
  | null => exact scanFrom_word rfl (by decide) rfl (ends rfl)
  | bool b => cases b <;> exact scanFrom_word rfl (by decide) rfl (ends rfl)
  | numeral n => exact scanFrom_numeral legible (ends rfl)
  | text s =>
    obtain ⟨s, rfl⟩ := Option.isSome_iff_exists.mp legible
    exact scanFrom_text s rest

end GattSync.Json.Token
