import GattSync.Text.Character

/-!
# Trimmed texts

A text without the blanks around it is what stands between blanks and neither begins nor ends with
one. There is one such text, and trimming finds it (`isTrimmed_iff`).
-/

namespace GattSync.Text

/-- What is left of a text without the blanks around it. -/
structure IsTrimmed (s t : List Char) : Prop where
  parts : ∃ front back, s = front ++ t ++ back ∧ (∀ c ∈ front, isBlank c = true) ∧
    ∀ c ∈ back, isBlank c = true
  head : ∀ c ∈ t.head?, isBlank c = false
  last : ∀ c ∈ t.getLast?, isBlank c = false

variable {s t front back : List Char} {c : Char}

/-! ## Trimming one end -/

theorem trimStart_append (h : ∀ c ∈ front, isBlank c = true) :
    trimStart (front ++ t) = trimStart t :=
  List.dropWhile_append_of_pos h

theorem trimStart_eq_nil (h : ∀ c ∈ back, isBlank c = true) : trimStart back = [] := by
  simpa [trimStart] using trimStart_append (t := []) h

theorem trimStart_cons (h : isBlank c = false) : trimStart (c :: t) = c :: t :=
  List.dropWhile_cons_of_neg (by simp [h])

/-- A text that does not begin with a blank stays as it is. -/
theorem trimStart_eq_self (h : ∀ c ∈ t.head?, isBlank c = false) : trimStart t = t := by
  cases t with
  | nil => rfl
  | cons c t => exact trimStart_cons (h c rfl)

theorem exists_eq_append_trimStart (s : List Char) :
    ∃ front, s = front ++ trimStart s ∧ ∀ c ∈ front, isBlank c = true := by
  refine ⟨s.takeWhile isBlank, List.takeWhile_append_dropWhile.symm, fun c hc => ?_⟩
  exact List.all_eq_true.mp (List.all_takeWhile (l := s)) c hc

theorem isBlank_of_mem_head?_trimStart (h : c ∈ (trimStart s).head?) : isBlank c = false := by
  have first := List.head?_dropWhile_not isBlank s
  rw [trimStart, Option.mem_def] at h
  rwa [h] at first

/-! ## Trimming both ends -/

theorem isTrimmed_trim (s : List Char) : IsTrimmed s (trim s) := by
  obtain ⟨front, hs, blankFront⟩ := exists_eq_append_trimStart s
  obtain ⟨back, hr, blankBack⟩ := exists_eq_append_trimStart (trimStart s).reverse
  have whole : trimStart s = trim s ++ back.reverse := by
    rw [trim, ← List.reverse_append, ← hr, List.reverse_reverse]
  constructor
  case parts =>
    refine ⟨front, back.reverse, ?_, blankFront, fun c hc => blankBack c (List.mem_reverse.mp hc)⟩
    rw [List.append_assoc, ← whole]
    exact hs
  case head =>
    intro c hc
    refine isBlank_of_mem_head?_trimStart (s := s) ?_
    rw [whole, List.head?_append, Option.mem_def.mp hc]
    rfl
  case last =>
    intro c hc
    rw [trim, List.getLast?_reverse] at hc
    exact isBlank_of_mem_head?_trimStart hc

theorem IsTrimmed.eq_trim (h : IsTrimmed s t) : t = trim s := by
  obtain ⟨front, back, rfl, blankFront, blankBack⟩ := h.parts
  rw [trim, List.append_assoc, trimStart_append blankFront]
  cases t with
  | nil =>
    rw [List.nil_append, trimStart_eq_nil blankBack]
    rfl
  | cons c t =>
    have begins : trimStart (c :: t ++ back) = c :: t ++ back := trimStart_eq_self h.head
    have blankRear : ∀ c ∈ back.reverse, isBlank c = true := fun c hc =>
      blankBack c (List.mem_reverse.mp hc)
    rw [begins, List.reverse_append, trimStart_append blankRear, trimStart_eq_self,
      List.reverse_reverse]
    rw [List.head?_reverse]
    exact h.last

/-- Trimming finds what stands between the blanks around a text. -/
theorem isTrimmed_iff : IsTrimmed s t ↔ t = trim s :=
  ⟨IsTrimmed.eq_trim, fun h => h ▸ isTrimmed_trim s⟩

end GattSync.Text
