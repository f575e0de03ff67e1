import GattSync.Json.Basic
import GattSync.Proofs.Json.Tokens

/-!
# Values as they are written

A value whose tokens are all legible is read back from its text (`parse?_render`). Its text is read
token by token, as none runs into the next, and the tokens are put together by the reader as they
were laid out. Both arguments follow the tokens of a value, of the rest of an array and of the rest
of an object.
-/

namespace GattSync.Json

open Token

/-- The value is read as itself. -/
def IsLegible (v : Json) : Prop := ∀ t ∈ v.tokens, t.IsLegible

/-! ## Scanning -/

theorem isEnd_itemTokens (vs : List Json) (rest : List Char) :
    IsEnd ((itemTokens vs).flatMap Token.render ++ rest) := by
  cases vs with
  | nil =>
    rintro c ⟨⟩
    exact .inr (.inr (.inl rfl))
  | cons v vs =>
    rintro c ⟨⟩
    exact .inl rfl

theorem isEnd_memberTokens (ms : List (Option String × Json)) (rest : List Char) :
    IsEnd ((memberTokens ms).flatMap Token.render ++ rest) := by
  cases ms with
  | nil =>
    rintro c ⟨⟩
    exact .inr (.inr (.inr rfl))
  | cons m ms =>
    rintro c ⟨⟩
    exact .inl rfl

/-- The text of the tokens is read as them, with this behind it. -/
def Spells (ts : List Token) (rest : List Char) : Prop :=
  scanFrom .between (ts.flatMap Token.render ++ rest) = (scanFrom .between rest).map (ts ++ ·)

theorem spells_nil (rest : List Char) : Spells [] rest := Option.map_id'.symm

theorem Spells.append {ts us : List Token} {rest : List Char}
    (first : Spells ts (us.flatMap Token.render ++ rest)) (second : Spells us rest) :
    Spells (ts ++ us) rest := by
  unfold Spells at *
  rw [List.flatMap_append, List.append_assoc, first, second, Option.map_map]
  congr 1
  funext more
  exact (List.append_assoc ts us more).symm

theorem Spells.cons {t : Token} {ts : List Token} {rest : List Char} (h : Spells ts rest)
    (legible : t.IsLegible) (ends : t.isOpen = true → IsEnd (ts.flatMap Token.render ++ rest)) :
    Spells (t :: ts) rest := by
  show Spells ([t] ++ ts) rest
  apply Spells.append _ h
  show scanFrom .between (t.render ++ [] ++ _) = _
  rw [List.append_nil]
  exact scanFrom_render legible ends

mutual

/-- The text of a value is read as its tokens if something ends it. -/
theorem spells_tokens : ∀ (v : Json) (rest : List Char), (∀ t ∈ tokens v, t.IsLegible) →
    IsEnd rest → Spells (tokens v) rest
  | .null, rest, _, ends => (spells_nil rest).cons (t := .null) trivial fun _ => ends
  | .bool b, rest, _, ends => (spells_nil rest).cons (t := .bool b) trivial fun _ => ends
  | .numeral _, rest, h, ends => (spells_nil rest).cons (h _ List.mem_cons_self) fun _ => ends
  | .text _, rest, h, _ => (spells_nil rest).cons (h _ List.mem_cons_self) nofun
  | .array [], rest, _, _ =>
    ((spells_nil rest).cons (t := .closeBracket) trivial nofun).cons trivial nofun
  | .object [], rest, _, _ =>
    ((spells_nil rest).cons (t := .closeBrace) trivial nofun).cons trivial nofun
  | .array (v :: vs), rest, h, _ => by
    rw [tokens, List.forall_mem_cons, List.forall_mem_append] at h
    rw [tokens]
    have first := spells_tokens v _ h.2.1 (isEnd_itemTokens vs rest)
    exact (first.append (spells_itemTokens vs rest h.2.2)).cons trivial nofun
  | .object ((k, v) :: ms), rest, h, _ => by
    rw [tokens, List.forall_mem_cons, List.forall_mem_cons, List.forall_mem_cons,
      List.forall_mem_append] at h
    rw [tokens]
    obtain ⟨-, key, -, value, members⟩ := h
    have first := spells_tokens v _ value (isEnd_memberTokens ms rest)
    have entry := (first.append (spells_memberTokens ms rest members)).cons
      (t := .colon) trivial nofun
    exact (entry.cons key nofun).cons trivial nofun

/-- The rest of an array ends by itself. -/
theorem spells_itemTokens : ∀ (vs : List Json) (rest : List Char),
    (∀ t ∈ itemTokens vs, t.IsLegible) → Spells (itemTokens vs) rest
  | [], rest, _ => (spells_nil rest).cons trivial nofun
  | v :: vs, rest, h => by
    rw [itemTokens, List.forall_mem_cons, List.forall_mem_append] at h
    rw [itemTokens]
    have first := spells_tokens v _ h.2.1 (isEnd_itemTokens vs rest)
    exact (first.append (spells_itemTokens vs rest h.2.2)).cons trivial nofun

/-- So does the rest of an object. -/
theorem spells_memberTokens : ∀ (ms : List (Option String × Json)) (rest : List Char),
    (∀ t ∈ memberTokens ms, t.IsLegible) → Spells (memberTokens ms) rest
  | [], rest, _ => (spells_nil rest).cons trivial nofun
  | (k, v) :: ms, rest, h => by
    rw [memberTokens, List.forall_mem_cons, List.forall_mem_cons, List.forall_mem_cons,
      List.forall_mem_append] at h
    rw [memberTokens]
    obtain ⟨-, key, -, value, members⟩ := h
    have first := spells_tokens v _ value (isEnd_memberTokens ms rest)
    have entry := (first.append (spells_memberTokens ms rest members)).cons
      (t := .colon) trivial nofun
    exact (entry.cons key nofun).cons trivial nofun

end

/-! ## Reading -/

section Reading

variable {frames : List Frame}

/-- Where an array has been opened, the first token of a value begins its first item. -/
theorem foldlM_tokens_itemOrClose (v : Json) (more : List Token) :
    (tokens v ++ more).foldlM Reader.step ⟨.itemOrClose, frames⟩ =
      (tokens v ++ more).foldlM Reader.step ⟨.value, .array [] :: frames⟩ := by
  match v with
  | .null | .bool _ | .numeral _ | .text _ | .array [] | .array (_ :: _) | .object []
  | .object (_ :: _) => rfl

mutual

/-- Where a value is expected, the tokens of a value are read as it. -/
theorem foldlM_tokens : ∀ (v : Json) (frames : List Frame) (more : List Token),
    (tokens v ++ more).foldlM Reader.step ⟨.value, frames⟩ =
      more.foldlM Reader.step ⟨.next v, frames⟩
  | .null, _, _ | .bool _, _, _ | .numeral _, _, _ | .text _, _, _ | .array [], _, _
  | .object [], _, _ => rfl
  | .array (v :: vs), frames, more => by
    rw [tokens, List.cons_append, List.append_assoc]
    show (tokens v ++ _).foldlM Reader.step ⟨.itemOrClose, frames⟩ = _
    rw [foldlM_tokens_itemOrClose, foldlM_tokens v, foldlM_itemTokens vs]
    rfl
  | .object ((k, v) :: ms), frames, more => by
    rw [tokens, List.cons_append, List.cons_append, List.cons_append, List.append_assoc]
    show (tokens v ++ _).foldlM Reader.step ⟨.value, .object [] k :: frames⟩ = _
    rw [foldlM_tokens v, foldlM_memberTokens ms]
    rfl

/-- Behind an item, the rest of an array completes it. -/
theorem foldlM_itemTokens : ∀ (vs : List Json) (v : Json) (items : List Json) (frames : List Frame)
    (more : List Token),
    (itemTokens vs ++ more).foldlM Reader.step ⟨.next v, .array items :: frames⟩ =
      more.foldlM Reader.step ⟨.next (.array (items.reverse ++ v :: vs)), frames⟩
  | [], v, items, frames, more => by
    show more.foldlM Reader.step ⟨.next (.array (v :: items).reverse), frames⟩ = _
    rw [List.reverse_cons]
  | w :: vs, v, items, frames, more => by
    rw [itemTokens, List.cons_append, List.append_assoc]
    show (tokens w ++ _).foldlM Reader.step ⟨.value, .array (v :: items) :: frames⟩ = _
    rw [foldlM_tokens w, foldlM_itemTokens vs, List.reverse_cons, List.append_assoc]
    rfl

/-- Behind a member, the rest of an object completes it. -/
theorem foldlM_memberTokens : ∀ (ms : List (Option String × Json)) (v : Json)
    (members : List (Option String × Json)) (key : Option String) (frames : List Frame)
    (more : List Token),
    (memberTokens ms ++ more).foldlM Reader.step ⟨.next v, .object members key :: frames⟩ =
      more.foldlM Reader.step ⟨.next (.object (members.reverse ++ (key, v) :: ms)), frames⟩
  | [], v, members, key, frames, more => by
    show more.foldlM Reader.step ⟨.next (.object ((key, v) :: members).reverse), frames⟩ = _
    rw [List.reverse_cons]
  | (k, w) :: ms, v, members, key, frames, more => by
    rw [memberTokens, List.cons_append, List.cons_append, List.cons_append, List.append_assoc]
    show (tokens w ++ _).foldlM Reader.step ⟨.value, .object ((key, v) :: members) k :: frames⟩ = _
    rw [foldlM_tokens w, foldlM_memberTokens ms, List.reverse_cons, List.append_assoc]
    rfl

end

theorem ofTokens?_tokens (v : Json) : ofTokens? v.tokens = some v := by
  have read := foldlM_tokens v [] []
  rw [List.append_nil] at read
  rw [ofTokens?, show ({} : Reader) = ⟨.value, []⟩ from rfl, read]
  rfl

end Reading

/-- A value whose tokens are legible is read back from its text. -/
theorem parse?_render {v : Json} (h : v.IsLegible) : parse? v.render = some v := by
  have scanned : scan (v.tokens.flatMap Token.render) = some v.tokens := by
    have spelled := spells_tokens v [] h nofun
    rw [Spells, List.append_nil] at spelled
    rw [scan, spelled]
    exact congrArg some (List.append_nil v.tokens)
  rw [parse?, render, String.toList_ofList, scanned]
  exact ofTokens?_tokens v

theorem parse?_bind {α : Type} {s : String} {v : Json} (h : parse? s = some v)
    (decode : Json → Option α) : (parse? s >>= decode) = decode v := by
  rw [h]
  rfl

end GattSync.Json
