import GattSync.Json.Token

/-!
# JSON values

A value keeps the members of its objects in the order in which they are written, with repetitions.
Tokens are read by a machine with a stack of the arrays and objects that are open, so that nothing
but memory limits how deep values are nested.
-/

namespace GattSync

inductive Json where
  | null
  | bool (b : Bool)
  | numeral (n : Json.Numeral)
  /-- A string; none if half of a surrogate pair is in it. -/
  | text (s : Option String)
  | array (items : List Json)
  | object (members : List (Option String × Json))
  deriving Repr

namespace Json

/-! ## Reading -/

/-- An array or object that is open, its elements so far with the last one first. -/
inductive Frame where
  | array (items : List Json)
  /-- The value of a key is being read. -/
  | object (members : List (Option String × Json)) (key : Option String)

/-- What has to come next. -/
inductive Expect where
  | value
  | itemOrClose
  | keyOrClose
  | key (members : List (Option String × Json))
  | colon (members : List (Option String × Json)) (key : Option String)
  /-- A value is complete; its surroundings go on. -/
  | next (v : Json)

/-- The state of the reader. -/
structure Reader where
  expect : Expect := .value
  frames : List Frame := []

namespace Reader

/-- A token where a value has to come. -/
def begin (frames : List Frame) : Token → Option Reader
  | .null => some ⟨.next .null, frames⟩
  | .bool b => some ⟨.next (.bool b), frames⟩
  | .numeral n => some ⟨.next (.numeral n), frames⟩
  | .text s => some ⟨.next (.text s), frames⟩
  | .openBracket => some ⟨.itemOrClose, frames⟩
  | .openBrace => some ⟨.keyOrClose, frames⟩
  | _ => none

/-- A token after a complete value. -/
def resume (v : Json) (frames : List Frame) (t : Token) : Option Reader :=
  match frames, t with
  | .array items :: frames, .comma => some ⟨.value, .array (v :: items) :: frames⟩
  | .array items :: frames, .closeBracket => some ⟨.next (.array (v :: items).reverse), frames⟩
  | .object members key :: frames, .comma => some ⟨.key ((key, v) :: members), frames⟩
  | .object members key :: frames, .closeBrace =>
    some ⟨.next (.object ((key, v) :: members).reverse), frames⟩
  | _, _ => none

def step (r : Reader) (t : Token) : Option Reader :=
  match r.expect, t with
  | .value, t => begin r.frames t
  | .itemOrClose, .closeBracket => some ⟨.next (.array []), r.frames⟩
  | .itemOrClose, t => begin (.array [] :: r.frames) t
  | .keyOrClose, .closeBrace => some ⟨.next (.object []), r.frames⟩
  | .keyOrClose, .text key => some ⟨.colon [] key, r.frames⟩
  | .key members, .text key => some ⟨.colon members key, r.frames⟩
  | .colon members key, .colon => some ⟨.value, .object members key :: r.frames⟩
  | .next v, t => resume v r.frames t
  | _, _ => none

/-- The value read, if nothing is missing. -/
def result? (r : Reader) : Option Json :=
  match r.expect, r.frames with
  | .next v, [] => some v
  | _, _ => none

end Reader

/-- The value that a list of tokens spells. -/
def ofTokens? (ts : List Token) : Option Json := do
  let r ← ts.foldlM Reader.step {}
  r.result?

/-- The value that a text spells. -/
def parse? (s : String) : Option Json := do ofTokens? (← Token.scan s.toList)

/-! ## Writing -/

mutual

/-- The tokens of a value, without any blanks. -/
def tokens : Json → List Token
  | .null => [.null]
  | .bool b => [.bool b]
  | .numeral n => [.numeral n]
  | .text s => [.text s]
  | .array [] => [.openBracket, .closeBracket]
  | .array (v :: vs) => .openBracket :: (tokens v ++ itemTokens vs)
  | .object [] => [.openBrace, .closeBrace]
  | .object ((k, v) :: ms) => .openBrace :: .text k :: .colon :: (tokens v ++ memberTokens ms)

/-- The rest of an array after an item. -/
def itemTokens : List Json → List Token
  | [] => [.closeBracket]
  | v :: vs => .comma :: (tokens v ++ itemTokens vs)

/-- The rest of an object after a member. -/
def memberTokens : List (Option String × Json) → List Token
  | [] => [.closeBrace]
  | (k, v) :: ms => .comma :: .text k :: .colon :: (tokens v ++ memberTokens ms)

end

/-- The value as a text without any blanks. -/
def render (v : Json) : String := String.ofList (v.tokens.flatMap Token.render)

end Json
end GattSync
