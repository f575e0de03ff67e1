import GattSync.Json.Numeral
import GattSync.Text.Character
import GattSync.Text.Payload

/-!
# JSON tokens

The lexical half of JSON. A scanner walks over the characters in one of a few modes, and its
reading is strict: the blanks, escapes and numerals of RFC 8259 and no others.

A string may name half of a surrogate pair by an escape. Such a string has the form of a string but
no text; whether that matters is up to whoever uses it.
-/

namespace GattSync.Json

inductive Token where
  | openBrace
  | closeBrace
  | openBracket
  | closeBracket
  | colon
  | comma
  | null
  | bool (b : Bool)
  | numeral (n : Numeral)
  /-- A string; none if half of a surrogate pair is in it. -/
  | text (s : Option String)
  deriving DecidableEq, Repr

namespace Token

/-! ## Strings -/

/-- One element of a string: a character written as itself or by a letter, or a UTF-16 code unit
written by its number. -/
inductive Element where
  | char (c : Char)
  | unit (n : Nat)
  deriving DecidableEq, Repr

/-- The characters of a string, its pairs of code units put together. -/
def characters? : List Element → Option (List Char)
  | [] => some []
  | .char c :: rest => (characters? rest).map (c :: ·)
  | .unit n :: rest =>
    if n < 0xd800 ∨ 0xe000 ≤ n then (characters? rest).map (Char.ofNat n :: ·)
    else match rest with
      | .unit m :: rest =>
        if n < 0xdc00 ∧ 0xdc00 ≤ m ∧ m < 0xe000 then
          (characters? rest).map (Char.ofNat (0x10000 + (n - 0xd800) * 0x400 + (m - 0xdc00)) :: ·)
        else none
      | _ => none

/-- The character that a letter stands for after a backslash. -/
def escaped? (c : Char) : Option Char :=
  match c with
  | '"' => some '"'
  | '\\' => some '\\'
  | '/' => some '/'
  | 'b' => some '\x08'
  | 'f' => some '\x0c'
  | 'n' => some '\n'
  | 'r' => some '\r'
  | 't' => some '\t'
  | _ => none

/-- How a character is written in a string. Only what must be escaped is. -/
def escapeChar (c : Char) : List Char :=
  match c with
  | '"' => ['\\', '"']
  | '\\' => ['\\', '\\']
  | '\x08' => ['\\', 'b']
  | '\t' => ['\\', 't']
  | '\n' => ['\\', 'n']
  | '\x0c' => ['\\', 'f']
  | '\r' => ['\\', 'r']
  | c => if c.toNat < 0x20 then '\\' :: 'u' :: Text.Payload.hex 4 c.toNat else [c]

/-! ## Scanning -/

/-- Where the scanner stands. What has been collected is kept last element first. -/
inductive Mode where
  | between
  | word (letters : List Char)
  | numeral (chars : List Char)
  | text (elements : List Element)
  /-- After a backslash. -/
  | escape (elements : List Element)
  /-- In the number of a code unit, with so many digits to come. -/
  | unit (elements : List Element) (left value : Nat)
  deriving DecidableEq, Repr

def isSpace (c : Char) : Bool := c == ' ' || c == '\t' || c == '\n' || c == '\r'

def isNumeralChar (c : Char) : Bool :=
  (Decimal.digit? c).isSome || c == '-' || c == '+' || c == '.' || c == 'e' || c == 'E'

def isLetter (c : Char) : Bool := 97 ≤ c.toNat && c.toNat ≤ 122

/-- Begins afresh with a character. -/
def start (c : Char) : Option (Mode × List Token) :=
  match c with
  | '\x7b' => some (.between, [openBrace])
  | '\x7d' => some (.between, [closeBrace])
  | '[' => some (.between, [openBracket])
  | ']' => some (.between, [closeBracket])
  | ':' => some (.between, [colon])
  | ',' => some (.between, [comma])
  | '"' => some (.text [], [])
  | c =>
    if isSpace c then some (.between, [])
    else if c == '-' || (Decimal.digit? c).isSome then some (.numeral [c], [])
    else if isLetter c then some (.word [c], [])
    else none

/-- The token of a complete word. -/
def ofWord? (letters : List Char) : Option Token :=
  if letters = ['n', 'u', 'l', 'l'] then some null
  else if letters = ['t', 'r', 'u', 'e'] then some (bool true)
  else if letters = ['f', 'a', 'l', 's', 'e'] then some (bool false)
  else none

/-- The token of what has been collected, where it may end here. -/
def flush : Mode → Option (List Token)
  | .between => some []
  | .word letters => (ofWord? letters.reverse).map ([·])
  | .numeral chars => (Numeral.ofChars? chars.reverse).map fun n => [numeral n]
  | _ => none

/-- Ends what has been collected and begins afresh with a character. -/
def restart (m : Mode) (c : Char) : Option (Mode × List Token) := do
  let ended ← flush m
  let (m, begun) ← start c
  some (m, ended ++ begun)

/-- One character further, with the tokens that it completes. -/
def step (m : Mode) (c : Char) : Option (Mode × List Token) :=
  match m with
  | .between => start c
  | .word letters => if isLetter c then some (.word (c :: letters), []) else restart m c
  | .numeral chars => if isNumeralChar c then some (.numeral (c :: chars), []) else restart m c
  | .text es =>
    if c = '"' then some (.between, [text ((characters? es.reverse).map String.ofList)])
    else if c = '\\' then some (.escape es, [])
    else if c.toNat < 0x20 then none
    else some (.text (.char c :: es), [])
  | .escape es =>
    if c = 'u' then some (.unit es 4 0, [])
    else (escaped? c).map fun d => (.text (.char d :: es), [])
  | .unit es left value => do
    let d ← Text.hexValue? c
    let value := value * 16 + d
    if left ≤ 1 then some (.text (.unit value :: es), []) else some (.unit es (left - 1) value, [])

/-- The tokens of a text, from a mode on. -/
def scanFrom (m : Mode) : List Char → Option (List Token)
  | [] => flush m
  | c :: s => do
    let (m, out) ← step m c
    let rest ← scanFrom m s
    some (out ++ rest)

/-- The tokens of a text. -/
def scan (s : List Char) : Option (List Token) := scanFrom .between s

/-! ## Writing -/

def render : Token → List Char
  | openBrace => ['\x7b']
  | closeBrace => ['\x7d']
  | openBracket => ['[']
  | closeBracket => [']']
  | colon => [':']
  | comma => [',']
  | null => ['n', 'u', 'l', 'l']
  | bool true => ['t', 'r', 'u', 'e']
  | bool false => ['f', 'a', 'l', 's', 'e']
  | numeral n => n.render
  | text none => ['"', '"']
  | text (some s) => '"' :: s.toList.flatMap escapeChar ++ ['"']

end Token
end GattSync.Json
