import GattSync.Json.Basic

/-!
# Decoding JSON

Readers of the pieces that the data types are made of. A record is given as an object, or as the
array of its fields in order of declaration. In an object the fields may come in any order, unknown
members are passed over without a look at their values, and a field given twice is refused. In an
array fields may be missing at the end. A missing field takes its default, if it has one; `null` is
a value like any other and never stands for a missing field.
-/

namespace GattSync.Json

/-- A string that has a text. -/
def asText? : Json → Option String
  | .text s => s
  | _ => none

/-- A whole number below the limit. -/
def asNat? (limit : Nat) : Json → Option Nat
  | .numeral n => n.toNat? limit
  | _ => none

def asFloat? : Json → Option Float
  | .numeral n => n.toFloat?
  | _ => none

def asList? {α : Type} (decode : Json → Option α) : Json → Option (List α)
  | .array items => items.mapM decode
  | _ => none

/-- An object as a list of labelled values. -/
def asEntries? {α : Type} (decode : Json → Option α) : Json → Option (List (String × α))
  | .object members => members.mapM fun (key, v) => do some (← key, ← decode v)
  | _ => none

/-- One of several names: as a string, or as an object with that one key and the value `null`. -/
def asChoice? {α : Type} (choices : List (String × α)) : Json → Option α
  | .text (some name) => choices.lookup name
  | .object [(some name, .null)] => choices.lookup name
  | _ => none

/-- The values of the fields of a record, each missing or given once. -/
abbrev Fields := List (Option Json)

/-- The value of a field among the members of an object, if it is not given twice. -/
def field? (members : List (Option String × Json)) (name : String) : Option (Option Json) :=
  match members.filter fun (key, _) => key == some name with
  | [] => some none
  | [(_, v)] => some (some v)
  | _ => none

/-- The fields of a record, given by their names in order of declaration. -/
def asFields? (names : List String) : Json → Option Fields
  | .object members =>
    if members.all fun (key, _) => key.isSome then names.mapM (field? members) else none
  | .array items =>
    if items.length ≤ names.length then
      some (items.map some ++ List.replicate (names.length - items.length) none)
    else none
  | _ => none

/-- A field that has to be given. -/
def required? {α : Type} (decode : Json → Option α) (field : Option Json) : Option α :=
  field.bind decode

/-- A field that has a default. -/
def optional? {α : Type} (decode : Json → Option α) (default : α) : Option Json → Option α
  | none => some default
  | some v => decode v

/-- A member with a text for its name. -/
def member (name : String) (v : Json) : Option String × Json := (some name, v)

/-- A text as a value. -/
def ofText (s : String) : Json := .text (some s)

/-- A whole number as a value. -/
def ofNat (n : Nat) : Json := .numeral (Numeral.ofNat n)

/-- A binary64 number as a value; `null` if it is infinite or no number. -/
def ofFloat (x : Float) : Json :=
  match Numeral.ofFloat? x with
  | some n => .numeral n
  | none => .null

end GattSync.Json
