/-!
# Padded text

A text cut to a number of characters and then filled up with spaces to a width. Both numbers have a
limit.
-/

namespace GattSync.Text

/-- On which side a short text keeps to the edge of its field. -/
inductive Alignment where
  | left
  | right
  | center
  deriving DecidableEq, Repr

/-- The field a text is fitted into. -/
structure Field where
  width : Nat := 0
  alignment : Alignment := .left
  /-- At most this many characters of the text are shown. -/
  precision : Option Nat := none
  deriving DecidableEq, Repr

namespace Field

/-- The largest width and the largest precision that a field can have. -/
def limit : Nat := 65535

/-- The field can be had. -/
def isValid (field : Field) : Bool :=
  field.width ≤ limit && (field.precision.getD 0) ≤ limit

/-- The text fitted into the field. In a centred text the odd space goes to the right. -/
def fit (field : Field) (s : String) : String :=
  let shown := match field.precision with
    | some n => s.toList.take n
    | none => s.toList
  let spaces (n : Nat) : List Char := List.replicate n ' '
  let gap := field.width - shown.length
  String.ofList <| match field.alignment with
    | .left => shown ++ spaces gap
    | .right => spaces gap ++ shown
    | .center => spaces (gap / 2) ++ shown ++ spaces (gap - gap / 2)

/-- The text fitted into the field, if the field can be had. -/
def fit? (field : Field) (s : String) : Option String :=
  if field.isValid then some (field.fit s) else none

end Field
end GattSync.Text
