import GattSync.Layout
import GattSync.Uuid

/-!
# Device specs

A device spec names a peripheral and the characteristics of it that an application sees as
properties: how each is accessed, where it lives, how its payload is laid out, and which payloads
can be written under which label.
-/

namespace GattSync

/-- How a property is accessed. -/
inductive AccessMode where
  /-- Read and report. -/
  | readOnly
  /-- Write the default payload, then read back and report. -/
  | readWrite
  /-- Report what is notified. -/
  | notifyOnly
  /-- A mode of another name; the property is passed over. -/
  | unrecognized (name : String)
  deriving DecidableEq, Repr

namespace AccessMode

def text : AccessMode → String
  | .readOnly => "ReadOnly"
  | .readWrite => "ReadWrite"
  | .notifyOnly => "NotifyOnly"
  | .unrecognized name => name

def ofText (s : String) : AccessMode :=
  if s = "ReadOnly" then .readOnly
  else if s = "ReadWrite" then .readWrite
  else if s = "NotifyOnly" then .notifyOnly
  else .unrecognized s

/-- A mode keeps the text it was made from. -/
theorem text_ofText (s : String) : (ofText s).text = s := by
  simp only [ofText]
  split
  · simp_all [text]
  · split
    · simp_all [text]
    · split <;> simp_all [text]

end AccessMode

/-- Which peripheral is meant. An empty field lets any peripheral pass. -/
structure ProtocolIdentity where
  /-- Advertised name. -/
  name : String := ""
  /-- Hardware address, in any letter case. -/
  macAddress : String := ""
  deriving DecidableEq, Repr, Inhabited

/-- A text with the letters A to Z in lower case. -/
def foldCase (s : String) : List Char := s.toList.map Char.toLower

/-- A peripheral that advertises this name at this address is the one meant. -/
def ProtocolIdentity.isMatch (i : ProtocolIdentity) (localName : Option String) (address : String) :
    Bool :=
  (i.name.isEmpty || localName == some i.name) &&
    (i.macAddress.isEmpty || foldCase i.macAddress == foldCase address)

/-- The payloads that can be written, each under its label, in ascending order of labels. -/
structure WriteTable where
  entries : List (String × Bytes) := []
  deriving DecidableEq, Repr, Inhabited

namespace WriteTable

def isEmpty (t : WriteTable) : Bool := t.entries.isEmpty

def get? (t : WriteTable) (label : String) : Option Bytes := t.entries.lookup label

/-- Puts a payload at its label's place, over one that is already there. -/
def insertEntry (label : String) (payload : Bytes) :
    List (String × Bytes) → List (String × Bytes)
  | [] => [(label, payload)]
  | (l, p) :: rest =>
    if label = l then (label, payload) :: rest
    else if label < l then (label, payload) :: (l, p) :: rest
    else (l, p) :: insertEntry label payload rest

def insert (t : WriteTable) (label : String) (payload : Bytes) : WriteTable :=
  ⟨insertEntry label payload t.entries⟩

/-- The table of a list of entries; of two under one label the later one counts. -/
def ofList (entries : List (String × Bytes)) : WriteTable :=
  entries.foldl (fun t (label, payload) => t.insert label payload) {}

theorem lookup_insertEntry_self (label : String) (payload : Bytes) (es : List (String × Bytes)) :
    (insertEntry label payload es).lookup label = some payload := by
  induction es with
  | nil => simp [insertEntry]
  | cons e rest ih =>
    obtain ⟨l, p⟩ := e
    by_cases h : label = l
    · simp [insertEntry, h]
    · by_cases hlt : label < l
      · simp [insertEntry, h, hlt]
      · simp [insertEntry, h, hlt, List.lookup_cons, beq_false_of_ne h, ih]

theorem lookup_insertEntry_of_ne {label other : String} (h : other ≠ label) (payload : Bytes)
    (es : List (String × Bytes)) :
    (insertEntry label payload es).lookup other = es.lookup other := by
  induction es with
  | nil => simp [insertEntry, List.lookup_cons, beq_false_of_ne h]
  | cons e rest ih =>
    obtain ⟨l, p⟩ := e
    by_cases hl : label = l
    · subst hl; simp [insertEntry, List.lookup_cons, beq_false_of_ne h]
    · by_cases hlt : label < l
      · simp [insertEntry, hl, hlt, List.lookup_cons, beq_false_of_ne h]
      · simp [insertEntry, hl, hlt, List.lookup_cons, ih]

theorem get?_insert_self (t : WriteTable) (label : String) (payload : Bytes) :
    (t.insert label payload).get? label = some payload :=
  lookup_insertEntry_self label payload t.entries

theorem get?_insert_of_ne (t : WriteTable) {label other : String} (h : other ≠ label)
    (payload : Bytes) : (t.insert label payload).get? other = t.get? other :=
  lookup_insertEntry_of_ne h payload t.entries

end WriteTable

/-- Where and how a property lives on the peripheral. -/
structure Visitor where
  characteristic : Uuid
  layout : Layout := {}
  writes : WriteTable := {}
  /-- Label of the payload that is written. -/
  defaultValue : String := ""
  deriving Repr

/-- A property of the device. -/
structure Property where
  /-- The name it is reported under. -/
  name : String
  access : AccessMode
  visitor : Visitor
  deriving Repr

namespace Property

/-- A property on a characteristic, with the layout of a single octet and nothing to write. -/
def on (name : String) (access : AccessMode) (characteristic : Uuid) : Property :=
  ⟨name, access, { characteristic }⟩

def withLayout (p : Property) (layout : Layout) : Property :=
  { p with visitor := { p.visitor with layout } }

def withWrite (p : Property) (label : String) (payload : Bytes) : Property :=
  { p with visitor := { p.visitor with writes := p.visitor.writes.insert label payload } }

def withDefault (p : Property) (label : String) : Property :=
  { p with visitor := { p.visitor with defaultValue := label } }

/-- The payload to write: the one under the default label. -/
def defaultPayload (p : Property) : Except Error Bytes :=
  if p.visitor.writes.isEmpty then .error (.emptyWriteTable p.name)
  else match p.visitor.writes.get? p.visitor.defaultValue with
    | some payload => .ok payload
    | none => .error (.missingWriteEntry p.name p.visitor.defaultValue)

end Property

/-- What a device is to be kept in sync with. -/
structure DeviceSpec where
  protocol : ProtocolIdentity := {}
  /-- In order of declaration. -/
  properties : List Property := []
  deriving Repr

namespace DeviceSpec

def withProperty (s : DeviceSpec) (p : Property) : DeviceSpec :=
  { s with properties := s.properties ++ [p] }

/-- The property on a characteristic; the first one declared if there are several. -/
def property? (s : DeviceSpec) (characteristic : Uuid) : Option Property :=
  s.properties.find? fun p => p.visitor.characteristic == characteristic

end DeviceSpec
end GattSync
