import GattSync.Time.Timestamp

/-!
# Status snapshots

The desired and the reported value of each property, in the order in which the properties were first
seen. Updating a property puts its new entry in the place of the old one, so the order is stable and
repeated updates do not make the list longer.
-/

namespace GattSync.Status

/-- The status of one property. -/
structure Entry where
  /-- Name of the property. -/
  name : String
  /-- Label of the value last written; empty for a property that is only read or notified. -/
  desired : String
  /-- Value last observed. -/
  reported : String
  updatedAt : Timestamp
  deriving DecidableEq, Repr

/-- The status of all properties seen. -/
structure Snapshot where
  entries : List Entry := []
  deriving DecidableEq, Repr, Inhabited

namespace Snapshot

def empty : Snapshot := {}

/-- Puts an entry in the place of the first one of its name, or at the end. -/
def place (e : Entry) : List Entry → List Entry
  | [] => [e]
  | f :: rest => if f.name = e.name then e :: rest else f :: place e rest

/-- Updates a property at a moment. -/
def upsert (s : Snapshot) (now : Timestamp) (name desired reported : String) : Snapshot :=
  ⟨place ⟨name, desired, reported, now⟩ s.entries⟩

/-- The entry of a property. -/
def get? (s : Snapshot) (name : String) : Option Entry := s.entries.find? fun e => e.name == name

def size (s : Snapshot) : Nat := s.entries.length

def isEmpty (s : Snapshot) : Bool := s.entries.isEmpty

def names (s : Snapshot) : List String := s.entries.map (·.name)

/-! ## Updating -/

/-- Placing an entry adds its name at the end, unless it is there already. -/
theorem map_name_place (e : Entry) (es : List Entry) :
    (place e es).map (·.name) =
      if e.name ∈ es.map (·.name) then es.map (·.name) else es.map (·.name) ++ [e.name] := by
  induction es with
  | nil => simp [place]
  | cons f rest ih =>
    by_cases h : f.name = e.name
    · simp [place, h]
    · simp only [place, if_neg h, List.map_cons, ih, List.mem_cons, Ne.symm h, false_or]
      split <;> rfl

theorem find?_place_self (e : Entry) (es : List Entry) :
    (place e es).find? (fun f => f.name == e.name) = some e := by
  induction es with
  | nil => simp [place]
  | cons f rest ih =>
    by_cases h : f.name = e.name
    · simp [place, h]
    · simp [place, h, ih]

theorem find?_place_of_ne {e : Entry} {name : String} (h : e.name ≠ name) (es : List Entry) :
    (place e es).find? (fun f => f.name == name) = es.find? fun f => f.name == name := by
  induction es with
  | nil => simp [place, h]
  | cons f rest ih =>
    by_cases hf : f.name = e.name
    · simp [place, hf, h]
    · by_cases hn : f.name = name
      · subst hn; simp [place, hf]
      · simp [place, if_neg hf, hn, ih]

theorem names_upsert (s : Snapshot) (now : Timestamp) (name desired reported : String) :
    (s.upsert now name desired reported).names =
      if name ∈ s.names then s.names else s.names ++ [name] :=
  map_name_place _ _

theorem get?_upsert_self (s : Snapshot) (now : Timestamp) (name desired reported : String) :
    (s.upsert now name desired reported).get? name = some ⟨name, desired, reported, now⟩ :=
  find?_place_self ⟨name, desired, reported, now⟩ s.entries

theorem get?_upsert_of_ne (s : Snapshot) (now : Timestamp) {name other : String}
    (h : name ≠ other) (desired reported : String) :
    (s.upsert now name desired reported).get? other = s.get? other :=
  find?_place_of_ne h s.entries

end Snapshot
end GattSync.Status
