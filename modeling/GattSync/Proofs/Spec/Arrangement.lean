import GattSync.Proofs.Json.Arrangement
import GattSync.Proofs.Spec.Codec

/-!
# Specs in other arrangements

For every record that a spec is made of, its fields, what they are the same with, and what they can
have in them twice. A field that is a record, or a list of records, goes by the arrangements of
these, so that a spec is decoded alike whatever is rearranged at any depth of it
(`DeviceSpec.ofJson?_eq_of_isRearranged`).

A write table is no record. Its labels are not known beforehand, one label may be given more than
once, and decoding it amounts to adding its entries to the property one by one
(`Property.ofJson?_writes`).
-/

namespace GattSync

open Json

variable {v v' : Json}

/-! ## Write tables -/

namespace WriteTable

/-- Two entries with different labels that stand side by side change places. -/
inductive Swap : Json → Json → Prop where
  | swap (before after : List (Option String × Json)) {m m' : Option String × Json}
    (h : m.1 ≠ m'.1) :
    Swap (.object (before ++ m :: m' :: after)) (.object (before ++ m' :: m :: after))

/-- The entries are in another order, but those under one label are not. -/
def IsRearranged : Json → Json → Prop := Relation.EqvGen Swap

theorem insertEntry_comm {label other : String} (h : label ≠ other) (payload payload' : Bytes)
    (es : List (String × Bytes)) :
    insertEntry label payload (insertEntry other payload' es) =
      insertEntry other payload' (insertEntry label payload es) := by
  induction es with
  | nil => grind [insertEntry]
  | cons e es ih => grind [insertEntry]

theorem insert_comm {label other : String} (h : label ≠ other) (payload payload' : Bytes)
    (t : WriteTable) :
    (t.insert other payload').insert label payload =
      (t.insert label payload).insert other payload' :=
  congrArg mk (insertEntry_comm h payload payload' t.entries)

theorem insertEntry_insertEntry (label : String) (payload payload' : Bytes)
    (es : List (String × Bytes)) :
    insertEntry label payload' (insertEntry label payload es) = insertEntry label payload' es := by
  induction es with
  | nil => grind [insertEntry]
  | cons e es ih => grind [insertEntry]

theorem insert_insert (t : WriteTable) (label : String) (payload payload' : Bytes) :
    (t.insert label payload).insert label payload' = t.insert label payload' :=
  congrArg mk (insertEntry_insertEntry label payload payload' t.entries)

theorem ofList_swap (es es' : List (String × Bytes)) {e e' : String × Bytes} (h : e.1 ≠ e'.1) :
    ofList (es ++ e :: e' :: es') = ofList (es ++ e' :: e :: es') := by
  simp only [ofList, List.foldl_append, List.foldl_cons]
  rw [insert_comm h]

/-- The table with entries put in one after the other. -/
def insertAll (t : WriteTable) (es : List (String × Bytes)) : WriteTable :=
  es.foldl (fun t e => t.insert e.1 e.2) t

/-- Of the payloads put in under one label the last one is there. -/
theorem get?_insertAll (t : WriteTable) (es : List (String × Bytes)) (label : String) :
    (t.insertAll es).get? label = (es.reverse.lookup label).or (t.get? label) := by
  induction es using List.reverseRecOn with
  | nil => rfl
  | append_singleton es e ih =>
    rw [insertAll, List.foldl_append, List.reverse_append]
    show ((t.insertAll es).insert e.1 e.2).get? label =
      (List.lookup label (e :: es.reverse)).or (t.get? label)
    by_cases same : label = e.1
    · rw [same, get?_insert_self, List.lookup_cons_self, Option.some_or]
    · rw [get?_insert_of_ne _ same, ih, List.lookup_cons, beq_false_of_ne same]

/-- An entry is decoded with its label. -/
theorem fst_of_entry {decode : Json → Option Bytes} {m : Option String × Json} {e : String × Bytes}
    (h : (do some (← m.1, ← decode m.2)) = some e) : m.1 = some e.1 := by
  obtain ⟨label, key, h⟩ := Option.bind_eq_some_iff.mp h
  obtain ⟨payload, -, h⟩ := Option.bind_eq_some_iff.mp h
  obtain rfl := Option.some.inj h
  exact key

theorem mapM_swap {β γ δ : Type} {read : β → Option γ} {g : List γ → δ} {b b' : β}
    (before after : List β)
    (h : ∀ cs c c' cs', read b = some c → read b' = some c' →
      g (cs ++ c :: c' :: cs') = g (cs ++ c' :: c :: cs')) :
    ((before ++ b :: b' :: after).mapM read).map g =
      ((before ++ b' :: b :: after).mapM read).map g := by
  simp only [List.mapM_append, List.mapM_cons]
  cases before.mapM read with
  | none => rfl
  | some cs =>
    cases hb : read b with
    | none => cases read b' <;> rfl
    | some c =>
      cases hb' : read b' with
      | none => rfl
      | some c' =>
        cases after.mapM read with
        | none => rfl
        | some cs' => exact congrArg some (h cs c c' cs' hb hb')

/-- Entries in another order make the same table. -/
theorem ofJson?_eq_of_isRearranged (h : IsRearranged v v') : ofJson? v = ofJson? v' := by
  refine eq_of_eqvGen ofJson? h fun v v' swap => ?_
  obtain ⟨before, after, ne⟩ := swap
  refine mapM_swap before after fun es e e' es' he he' => ofList_swap es es' fun same => ne ?_
  rw [fst_of_entry he, fst_of_entry he', same]

end WriteTable

/-! ## Layouts -/

def Operation.forms : List Form := [{ name := "operationType" }, { name := "operationValue" }]

def Operation.IsRearranged : Json → Json → Prop := Rearranged forms

def Operation.Repeats : Json → Prop := Json.Repeats forms

theorem Operation.ofJson?_eq_of_isRearranged (h : IsRearranged v v') : ofJson? v = ofJson? v' := by
  refine h.bind_eq (by decide) fun xs ys same => ?_
  obtain _ | ⟨kind, _ | ⟨operand, ⟨⟩⟩⟩ := same
  simp only [kind.required?_eq rfl fun _ _ => congrArg Arithmetic.ofJson?,
    operand.required?_eq rfl fun _ _ => congrArg asFloat?]

theorem Operation.ofJson?_eq_none (h : Repeats v) : ofJson? v = none := by
  refine h.bind_eq_none fun xs faulty => ?_
  obtain ⟨⟨⟩⟩ | ⟨-, kind, ⟨⟨⟩⟩ | ⟨-, operand, ⟨⟩⟩⟩ := faulty

namespace Layout

def forms : List Form :=
  [{ name := "startIndex", default? := some (ofNat 0) },
   { name := "endIndex", default? := some (ofNat 0) },
   { name := "shiftLeft", default? := some (ofNat 0) },
   { name := "shiftRight", default? := some (ofNat 0) },
   { name := "orderOfOperations", default? := some (.array []),
     alike := ItemsAlike Operation.IsRearranged, repeats := HasItem Operation.Repeats }]

def IsRearranged : Json → Json → Prop := Rearranged forms

def Repeats : Json → Prop := Json.Repeats forms

theorem ofJson?_eq_of_isRearranged (h : IsRearranged v v') : ofJson? v = ofJson? v' := by
  refine h.bind_eq (by decide) fun xs ys same => ?_
  obtain _ | ⟨start, _ | ⟨stop, _ | ⟨left, _ | ⟨right, _ | ⟨operations, ⟨⟩⟩⟩⟩⟩⟩ := same
  have operations := operations.optional?_eq (d := []) rfl rfl fun _ _ alike =>
    alike.asList?_eq fun _ _ => Operation.ofJson?_eq_of_isRearranged
  simp only [start.optional?_eq rfl (index?_ofNat 0) fun _ _ => congrArg index?,
    stop.optional?_eq rfl (index?_ofNat 0) fun _ _ => congrArg index?,
    left.optional?_eq rfl (places?_ofNat 0) fun _ _ => congrArg places?,
    right.optional?_eq rfl (places?_ofNat 0) fun _ _ => congrArg places?, operations]

theorem ofJson?_eq_none (h : Repeats v) : ofJson? v = none := by
  refine h.bind_eq_none fun xs faulty => ?_
  -- Only the operations are records.
  obtain ⟨⟨⟩⟩ | ⟨-, start, ⟨⟨⟩⟩ | ⟨-, stop, ⟨⟨⟩⟩ | ⟨-, left, ⟨⟨⟩⟩ | ⟨-, right,
    ⟨h, -, more⟩ | ⟨-, -, ⟨⟩⟩⟩⟩⟩⟩ := faulty
  have operations := h.asList?_eq_none fun _ => Operation.ofJson?_eq_none
  cases more with
  | nil => simp [optional?, operations]
  | cons => rfl

end Layout

/-! ## Identities -/

namespace ProtocolIdentity

def forms : List Form :=
  [{ name := "name", default? := some (ofText "") },
   { name := "macAddress", default? := some (ofText "") }]

def IsRearranged : Json → Json → Prop := Rearranged forms

def Repeats : Json → Prop := Json.Repeats forms

theorem ofJson?_eq_of_isRearranged (h : IsRearranged v v') : ofJson? v = ofJson? v' := by
  refine h.bind_eq (by decide) fun xs ys same => ?_
  obtain _ | ⟨name, _ | ⟨macAddress, ⟨⟩⟩⟩ := same
  simp only [name.optional?_eq rfl (asText?_ofText "") fun _ _ => congrArg asText?,
    macAddress.optional?_eq rfl (asText?_ofText "") fun _ _ => congrArg asText?]

theorem ofJson?_eq_none (h : Repeats v) : ofJson? v = none := by
  refine h.bind_eq_none fun xs faulty => ?_
  obtain ⟨⟨⟩⟩ | ⟨-, name, ⟨⟨⟩⟩ | ⟨-, macAddress, ⟨⟩⟩⟩ := faulty

end ProtocolIdentity

/-! ## Properties -/

namespace Visitor

def forms : List Form :=
  [{ name := "characteristicUuid" },
   { name := "dataConverter", default? := some (Layout.toJson {}), alike := Layout.IsRearranged,
     repeats := Layout.Repeats },
   { name := "dataWrite", default? := some (.object []), alike := WriteTable.IsRearranged },
   { name := "defaultValue", default? := some (ofText "") }]

def IsRearranged : Json → Json → Prop := Rearranged forms

def Repeats : Json → Prop := Json.Repeats forms

theorem ofJson?_eq_of_isRearranged (h : IsRearranged v v') : ofJson? v = ofJson? v' := by
  refine h.bind_eq (by decide) fun xs ys same => ?_
  obtain _ | ⟨characteristic, _ | ⟨layout, _ | ⟨writes, _ | ⟨defaultValue, ⟨⟩⟩⟩⟩⟩ := same
  have layout := layout.optional?_eq rfl (Layout.ofJson?_toJson nofun) fun _ _ =>
    Layout.ofJson?_eq_of_isRearranged
  have writes := writes.optional?_eq (d := {}) rfl rfl fun _ _ =>
    WriteTable.ofJson?_eq_of_isRearranged
  simp only [characteristic.required?_eq rfl fun _ _ => congrArg characteristic?, layout, writes,
    defaultValue.optional?_eq rfl (asText?_ofText "") fun _ _ => congrArg asText?]

theorem ofJson?_eq_none (h : Repeats v) : ofJson? v = none := by
  refine h.bind_eq_none fun xs faulty => ?_
  obtain ⟨⟨⟩⟩ | ⟨-, characteristic, ⟨h, -, more⟩ | ⟨-, layout, ⟨⟨⟩⟩ | ⟨-, writes, ⟨⟨⟩⟩ |
    ⟨-, defaultValue, ⟨⟩⟩⟩⟩⟩ := faulty
  rcases more with _ | ⟨writes, _ | ⟨defaultValue, _ | _⟩⟩
  · rfl
  · rfl
  · simp [optional?, Layout.ofJson?_eq_none h]
  · rfl

end Visitor

namespace Property

def forms : List Form :=
  [{ name := "name" }, { name := "accessMode" },
   { name := "visitor", alike := Visitor.IsRearranged, repeats := Visitor.Repeats }]

def IsRearranged : Json → Json → Prop := Rearranged forms

def Repeats : Json → Prop := Json.Repeats forms

theorem ofJson?_eq_of_isRearranged (h : IsRearranged v v') : ofJson? v = ofJson? v' := by
  refine h.bind_eq (by decide) fun xs ys same => ?_
  obtain _ | ⟨name, _ | ⟨access, _ | ⟨visitor, ⟨⟩⟩⟩⟩ := same
  simp only [name.required?_eq rfl fun _ _ => congrArg asText?,
    access.required?_eq rfl fun _ _ => congrArg AccessMode.ofJson?,
    visitor.required?_eq rfl fun _ _ => Visitor.ofJson?_eq_of_isRearranged]

theorem ofJson?_eq_none (h : Repeats v) : ofJson? v = none := by
  refine h.bind_eq_none fun xs faulty => ?_
  obtain ⟨⟨⟩⟩ | ⟨-, name, ⟨⟨⟩⟩ | ⟨-, access, ⟨h, -, more⟩ | ⟨-, visitor, ⟨⟩⟩⟩⟩ := faulty
  cases more with
  | nil => simp [required?, Visitor.ofJson?_eq_none h]
  | cons => rfl

end Property

/-! ## Entries one by one -/

variable {before after ms : List (Option String × Json)} {es : List (String × Bytes)}

/-- A visitor with entries is one without any that the entries are put into. -/
theorem Visitor.ofJson?_writes (fresh : ∀ m ∈ before ++ after, m.1 ≠ some "dataWrite")
    (entries : asEntries? (asList? WriteTable.octet?) (.object ms) = some es) :
    ofJson? (.object (before ++ member "dataWrite" (.object ms) :: after)) =
      (ofJson? (.object (before ++ after))).map fun p =>
        { p with writes := p.writes.insertAll es } := by
  obtain ⟨first, last⟩ := List.forall_mem_append.mp fresh
  have given := field?_append_cons (v := .object ms) first last
  have left := field?_of_left fresh
  have table : WriteTable.ofJson? (.object ms) = some (.ofList es) := by
    rw [WriteTable.ofJson?, entries]
    rfl
  have keys : ((before ++ member "dataWrite" (.object ms) :: after).all fun m => m.1.isSome) =
      (before ++ after).all fun m => m.1.isSome := by
    simp [member]
  -- All other fields are found alike, and the table that is left out is the empty one.
  simp only [ofJson?, asFields?_object, keys]
  split
  · simp only [List.mapM_cons, List.mapM_nil, given, left,
      field?_of_ne (show "characteristicUuid" ≠ "dataWrite" by decide),
      field?_of_ne (show "dataConverter" ≠ "dataWrite" by decide),
      field?_of_ne (show "defaultValue" ≠ "dataWrite" by decide)]
    cases field? (before ++ after) "characteristicUuid" with
    | none => rfl
    | some characteristic =>
      cases field? (before ++ after) "dataConverter" with
      | none => rfl
      | some layout =>
        cases field? (before ++ after) "defaultValue" with
        | none => rfl
        | some defaultValue =>
          simp only [Option.bind_eq_bind, Option.bind_some, Option.pure_def, optional?.eq_2,
            optional?.eq_1, table]
          cases required? characteristic? characteristic with
          | none => rfl
          | some u =>
            cases optional? Layout.ofJson? {} layout with
            | none => rfl
            | some l => cases optional? asText? "" defaultValue <;> rfl
  · rfl

namespace Property

/-- The property with write entries added one after the other. -/
def withWrites (p : Property) (es : List (String × Bytes)) : Property :=
  es.foldl (fun p e => p.withWrite e.1 e.2) p

theorem withWrites_eq (p : Property) (es : List (String × Bytes)) :
    p.withWrites es =
      { p with visitor := { p.visitor with writes := p.visitor.writes.insertAll es } } := by
  induction es generalizing p with
  | nil => rfl
  | cons e es ih => exact ih (p.withWrite e.1 e.2)

theorem ofJson?_record (name access visitor : Json) :
    ofJson? (record ["name", "accessMode", "visitor"] [name, access, visitor]) =
      (asText? name).bind fun name => (AccessMode.ofJson? access).bind fun access =>
        (Visitor.ofJson? visitor).map (Property.mk name access) := by
  rw [ofJson?, asFields?_record (by decide) rfl]
  simp [required?, Option.map_eq_bind]

/-- A property with entries is decoded as if they had been added one by one. -/
theorem ofJson?_writes (name access : Json) (fresh : ∀ m ∈ before ++ after, m.1 ≠ some "dataWrite")
    (entries : asEntries? (asList? WriteTable.octet?) (.object ms) = some es) :
    ofJson? (record ["name", "accessMode", "visitor"]
        [name, access, .object (before ++ member "dataWrite" (.object ms) :: after)]) =
      (ofJson? (record ["name", "accessMode", "visitor"]
        [name, access, .object (before ++ after)])).map (·.withWrites es) := by
  rw [ofJson?_record, ofJson?_record, Visitor.ofJson?_writes fresh entries]
  cases asText? name with
  | none => rfl
  | some name =>
    cases AccessMode.ofJson? access with
    | none => rfl
    | some access =>
      cases Visitor.ofJson? (.object (before ++ after)) with
      | none => rfl
      | some p => exact congrArg some (withWrites_eq ⟨name, access, p⟩ es).symm

end Property

/-! ## Specs -/

namespace DeviceSpec

def forms : List Form :=
  [{ name := "protocol", default? := some (ProtocolIdentity.toJson {}),
     alike := ProtocolIdentity.IsRearranged, repeats := ProtocolIdentity.Repeats },
   { name := "properties", default? := some (.array []),
     alike := ItemsAlike Property.IsRearranged, repeats := HasItem Property.Repeats }]

def IsRearranged : Json → Json → Prop := Rearranged forms

def Repeats : Json → Prop := Json.Repeats forms

theorem ofJson?_eq_of_isRearranged (h : IsRearranged v v') : ofJson? v = ofJson? v' := by
  refine h.bind_eq (by decide) fun xs ys same => ?_
  obtain _ | ⟨protocol, _ | ⟨properties, ⟨⟩⟩⟩ := same
  have protocol := protocol.optional?_eq rfl (ProtocolIdentity.ofJson?_toJson {}) fun _ _ =>
    ProtocolIdentity.ofJson?_eq_of_isRearranged
  have properties := properties.optional?_eq (d := []) rfl rfl fun _ _ alike =>
    alike.asList?_eq fun _ _ => Property.ofJson?_eq_of_isRearranged
  simp only [protocol, properties]

theorem ofJson?_eq_none (h : Repeats v) : ofJson? v = none := by
  refine h.bind_eq_none fun xs faulty => ?_
  obtain ⟨h, -, more⟩ | ⟨-, protocol, ⟨h, -, more⟩ | ⟨-, properties, ⟨⟩⟩⟩ := faulty
  · rcases more with _ | ⟨properties, _ | _⟩
    · rfl
    · simp [optional?, ProtocolIdentity.ofJson?_eq_none h]
    · rfl
  · have properties := h.asList?_eq_none fun _ => Property.ofJson?_eq_none
    cases more with
    | nil => simp [optional?, properties]
    | cons => rfl

end DeviceSpec

end GattSync
