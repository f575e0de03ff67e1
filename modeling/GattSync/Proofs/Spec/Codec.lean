import GattSync.Spec.Codec
import GattSync.Proofs.Json.Records
import GattSync.Proofs.Uuid.Text
import Mathlib.Data.String.Basic

/-!
# Device specs and their encodings

A spec is decoded from its encoding (`DeviceSpec.ofJson?_toJson`), except for what no spec that is
decoded or assembled has in it: an access mode that is called unrecognized although its name is
known, and write entries out of order (`DeviceSpec.IsRegular`). Operands are assumed to be recovered
from their numerals.
-/

namespace GattSync

open Json

/-! ## Layouts -/

theorem Arithmetic.ofJson?_toJson (a : Arithmetic) : ofJson? a.toJson = some a := by
  cases a <;> rfl

theorem Arithmetic.isLegible_toJson (a : Arithmetic) : a.toJson.IsLegible := isLegible_ofText a.name

theorem Operation.toJson_eq (op : Operation) : op.toJson =
    record ["operationType", "operationValue"] [op.kind.toJson, ofFloat op.operand] := rfl

theorem Operation.ofJson?_toJson {op : Operation} (h : IsRecovered op.operand) :
    ofJson? op.toJson = some op := by
  rw [ofJson?, toJson_eq, asFields?_record (by decide) rfl]
  simp [required?, Arithmetic.ofJson?_toJson, asFloat?_ofFloat h]

theorem Operation.isFinite_of_given {op : Operation} (h : Given ofJson? op) :
    op.operand.isFinite = true := by
  obtain ⟨v, h⟩ := h
  obtain ⟨fields, -, h⟩ := Option.bind_eq_some_iff.mp h
  split at h
  · obtain ⟨kind, -, h⟩ := Option.bind_eq_some_iff.mp h
    obtain ⟨operand, ho, h⟩ := Option.bind_eq_some_iff.mp h
    obtain rfl := Option.some.inj h
    exact Json.isFinite_of_given (given_of_required? ho)
  · cases h

theorem Operation.isLegible_toJson (op : Operation) : op.toJson.IsLegible := by
  rw [toJson_eq]
  apply isLegible_record
  simp [Arithmetic.isLegible_toJson, isLegible_ofFloat]

namespace Layout

/-- The constants that a layout calculates with. -/
def operands (l : Layout) : List Float := l.operations.map (·.operand)

theorem toJson_eq (l : Layout) : l.toJson =
    record ["startIndex", "endIndex", "shiftLeft", "shiftRight", "orderOfOperations"]
      [ofNat l.start.toNat, ofNat l.stop.toNat, ofNat l.shiftLeft.toNat, ofNat l.shiftRight.toNat,
        .array (l.operations.map Operation.toJson)] := rfl

theorem index?_ofNat (n : UInt64) : index? (ofNat n.toNat) = some n := by
  rw [index?, asNat?_ofNat n.toNat_lt]
  exact congrArg some UInt64.ofNat_toNat

theorem places?_ofNat (n : UInt32) : places? (ofNat n.toNat) = some n := by
  rw [places?, asNat?_ofNat n.toNat_lt]
  exact congrArg some UInt32.ofNat_toNat

theorem ofJson?_toJson {l : Layout} (h : ∀ x ∈ l.operands, IsRecovered x) :
    ofJson? l.toJson = some l := by
  have operations : asList? Operation.ofJson? (.array (l.operations.map Operation.toJson)) =
      some l.operations :=
    asList?_map fun op mem => Operation.ofJson?_toJson (h _ (List.mem_map_of_mem mem))
  rw [ofJson?, toJson_eq, asFields?_record (by decide) rfl]
  simp [optional?, index?_ofNat, places?_ofNat, operations]

theorem isFinite_of_given {l : Layout} (h : Given ofJson? l) :
    ∀ x ∈ l.operands, x.isFinite = true := by
  obtain ⟨v, h⟩ := h
  obtain ⟨fields, -, h⟩ := Option.bind_eq_some_iff.mp h
  split at h
  · obtain ⟨start, -, h⟩ := Option.bind_eq_some_iff.mp h
    obtain ⟨stop, -, h⟩ := Option.bind_eq_some_iff.mp h
    obtain ⟨left, -, h⟩ := Option.bind_eq_some_iff.mp h
    obtain ⟨right, -, h⟩ := Option.bind_eq_some_iff.mp h
    obtain ⟨operations, ho, h⟩ := Option.bind_eq_some_iff.mp h
    obtain rfl := Option.some.inj h
    intro x hx
    obtain ⟨op, mem, rfl⟩ := List.mem_map.mp hx
    rcases given_of_optional? ho with rfl | given
    · cases mem
    · exact Operation.isFinite_of_given (given_of_mem_asList? given mem)
  · cases h

theorem isLegible_toJson (l : Layout) : l.toJson.IsLegible := by
  have operations : (array (l.operations.map Operation.toJson)).IsLegible :=
    isLegible_array (List.forall_mem_map.mpr fun op _ => op.isLegible_toJson)
  rw [toJson_eq]
  apply isLegible_record
  simp [isLegible_ofNat, operations]

end Layout

/-! ## Access modes and identities -/

theorem AccessMode.ofJson?_toJson {m : AccessMode} (h : AccessMode.ofText m.text = m) :
    ofJson? m.toJson = some m :=
  congrArg some h

theorem AccessMode.ofText_text_of_given {m : AccessMode} (h : Given ofJson? m) :
    AccessMode.ofText m.text = m := by
  obtain ⟨v, h⟩ := h
  obtain ⟨s, -, rfl⟩ := Option.map_eq_some_iff.mp h
  rw [text_ofText]

theorem ProtocolIdentity.toJson_eq (i : ProtocolIdentity) : i.toJson =
    record ["name", "macAddress"] [ofText i.name, ofText i.macAddress] := rfl

theorem ProtocolIdentity.ofJson?_toJson (i : ProtocolIdentity) : ofJson? i.toJson = some i := by
  rw [ofJson?, toJson_eq, asFields?_record (by decide) rfl]
  rfl

theorem ProtocolIdentity.isLegible_toJson (i : ProtocolIdentity) : i.toJson.IsLegible := by
  rw [toJson_eq]
  apply isLegible_record
  simp [isLegible_ofText]

theorem AccessMode.isLegible_toJson (m : AccessMode) : m.toJson.IsLegible := isLegible_ofText m.text

/-! ## Write tables -/

namespace WriteTable

/-- The labels are in ascending order, each once. -/
def IsSorted (t : WriteTable) : Prop := t.entries.Pairwise fun e f => e.1 < f.1

variable {t : WriteTable} {es : List (String × Bytes)} {label : String} {payload : Bytes}

theorem fst_of_mem_insertEntry {e : String × Bytes} (h : e ∈ insertEntry label payload es) :
    e.1 = label ∨ e ∈ es := by
  fun_induction insertEntry label payload es with
  | case1 => exact .inl (congrArg Prod.fst (List.mem_singleton.mp h))
  | case2 =>
    rcases List.mem_cons.mp h with rfl | h
    · exact .inl rfl
    · exact .inr (List.mem_cons_of_mem _ h)
  | case3 =>
    rcases List.mem_cons.mp h with rfl | h
    · exact .inl rfl
    · exact .inr h
  | case4 l p rest ne ge ih =>
    rcases List.mem_cons.mp h with rfl | h
    · exact .inr List.mem_cons_self
    · exact (ih h).imp_right (List.mem_cons_of_mem _)

theorem isSorted_insert (h : t.IsSorted) (label : String) (payload : Bytes) :
    (t.insert label payload).IsSorted := by
  obtain ⟨es⟩ := t
  unfold IsSorted insert at *
  dsimp only at h ⊢
  fun_induction insertEntry label payload es with
  | case1 => exact List.pairwise_singleton _ _
  | case2 => exact List.pairwise_cons.mpr (List.pairwise_cons.mp h)
  | case3 l p rest ne lt =>
    refine List.pairwise_cons.mpr ⟨fun e he => ?_, h⟩
    rcases List.mem_cons.mp he with rfl | he
    · exact lt
    · exact lt.trans ((List.pairwise_cons.mp h).1 e he)
  | case4 l p rest ne ge ih =>
    obtain ⟨first, rest⟩ := List.pairwise_cons.mp h
    refine List.pairwise_cons.mpr ⟨fun e he => ?_, ih rest⟩
    rcases fst_of_mem_insertEntry he with eq | he
    · rw [eq]
      exact lt_of_le_of_ne (not_lt.mp ge) (Ne.symm ne)
    · exact first e he

theorem isSorted_ofList (es : List (String × Bytes)) : (ofList es).IsSorted := by
  unfold ofList
  have start : ({} : WriteTable).IsSorted := List.Pairwise.nil
  generalize ({} : WriteTable) = t at start ⊢
  induction es generalizing t with
  | nil => exact start
  | cons e es ih => exact ih _ (isSorted_insert start e.1 e.2)

/-- A label behind all others is put at the end. -/
theorem insertEntry_of_forall_lt (h : ∀ e ∈ es, e.1 < label) :
    insertEntry label payload es = es ++ [(label, payload)] := by
  induction es with
  | nil => rfl
  | cons e es ih =>
    obtain ⟨first, rest⟩ := List.forall_mem_cons.mp h
    rw [insertEntry, if_neg first.ne', if_neg first.not_gt, ih rest]
    rfl

/-- Entries that are in order behind those of a table are put behind them. -/
theorem foldl_insert (done : List (String × Bytes))
    (h : (done ++ es).Pairwise fun e f => e.1 < f.1) :
    es.foldl (fun (t : WriteTable) (label, payload) => t.insert label payload) ⟨done⟩ =
      ⟨done ++ es⟩ := by
  induction es generalizing done with
  | nil =>
    rw [List.append_nil]
    rfl
  | cons e es ih =>
    obtain ⟨label, payload⟩ := e
    have before : ∀ f ∈ done, f.1 < label :=
      fun f hf => (List.pairwise_append.mp h).2.2 f hf _ List.mem_cons_self
    have next : WriteTable.insert ⟨done⟩ label payload = ⟨done ++ [(label, payload)]⟩ :=
      congrArg WriteTable.mk (insertEntry_of_forall_lt before)
    have shifted : done ++ (label, payload) :: es = done ++ [(label, payload)] ++ es := by simp
    rw [List.foldl_cons, shifted]
    show es.foldl _ (WriteTable.insert ⟨done⟩ label payload) = _
    rw [next]
    exact ih _ (shifted ▸ h)

/-- A table in order is the table of its entries. -/
theorem ofList_entries (h : t.IsSorted) : ofList t.entries = t :=
  foldl_insert [] h

theorem octet?_ofNat (b : UInt8) : octet? (ofNat b.toNat) = some b := by
  rw [octet?, asNat?_ofNat b.toNat_lt]
  exact congrArg some UInt8.ofNat_toNat

theorem ofJson?_toJson (h : t.IsSorted) : ofJson? t.toJson = some t := by
  have payloads (payload : Bytes) : asList? octet? (payloadToJson payload) = some payload :=
    asList?_map fun b _ => octet?_ofNat b
  rw [ofJson?, toJson, asEntries?_map fun e _ => payloads e.2]
  exact congrArg some (ofList_entries h)

theorem isSorted_of_given (h : Given ofJson? t) : t.IsSorted := by
  obtain ⟨v, h⟩ := h
  obtain ⟨es, -, rfl⟩ := Option.map_eq_some_iff.mp h
  exact isSorted_ofList es

theorem isLegible_toJson (t : WriteTable) : t.toJson.IsLegible := by
  apply isLegible_object
  intro m hm
  obtain ⟨e, -, rfl⟩ := List.mem_map.mp hm
  exact ⟨rfl, isLegible_array (List.forall_mem_map.mpr fun b _ => isLegible_ofNat _)⟩

end WriteTable

/-! ## Properties -/

namespace Visitor

theorem toJson_eq (p : Visitor) : p.toJson =
    record ["characteristicUuid", "dataConverter", "dataWrite", "defaultValue"]
      [ofText p.characteristic.text, p.layout.toJson, p.writes.toJson, ofText p.defaultValue] := rfl

variable {p : Visitor}

theorem ofJson?_toJson (operands : ∀ x ∈ p.layout.operands, IsRecovered x)
    (sorted : p.writes.IsSorted) : ofJson? p.toJson = some p := by
  have characteristic : characteristic? (ofText p.characteristic.text) = some p.characteristic := by
    simp [characteristic?, Uuid.ofText?_text]
  rw [ofJson?, toJson_eq, asFields?_record (by decide) rfl]
  simp [required?, optional?, characteristic, Layout.ofJson?_toJson operands,
    WriteTable.ofJson?_toJson sorted]

theorem parts_of_given (h : Given ofJson? p) :
    (p.layout = {} ∨ Given Layout.ofJson? p.layout) ∧
      (p.writes = {} ∨ Given WriteTable.ofJson? p.writes) := by
  obtain ⟨v, h⟩ := h
  obtain ⟨fields, -, h⟩ := Option.bind_eq_some_iff.mp h
  split at h
  · obtain ⟨characteristic, -, h⟩ := Option.bind_eq_some_iff.mp h
    obtain ⟨layout, hl, h⟩ := Option.bind_eq_some_iff.mp h
    obtain ⟨writes, hw, h⟩ := Option.bind_eq_some_iff.mp h
    obtain ⟨defaultValue, -, h⟩ := Option.bind_eq_some_iff.mp h
    obtain rfl := Option.some.inj h
    exact ⟨given_of_optional? hl, given_of_optional? hw⟩
  · cases h

theorem isSorted_of_given (h : Given ofJson? p) : p.writes.IsSorted := by
  rcases (parts_of_given h).2 with default | given
  · rw [default]
    exact List.Pairwise.nil
  · exact WriteTable.isSorted_of_given given

theorem isFinite_of_given (h : Given ofJson? p) : ∀ x ∈ p.layout.operands, x.isFinite = true := by
  rcases (parts_of_given h).1 with default | given
  · rw [default]
    exact nofun
  · exact Layout.isFinite_of_given given

theorem isLegible_toJson (p : Visitor) : p.toJson.IsLegible := by
  rw [toJson_eq]
  apply isLegible_record
  simp [isLegible_ofText, Layout.isLegible_toJson, WriteTable.isLegible_toJson]

end Visitor

namespace Property

/-- The access mode is the one of its name, and the write table is in order. -/
structure IsRegular (p : Property) : Prop where
  access : AccessMode.ofText p.access.text = p.access
  writes : p.visitor.writes.IsSorted

/-- The constants that the property's readings are calculated with. -/
def operands (p : Property) : List Float := p.visitor.layout.operands

theorem toJson_eq (p : Property) : p.toJson =
    record ["name", "accessMode", "visitor"]
      [Json.ofText p.name, p.access.toJson, p.visitor.toJson] := rfl

variable {p : Property}

theorem ofJson?_toJson (regular : p.IsRegular) (operands : ∀ x ∈ p.operands, IsRecovered x) :
    ofJson? p.toJson = some p := by
  rw [ofJson?, toJson_eq, asFields?_record (by decide) rfl]
  simp [required?, AccessMode.ofJson?_toJson regular.access,
    Visitor.ofJson?_toJson operands regular.writes]

theorem parts_of_given (h : Given ofJson? p) :
    Given AccessMode.ofJson? p.access ∧ Given Visitor.ofJson? p.visitor := by
  obtain ⟨v, h⟩ := h
  obtain ⟨fields, -, h⟩ := Option.bind_eq_some_iff.mp h
  split at h
  · obtain ⟨name, -, h⟩ := Option.bind_eq_some_iff.mp h
    obtain ⟨access, ha, h⟩ := Option.bind_eq_some_iff.mp h
    obtain ⟨visitor, hv, h⟩ := Option.bind_eq_some_iff.mp h
    obtain rfl := Option.some.inj h
    exact ⟨given_of_required? ha, given_of_required? hv⟩
  · cases h

theorem isRegular_of_given (h : Given ofJson? p) : p.IsRegular where
  access := AccessMode.ofText_text_of_given (parts_of_given h).1
  writes := Visitor.isSorted_of_given (parts_of_given h).2

theorem isFinite_of_given (h : Given ofJson? p) : ∀ x ∈ p.operands, x.isFinite = true :=
  Visitor.isFinite_of_given (parts_of_given h).2

theorem isLegible_toJson (p : Property) : p.toJson.IsLegible := by
  rw [toJson_eq]
  apply isLegible_record
  simp [isLegible_ofText, AccessMode.isLegible_toJson, Visitor.isLegible_toJson]

end Property

/-! ## Specs -/

namespace DeviceSpec

/-- The constants that a spec's readings are calculated with. -/
def operands (s : DeviceSpec) : List Float := s.properties.flatMap (·.operands)

def IsRegular (s : DeviceSpec) : Prop := ∀ p ∈ s.properties, p.IsRegular

theorem toJson_eq (s : DeviceSpec) : s.toJson =
    record ["protocol", "properties"]
      [s.protocol.toJson, .array (s.properties.map Property.toJson)] := rfl

variable {s : DeviceSpec}

theorem ofJson?_toJson (regular : s.IsRegular) (operands : ∀ x ∈ s.operands, IsRecovered x) :
    ofJson? s.toJson = some s := by
  have properties : asList? Property.ofJson? (.array (s.properties.map Property.toJson)) =
      some s.properties :=
    asList?_map fun p mem => Property.ofJson?_toJson (regular p mem) fun x hx =>
      operands x (List.mem_flatMap_of_mem mem hx)
  rw [ofJson?, toJson_eq, asFields?_record (by decide) rfl]
  simp [optional?, ProtocolIdentity.ofJson?_toJson, properties]

theorem given_of_mem {p : Property} (h : Given ofJson? s) (mem : p ∈ s.properties) :
    Given Property.ofJson? p := by
  obtain ⟨v, h⟩ := h
  obtain ⟨fields, -, h⟩ := Option.bind_eq_some_iff.mp h
  split at h
  · obtain ⟨protocol, -, h⟩ := Option.bind_eq_some_iff.mp h
    obtain ⟨properties, hp, h⟩ := Option.bind_eq_some_iff.mp h
    obtain rfl := Option.some.inj h
    rcases given_of_optional? hp with rfl | given
    · cases mem
    · exact given_of_mem_asList? given mem
  · cases h

theorem isRegular_of_given (h : Given ofJson? s) : s.IsRegular :=
  fun _ mem => Property.isRegular_of_given (given_of_mem h mem)

theorem isFinite_of_given (h : Given ofJson? s) : ∀ x ∈ s.operands, x.isFinite = true := by
  intro x hx
  obtain ⟨p, mem, hx⟩ := List.mem_flatMap.mp hx
  exact Property.isFinite_of_given (given_of_mem h mem) x hx

theorem isLegible_toJson (s : DeviceSpec) : s.toJson.IsLegible := by
  have properties : (array (s.properties.map Property.toJson)).IsLegible :=
    isLegible_array (List.forall_mem_map.mpr fun p _ => p.isLegible_toJson)
  rw [toJson_eq]
  apply isLegible_record
  simp [ProtocolIdentity.isLegible_toJson, properties]

end DeviceSpec

/-! ## Assembled specs -/

/-- A property that is made and fitted out step by step, with a mode that is given by its name. -/
inductive Property.IsAssembled : Property → Prop where
  | on (name mode : String) (characteristic : Uuid) :
      IsAssembled (.on name (.ofText mode) characteristic)
  | withLayout {p : Property} (layout : Layout) (h : IsAssembled p) :
      IsAssembled (p.withLayout layout)
  | withWrite {p : Property} (label : String) (payload : Bytes) (h : IsAssembled p) :
      IsAssembled (p.withWrite label payload)
  | withDefault {p : Property} (label : String) (h : IsAssembled p) :
      IsAssembled (p.withDefault label)

/-- A spec that is made for an identity, with one assembled property after the other. -/
inductive DeviceSpec.IsAssembled : DeviceSpec → Prop where
  | new (protocol : ProtocolIdentity) : IsAssembled { protocol }
  | withProperty {s : DeviceSpec} {p : Property} (hs : IsAssembled s) (hp : p.IsAssembled) :
      IsAssembled (s.withProperty p)

theorem Property.IsAssembled.isRegular {p : Property} (h : p.IsAssembled) : p.IsRegular := by
  induction h with
  | on name mode characteristic =>
    exact ⟨congrArg AccessMode.ofText (AccessMode.text_ofText mode), List.Pairwise.nil⟩
  | withLayout layout h ih => exact ⟨ih.access, ih.writes⟩
  | withWrite label payload h ih =>
    exact ⟨ih.access, WriteTable.isSorted_insert ih.writes label payload⟩
  | withDefault label h ih => exact ⟨ih.access, ih.writes⟩

theorem DeviceSpec.IsAssembled.isRegular {s : DeviceSpec} (h : s.IsAssembled) : s.IsRegular := by
  induction h with
  | new protocol => exact nofun
  | withProperty hs hp ih =>
    exact List.forall_mem_append.mpr ⟨ih, List.forall_mem_singleton.mpr hp.isRegular⟩

end GattSync
