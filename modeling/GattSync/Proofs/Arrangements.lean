import GattSync.Proofs.Config.Codec
import GattSync.Proofs.Spec.Arrangement

/-!
# Arrangements make no difference

A spec and a configuration are decoded alike from every arrangement of their text
(`arrangements_alike`). Members may come in any order, others may be among them, and each record may
be given as the array of its fields, at all depths and independently of the other records. A member
that is given twice is refused at every depth.

The entries of a write table are no fields. They may come in any order, too, but one label may be
given more than once; then the last payload counts, just as if the entries had been added to the
property one after the other.
-/

namespace GattSync

open Json

namespace SyncConfig

variable {v v' : Json}

def forms : List Form :=
  [{ name := "syncInterval", default? := some (ofNat 15) },
   { name := "timeout", default? := some (ofNat 60) },
   { name := "mtu", default? := some (ofNat 500) },
   { name := "observationWindow", default? := some (ofNat 5) },
   { name := "publishPoint", default? := some (PublishPoint.toJson .afterCycle) },
   { name := "statusSeed", default? := some (StatusSeed.toJson .initial) }]

def IsRearranged : Json → Json → Prop := Rearranged forms

def Repeats : Json → Prop := Json.Repeats forms

theorem seconds?_ofNat_of_lt {n : Nat} (h : n < 2 ^ 64) :
    seconds? (ofNat n) = some (.ofSeconds n) := by
  have read := seconds?_ofNat ⟨n, h, rfl⟩
  rwa [seconds_ofSeconds] at read

theorem ofJson?_eq_of_isRearranged (h : IsRearranged v v') : ofJson? v = ofJson? v' := by
  refine h.bind_eq (by decide) fun xs ys same => ?_
  obtain _ | ⟨interval, _ | ⟨timeout, _ | ⟨mtu, _ | ⟨window, _ | ⟨point, _ | ⟨seed, ⟨⟩⟩⟩⟩⟩⟩⟩ :=
    same
  have duration (n : Nat) (h : n < 2 ^ 64) {name : String} {x y : Option Json}
      (same : Form.Interchanges { name, default? := some (ofNat n) } x y) :
      optional? seconds? (.ofSeconds n) x = optional? seconds? (.ofSeconds n) y :=
    same.optional?_eq rfl (seconds?_ofNat_of_lt h) fun _ _ => congrArg seconds?
  have mtu := mtu.optional?_eq rfl (transferUnit?_ofNat 500) fun _ _ => congrArg transferUnit?
  have point := point.optional?_eq rfl (PublishPoint.ofJson?_toJson .afterCycle) fun _ _ =>
    congrArg PublishPoint.ofJson?
  have seed := seed.optional?_eq rfl (StatusSeed.ofJson?_toJson .initial) fun _ _ =>
    congrArg StatusSeed.ofJson?
  simp only [duration 15 (by decide) interval, duration 60 (by decide) timeout, mtu,
    duration 5 (by decide) window, point, seed]

theorem ofJson?_eq_none (h : Repeats v) : ofJson? v = none := by
  refine h.bind_eq_none fun xs faulty => ?_
  obtain ⟨⟨⟩⟩ | ⟨-, interval, ⟨⟨⟩⟩ | ⟨-, timeout, ⟨⟨⟩⟩ | ⟨-, mtu, ⟨⟨⟩⟩ | ⟨-, window, ⟨⟨⟩⟩ |
    ⟨-, point, ⟨⟨⟩⟩ | ⟨-, seed, ⟨⟩⟩⟩⟩⟩⟩⟩ := faulty

end SyncConfig

/-- What is given in one of its arrangements is decoded as in any other. -/
structure ArrangementsAlike : Prop where
  /-- Two texts of a spec give the same spec, or are refused both. -/
  spec {s s' : String} {v v' : Json} (hv : parse? s = some v) (hv' : parse? s' = some v')
    (h : DeviceSpec.IsRearranged v v') : DeviceSpec.ofText s = DeviceSpec.ofText s'
  specTwice {s : String} {v : Json} (hv : parse? s = some v) (h : DeviceSpec.Repeats v) :
    DeviceSpec.ofText s = .error .json
  /-- And so do two texts of a configuration. -/
  config {s s' : String} {v v' : Json} (hv : parse? s = some v) (hv' : parse? s' = some v')
    (h : SyncConfig.IsRearranged v v') : SyncConfig.ofText s = SyncConfig.ofText s'
  configTwice {s : String} {v : Json} (hv : parse? s = some v) (h : SyncConfig.Repeats v) :
    SyncConfig.ofText s = .error .json
  /-- Every legible arrangement has a text. -/
  text {v : Json} (h : v.IsLegible) : parse? v.render = some v
  /-- Entries of a write table are added to the property one after the other. -/
  entries (name access : Json) {before after ms : List (Option String × Json)}
    {es : List (String × Bytes)} (fresh : ∀ m ∈ before ++ after, m.1 ≠ some "dataWrite")
    (entries : asEntries? (asList? WriteTable.octet?) (.object ms) = some es) :
    Property.ofJson? (record ["name", "accessMode", "visitor"]
        [name, access, .object (before ++ member "dataWrite" (.object ms) :: after)]) =
      (Property.ofJson? (record ["name", "accessMode", "visitor"]
        [name, access, .object (before ++ after)])).map (·.withWrites es)
  /-- Of entries under one label the last one counts. -/
  last (p : Property) (es : List (String × Bytes)) (label : String) :
    (p.withWrites es).visitor.writes.get? label =
      (es.reverse.lookup label).or (p.visitor.writes.get? label)
  /-- Nothing is left of an entry that another one is put over. -/
  again (p : Property) (label : String) (payload payload' : Bytes) :
    (p.withWrite label payload).withWrite label payload' = p.withWrite label payload'
  /-- Entries under different labels may change places. -/
  order (p : Property) {label other : String} (h : label ≠ other) (payload payload' : Bytes) :
    (p.withWrite label payload).withWrite other payload' =
      (p.withWrite other payload').withWrite label payload

theorem arrangements_alike : ArrangementsAlike where
  spec hv hv' h := by
    rw [DeviceSpec.ofText, DeviceSpec.ofText, parse?_bind hv, parse?_bind hv',
      DeviceSpec.ofJson?_eq_of_isRearranged h]
  specTwice hv h := by
    rw [DeviceSpec.ofText, parse?_bind hv, DeviceSpec.ofJson?_eq_none h]
  config hv hv' h := by
    rw [SyncConfig.ofText, SyncConfig.ofText, parse?_bind hv, parse?_bind hv',
      SyncConfig.ofJson?_eq_of_isRearranged h]
  configTwice hv h := by
    rw [SyncConfig.ofText, parse?_bind hv, SyncConfig.ofJson?_eq_none h]
  text := parse?_render
  entries name access _ _ _ _ := Property.ofJson?_writes name access
  last p es label := by
    rw [Property.withWrites_eq]
    exact WriteTable.get?_insertAll p.visitor.writes es label
  again p label payload payload' := by
    unfold Property.withWrite
    rw [WriteTable.insert_insert]
  order p _ _ h payload payload' := by
    unfold Property.withWrite
    rw [WriteTable.insert_comm h]

/-! ## A lamp in two arrangements -/

namespace Lamp

/-- Entries of the write table. -/
def on : Option String × Json := member "on" (.array [ofNat 1])

def off : Option String × Json := member "off" (.array [ofNat 0])

/-- No field. -/
def note : Option String × Json := member "note" (.array [.array []])

def characteristic : Option String × Json := member "characteristicUuid" (ofText "2a19")

def visitor : Json := .object [characteristic, member "dataWrite" (.object [on, off])]

/-- With a note, the entries in another order, and the characteristic behind them. -/
def turnedVisitor : Json := .object [note, member "dataWrite" (.object [off, on]), characteristic]

/-- As the array of its fields. -/
def property (visitor : Json) : Json := .array [ofText "level", ofText "ReadWrite", visitor]

/-- The identity is left out. -/
def spec : Json := .object [member "properties" (.array [property visitor])]

/-- As the array of its fields, with the default for its identity. -/
def turnedSpec : Json := .array [ProtocolIdentity.toJson {}, .array [property turnedVisitor]]

theorem isRearranged_turnedVisitor : Visitor.IsRearranged visitor turnedVisitor := by
  have noted : Rearrangement Visitor.forms visitor
      (.object [note, characteristic, member "dataWrite" (.object [on, off])]) :=
    .unknown [] _ (.array [.array []]) (by decide)
  have ordered : Rearrangement Visitor.forms
      (.object [note, characteristic, member "dataWrite" (.object [on, off])])
      (.object [note, member "dataWrite" (.object [on, off]), characteristic]) :=
    .order (.cons _ (.swap _ _ _))
  have swapped : WriteTable.IsRearranged (.object [on, off]) (.object [off, on]) :=
    .rel _ _ (.swap [] [] (by decide))
  have entries : Rearrangement Visitor.forms
      (.object [note, member "dataWrite" (.object [on, off]), characteristic]) turnedVisitor :=
    .member [note] [characteristic] (.tail _ (.tail _ (.head _))) swapped
  exact .trans _ _ _ (.rel _ _ noted) (.trans _ _ _ (.rel _ _ ordered) (.rel _ _ entries))

theorem isRearranged_turnedSpec : DeviceSpec.IsRearranged spec turnedSpec := by
  have completed : Rearrangement DeviceSpec.forms spec
      (.object [member "protocol" (ProtocolIdentity.toJson {}),
        member "properties" (.array [property visitor])]) :=
    .default (.head _) rfl (by decide)
  have sequenced : Rearrangement DeviceSpec.forms
      (.object [member "protocol" (ProtocolIdentity.toJson {}),
        member "properties" (.array [property visitor])])
      (.array [ProtocolIdentity.toJson {}, .array [property visitor]]) :=
    @Rearrangement.sequence _ [ProtocolIdentity.toJson {}, .array [property visitor]] rfl
  have turned : Property.IsRearranged (property visitor) (property turnedVisitor) :=
    .rel _ _ (.item [_, _] [] rfl isRearranged_turnedVisitor)
  have properties : Rearrangement DeviceSpec.forms
      (.array [ProtocolIdentity.toJson {}, .array [property visitor]]) turnedSpec :=
    .item [_] [] rfl ⟨_, _, rfl, rfl, .cons turned .nil⟩
  exact .trans _ _ _ (.rel _ _ completed) (.trans _ _ _ (.rel _ _ sequenced)
    (.rel _ _ properties))

theorem isLegible_number (n : Nat) : (array [ofNat n]).IsLegible :=
  isLegible_array (List.forall_mem_singleton.mpr (isLegible_ofNat n))

theorem isLegible_property {visitor : Json} (h : visitor.IsLegible) :
    (property visitor).IsLegible :=
  isLegible_array (by simp [isLegible_ofText, h])

theorem isLegible_spec : spec.IsLegible := by
  have table : (object [on, off]).IsLegible :=
    isLegible_object (by simp [on, off, member, isLegible_number])
  have visitor : visitor.IsLegible :=
    isLegible_object (by simp [characteristic, member, isLegible_ofText, table])
  have properties : (array [property Lamp.visitor]).IsLegible :=
    isLegible_array (List.forall_mem_singleton.mpr (isLegible_property visitor))
  exact isLegible_object (List.forall_mem_singleton.mpr ⟨rfl, properties⟩)

theorem isLegible_turnedSpec : turnedSpec.IsLegible := by
  have table : (object [off, on]).IsLegible :=
    isLegible_object (by simp [on, off, member, isLegible_number])
  have nested : (array [array []]).IsLegible :=
    isLegible_array (List.forall_mem_singleton.mpr (isLegible_array (List.forall_mem_nil _)))
  have visitor : turnedVisitor.IsLegible :=
    isLegible_object (by simp [note, characteristic, member, isLegible_ofText, table, nested])
  have properties : (array [property turnedVisitor]).IsLegible :=
    isLegible_array (List.forall_mem_singleton.mpr (isLegible_property visitor))
  exact isLegible_array (by simp [ProtocolIdentity.isLegible_toJson, properties])

end Lamp

/-- The lamp's spec is accepted, and is the same in the other arrangement. -/
theorem arrangements_alike_lamp :
    DeviceSpec.IsRearranged Lamp.spec Lamp.turnedSpec ∧
      (DeviceSpec.ofText Lamp.spec.render).isOk ∧
      DeviceSpec.ofText Lamp.spec.render = DeviceSpec.ofText Lamp.turnedSpec.render := by
  have accepted : (DeviceSpec.ofJson? Lamp.spec).isSome := by decide +kernel
  refine ⟨Lamp.isRearranged_turnedSpec, ?_, arrangements_alike.spec
    (arrangements_alike.text Lamp.isLegible_spec)
    (arrangements_alike.text Lamp.isLegible_turnedSpec) Lamp.isRearranged_turnedSpec⟩
  obtain ⟨spec, decoded⟩ := Option.isSome_iff_exists.mp accepted
  rw [DeviceSpec.ofText_render Lamp.isLegible_spec decoded]
  rfl

end GattSync
