import GattSync.Cycle.Connection
import GattSync.Proofs.Config.Codec
import GattSync.Proofs.Spec.Codec
import GattSync.Proofs.Status.Codec

/-!
# What is read survives being written

Whatever a JSON text is read as, it is read as again from the text that it is written as
(`encodings_stable`). The same holds of every other value that is as regular as one that was read,
and so of every spec that has been assembled with operands that are finite. A text that was written
by hand need not come back as it was: a characteristic that was named by its short UUID comes back
with all 128 bits, what was left out comes back as its default, and write entries come back in
order. The value is the same.

Operands are the one thing that is not shown to come back. A numeral is rounded twice when it is
read, which may miss the number that it was written for; that it does not is assumed, of the finite
operands that a value has. That none of them is infinite is not assumed: what is read never is.
-/

namespace GattSync

open Json

theorem Connection.ofJson?_toJson (c : Connection) : ofJson? c.toJson = some c := by
  cases c <;> rfl

/-- None of these numbers is infinite or no number. -/
def AreFinite (xs : List Float) : Prop := ∀ x ∈ xs, x.isFinite = true

/-- Every finite one of these numbers is read back from the numeral that it is written by. -/
def RecoversFinite (xs : List Float) : Prop := ∀ x ∈ xs, x.isFinite = true → IsRecovered x

/-- For every type with an encoding: what any text is read as survives being written, and so does
every other value that is as regular. Where operands are in it, the finite ones are assumed to be
recovered. -/
structure EncodingsStable : Prop where
  spec : IsStable DeviceSpec.ofJson? DeviceSpec.toJson
    (fun s => s.IsRegular ∧ AreFinite s.operands) fun s => RecoversFinite s.operands
  protocol : IsStable ProtocolIdentity.ofJson? ProtocolIdentity.toJson fun _ => True
  property : IsStable Property.ofJson? Property.toJson
    (fun p => p.IsRegular ∧ AreFinite p.operands) fun p => RecoversFinite p.operands
  visitor : IsStable Visitor.ofJson? Visitor.toJson
    (fun p => p.writes.IsSorted ∧ AreFinite p.layout.operands)
    fun p => RecoversFinite p.layout.operands
  layout : IsStable Layout.ofJson? Layout.toJson
    (fun l => AreFinite l.operands) fun l => RecoversFinite l.operands
  operation : IsStable Operation.ofJson? Operation.toJson
    (fun op => AreFinite [op.operand]) fun op => RecoversFinite [op.operand]
  arithmetic : IsStable Arithmetic.ofJson? Arithmetic.toJson fun _ => True
  access : IsStable AccessMode.ofJson? AccessMode.toJson fun m => AccessMode.ofText m.text = m
  config : IsStable SyncConfig.ofJson? SyncConfig.toJson SyncConfig.IsWhole
  publishPoint : IsStable PublishPoint.ofJson? PublishPoint.toJson fun _ => True
  statusSeed : IsStable StatusSeed.ofJson? StatusSeed.toJson fun _ => True
  snapshot : IsStable Status.Snapshot.ofJson? Status.Snapshot.toJson Status.Snapshot.IsWritable
  entry : IsStable Status.Entry.ofJson? Status.Entry.toJson
    fun e => Rfc3339.IsWritable e.updatedAt
  device : IsStable DeviceIdentity.ofJson? DeviceIdentity.toJson fun _ => True
  publication : IsStable Status.Publication.ofJson? Status.Publication.toJson
    fun p => p.status.IsWritable
  connection : IsStable Connection.ofJson? Connection.toJson fun _ => True
  assembled : ∀ s : DeviceSpec, s.IsAssembled → AreFinite s.operands →
    RecoversFinite s.operands → Survives DeviceSpec.ofJson? DeviceSpec.toJson s

theorem RecoversFinite.isRecovered {xs : List Float} (h : RecoversFinite xs)
    (finite : AreFinite xs) : ∀ x ∈ xs, IsRecovered x :=
  fun x hx => h x hx (finite x hx)

theorem DeviceSpec.isStable : IsStable ofJson? toJson
    (fun s => s.IsRegular ∧ AreFinite s.operands) fun s => RecoversFinite s.operands :=
  .intro isLegible_toJson (fun _ given => ⟨isRegular_of_given given, isFinite_of_given given⟩)
    fun _ sound recovers => ofJson?_toJson sound.1 (recovers.isRecovered sound.2)

theorem encodings_stable : EncodingsStable where
  spec := DeviceSpec.isStable
  protocol := .intro ProtocolIdentity.isLegible_toJson (fun _ _ => trivial)
    fun i _ _ => i.ofJson?_toJson
  property := .intro Property.isLegible_toJson
    (fun _ given => ⟨Property.isRegular_of_given given, Property.isFinite_of_given given⟩)
    fun _ sound recovers => Property.ofJson?_toJson sound.1 (recovers.isRecovered sound.2)
  visitor := .intro Visitor.isLegible_toJson
    (fun _ given => ⟨Visitor.isSorted_of_given given, Visitor.isFinite_of_given given⟩)
    fun _ sound recovers => Visitor.ofJson?_toJson (recovers.isRecovered sound.2) sound.1
  layout := .intro Layout.isLegible_toJson (fun _ given => Layout.isFinite_of_given given)
    fun _ finite recovers => Layout.ofJson?_toJson (recovers.isRecovered finite)
  operation := .intro Operation.isLegible_toJson
    (fun _ given => List.forall_mem_singleton.mpr (Operation.isFinite_of_given given))
    fun _ finite recovers =>
      Operation.ofJson?_toJson (recovers.isRecovered finite _ List.mem_cons_self)
  arithmetic := .intro Arithmetic.isLegible_toJson (fun _ _ => trivial)
    fun a _ _ => a.ofJson?_toJson
  access := .intro AccessMode.isLegible_toJson
    (fun _ given => AccessMode.ofText_text_of_given given)
    fun _ known _ => AccessMode.ofJson?_toJson known
  config := .intro SyncConfig.isLegible_toJson (fun _ given => SyncConfig.isWhole_of_given given)
    fun _ whole _ => SyncConfig.ofJson?_toJson whole
  publishPoint := .intro PublishPoint.isLegible_toJson (fun _ _ => trivial)
    fun p _ _ => p.ofJson?_toJson
  statusSeed := .intro StatusSeed.isLegible_toJson (fun _ _ => trivial)
    fun s _ _ => s.ofJson?_toJson
  snapshot := .intro Status.Snapshot.isLegible_toJson
    (fun _ given => Status.Snapshot.isWritable_of_given given)
    fun _ writable _ => Status.Snapshot.ofJson?_toJson writable
  entry := .intro Status.Entry.isLegible_toJson
    (fun _ given => Status.Entry.isWritable_of_given given)
    fun _ writable _ => Status.Entry.ofJson?_toJson writable
  device := .intro DeviceIdentity.isLegible_toJson (fun _ _ => trivial)
    fun i _ _ => i.ofJson?_toJson
  publication := .intro Status.Publication.isLegible_toJson
    (fun _ given => Status.Publication.isWritable_of_given given)
    fun _ writable _ => Status.Publication.ofJson?_toJson writable
  connection := .intro (fun c => isLegible_ofText c.text) (fun _ _ => trivial)
    fun c _ _ => c.ofJson?_toJson
  assembled s assembled finite recovers :=
    DeviceSpec.isStable.sound s ⟨assembled.isRegular, finite⟩ recovers

/-- A lamp's spec with most of it left to defaults, a short UUID and an operand with an exponent. -/
def lampText : String :=
  "\x7b\"properties\":[\x7b\"name\":\"level\",\"accessMode\":\"ReadOnly\",\"visitor\":" ++
    "\x7b\"characteristicUuid\":\"2A19\",\"dataConverter\":\x7b\"orderOfOperations\":" ++
    "[\x7b\"operationType\":\"add\",\"operationValue\":5e-1\x7d]\x7d\x7d\x7d]\x7d"

/-- A lamp with an access mode of an unknown name, and with write entries that are given out of
order. -/
def dimmer : DeviceSpec :=
  { protocol := { name := "Lamp" } : DeviceSpec }.withProperty <|
    (Property.on "level" (.ofText "Dim") .batteryLevel).withLayout { operations := [⟨.add, 0.5⟩] }
      |>.withWrite "on" [1] |>.withWrite "off" [0] |>.withDefault "on"

/-- The lamp's text is read, and what is read survives; so does the assembled spec. -/
theorem encodings_stable_lamp :
    (∃ s, (parse? lampText >>= DeviceSpec.ofJson?) = some s ∧ s.operands = [0.5] ∧
      Survives DeviceSpec.ofJson? DeviceSpec.toJson s) ∧
      dimmer.operands = [0.5] ∧ Survives DeviceSpec.ofJson? DeviceSpec.toJson dimmer := by
  have recovers : RecoversFinite [0.5] := by
    refine List.forall_mem_singleton.mpr fun _ => ?_
    unfold IsRecovered
    decide +kernel
  have read : ((parse? lampText >>= DeviceSpec.ofJson?).any fun s => decide (s.operands = [0.5])) =
      true := by decide +kernel
  obtain ⟨s, read, given⟩ := (Option.any_eq_true _ _).mp read
  have operands : s.operands = [0.5] := of_decide_eq_true given
  have assumed : RecoversFinite s.operands := by
    rw [operands]
    exact recovers
  refine ⟨⟨s, read, operands, encodings_stable.spec.stable _ s read assumed⟩, rfl, ?_⟩
  apply encodings_stable.assembled
  · exact .withProperty (.new _) (.withDefault _ (.withWrite _ _ (.withWrite _ _
      (.withLayout _ (.on _ _ _)))))
  · exact List.forall_mem_singleton.mpr (by decide +kernel)
  · exact recovers

end GattSync
