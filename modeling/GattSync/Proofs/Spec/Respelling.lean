import GattSync.Spec.Codec
import GattSync.Proofs.Json.Records
import GattSync.Proofs.Uuid.Spelling
import Mathlib.Data.List.Forall2

/-!
# Specs in other spellings

A characteristic can be spelled in many ways, in a spec as well as when it is looked up. Two specs
that differ in spellings only (`DeviceSpec.IsRespelled`) are decoded as the same spec, however the
characteristics are spelled that are looked up in it (`Uuid.spellings_agree`).

Decoding looks at a spelling from within three records, one inside the other. At each of them it is
enough that the one field in which the records differ is decoded alike (`asFields?_bind_congr`).
-/

namespace GattSync

namespace Json

variable {α : Type} {S : Json → Json → Prop} {v w w' : Json} {name : String} {names : List String}
  {before after : List (Option String × Json)}

/-- Records with the same fields, but for the one of this name, in which they differ as told. -/
inductive DiffersIn (names : List String) (name : String) (S : Json → Json → Prop) :
    Json → Json → Prop where
  | same (v : Json) : DiffersIn names name S v v
  | member (before after : List (Option String × Json)) {w w' : Json} (h : S w w') :
    DiffersIn names name S (.object (before ++ member name w :: after))
      (.object (before ++ member name w' :: after))
  | item (before after : List Json) {w w' : Json} (place : before.length = names.idxOf name)
    (h : S w w') : DiffersIn names name S (.array (before ++ w :: after))
      (.array (before ++ w' :: after))

theorem field?_of_ne {other : String} (h : other ≠ name) :
    field? (before ++ member name w :: after) other = field? (before ++ after) other := by
  simp [field?, member, h.symm]

/-- The one value of a field that is given, unless there is another one besides. -/
theorem field?_member (before after : List (Option String × Json)) (name : String) :
    (∀ w, field? (before ++ member name w :: after) name = some (some w)) ∨
      ∀ w, field? (before ++ member name w :: after) name = none := by
  obtain ⟨front, back, given⟩ : ∃ front back, ∀ w,
      ((before ++ member name w :: after).filter fun m => m.1 == some name) =
        front ++ member name w :: back :=
    ⟨before.filter fun m => m.1 == some name, after.filter fun m => m.1 == some name,
      fun w => by simp [member]⟩
  simp only [field?, given]
  cases front with
  | nil =>
    cases back with
    | nil => exact .inl fun w => rfl
    | cons => exact .inr fun w => rfl
  | cons first front =>
    refine .inr fun w => ?_
    cases front <;> rfl

theorem asFields?_object (names : List String) (members : List (Option String × Json)) :
    asFields? names (.object members) =
      if members.all fun m => m.1.isSome then names.mapM (field? members) else none := rfl

theorem mapM_congr {β γ : Type} {f : β → Option α} {g : γ → Option α} {bs : List β} {cs : List γ}
    (h : List.Forall₂ (fun b c => f b = g c) bs cs) : bs.mapM f = cs.mapM g := by
  induction h with
  | nil => rfl
  | cons first _ rest => rw [List.mapM_cons, List.mapM_cons, first, rest]

/-- Rows that differ in one place go on alike if they do so whatever stands there. -/
theorem mapM_bind_congr {f f' : String → Option (Option Json)} {k : Fields → Option α}
    (nodup : names.Nodup) (off : ∀ other, other ≠ name → f other = f' other)
    (on : f name = some (some w) ∧ f' name = some (some w') ∨ f name = none ∧ f' name = none)
    (h : ∀ before after, before.length = names.idxOf name →
      k (before ++ some w :: after) = k (before ++ some w' :: after)) :
    names.mapM f >>= k = names.mapM f' >>= k := by
  induction names generalizing k with
  | nil => rfl
  | cons other names ih =>
    obtain ⟨new, nodup⟩ := List.nodup_cons.mp nodup
    simp only [List.mapM_cons, bind_assoc, pure_bind]
    by_cases here : other = name
    · subst here
      have rest : names.mapM f = names.mapM f' :=
        mapM_congr (List.forall₂_same.mpr fun n hn => off n fun eq => new (eq ▸ hn))
      rcases on with ⟨hf, hf'⟩ | ⟨hf, hf'⟩
      · rw [hf, hf', rest]
        exact bind_congr fun fields => h [] fields (by simp)
      · rw [hf, hf']
        rfl
    · -- What stands before the place is the same, so it goes into what follows.
      rw [off other here]
      refine bind_congr fun field => ih nodup fun before after length => ?_
      exact h (field :: before) after (by simp [List.idxOf_cons_ne _ here, length])

/-- Records that differ in one field are decoded alike if that field is. -/
theorem asFields?_bind_congr {v' : Json} {k : Fields → Option α} (nodup : names.Nodup)
    (differ : DiffersIn names name S v v')
    (h : ∀ before w w' after, before.length = names.idxOf name → S w w' →
      k (before ++ some w :: after) = k (before ++ some w' :: after)) :
    asFields? names v >>= k = asFields? names v' >>= k := by
  cases differ with
  | same => rfl
  | @member before after w w' related =>
    have keys (w : Json) : ((before ++ member name w :: after).all fun m => m.1.isSome) =
        (before ++ after).all fun m => m.1.isSome := by
      simp [member]
    rw [asFields?_object, asFields?_object, keys, keys]
    split
    · refine mapM_bind_congr nodup (fun other ne => ?_) ?_ fun before after place =>
        h before w w' after place related
      · rw [field?_of_ne ne, field?_of_ne ne]
      · exact (field?_member before after name).imp (fun one => ⟨one w, one w'⟩)
          fun twice => ⟨twice w, twice w'⟩
    · rfl
  | item before after place related =>
    simp only [asFields?, List.length_append, List.length_cons]
    split
    · simpa using h _ _ _ _ (by simpa using place) related
    · rfl

end Json

open Json

/-- Texts that spell one UUID. -/
def Visitor.IsRespelledText (v v' : Json) : Prop :=
  ∃ u s s', v = ofText s ∧ v' = ofText s' ∧ Uuid.IsSpelling u s ∧ Uuid.IsSpelling u s'

/-- The characteristic may be spelled in another way. -/
def Visitor.IsRespelled : Json → Json → Prop :=
  DiffersIn ["characteristicUuid", "dataConverter", "dataWrite", "defaultValue"]
    "characteristicUuid" Visitor.IsRespelledText

def Property.IsRespelled : Json → Json → Prop :=
  DiffersIn ["name", "accessMode", "visitor"] "visitor" Visitor.IsRespelled

/-- The characteristics of any of the properties may be spelled in other ways. -/
def DeviceSpec.IsRespelled : Json → Json → Prop :=
  DiffersIn ["protocol", "properties"] "properties" fun v v' =>
    ∃ ps ps', v = .array ps ∧ v' = .array ps' ∧ List.Forall₂ Property.IsRespelled ps ps'

theorem Visitor.ofJson?_eq {v v' : Json} (h : IsRespelled v v') : ofJson? v = ofJson? v' := by
  refine asFields?_bind_congr (by decide) h fun before w w' after place respelled => ?_
  have spelled : required? characteristic? (some w) = required? characteristic? (some w') := by
    obtain ⟨u, s, s', rfl, rfl, hs, hs'⟩ := respelled
    have first : Uuid.ofText? s = some u := Uuid.parse_eq_ok_iff.mp (Uuid.parse_of_isSpelling hs)
    have second : Uuid.ofText? s' = some u := Uuid.parse_eq_ok_iff.mp (Uuid.parse_of_isSpelling hs')
    exact first.trans second.symm
  obtain rfl := List.length_eq_zero_iff.mp place
  match after with
  | [layout, writes, defaultValue] => simp only [List.nil_append, spelled]
  | [] | [_] | [_, _] | _ :: _ :: _ :: _ :: _ => rfl

theorem Property.ofJson?_eq {v v' : Json} (h : IsRespelled v v') : ofJson? v = ofJson? v' := by
  refine asFields?_bind_congr (by decide) h fun before w w' after place respelled => ?_
  have visitor : required? Visitor.ofJson? (some w) = required? Visitor.ofJson? (some w') :=
    Visitor.ofJson?_eq respelled
  obtain ⟨name, access, rfl⟩ := List.length_eq_two.mp place
  match after with
  | [] => simp only [List.cons_append, List.nil_append, visitor]
  | _ :: _ => rfl

theorem DeviceSpec.ofJson?_eq {v v' : Json} (h : IsRespelled v v') : ofJson? v = ofJson? v' := by
  refine asFields?_bind_congr (by decide) h fun before w w' after place respelled => ?_
  have properties : optional? (asList? Property.ofJson?) [] (some w) =
      optional? (asList? Property.ofJson?) [] (some w') := by
    obtain ⟨ps, ps', rfl, rfl, respelled⟩ := respelled
    exact mapM_congr (respelled.imp fun _ _ => Property.ofJson?_eq)
  obtain ⟨protocol, rfl⟩ := List.length_eq_one_iff.mp place
  match after with
  | [] => simp only [List.cons_append, List.nil_append, properties]
  | _ :: _ => rfl

/-- Texts of specs that differ in spellings only give the same spec, or are refused both. -/
theorem DeviceSpec.ofText_eq {s s' : String} {v v' : Json} (hs : parse? s = some v)
    (hs' : parse? s' = some v') (h : IsRespelled v v') : ofText s = ofText s' := by
  rw [ofText, ofText, parse?_bind hs, parse?_bind hs', ofJson?_eq h]

theorem DeviceSpec.ofText_render {v : Json} {spec : DeviceSpec} (h : v.IsLegible)
    (hd : ofJson? v = some spec) : ofText v.render = .ok spec := by
  rw [ofText, parse?_bind (parse?_render h), hd]

/-- The property that a spec has for an identifier, both of them given as texts. -/
def DeviceSpec.search (spec identifier : String) : Except Error (Option Property) := do
  let spec ← ofText spec
  let characteristic ← Uuid.parse identifier
  return spec.property? characteristic

namespace Uuid

open Text.Payload

/-- All spellings of an identifier agree. -/
structure Agreement : Prop where
  /-- Each is read as the UUID that it spells. -/
  read {u : Uuid} {s : String} (h : IsSpelling u s) : parse s = .ok u
  /-- A number of 16 bits is spelled by four digits or by eight. -/
  short16 (n : BitVec 16) {mark ds : List Char} (hm : mark ∈ marks)
    (hd : HasDigits 4 n.toNat ds ∨ HasDigits 8 n.toNat ds) : Spells (ofShort16 n) (mark ++ ds)
  /-- A number of 32 bits is spelled by eight digits. -/
  short32 (n : BitVec 32) {mark ds : List Char} (hm : mark ∈ marks)
    (hd : HasDigits 8 n.toNat ds) : Spells (ofShort32 n) (mark ++ ds)
  /-- In full, a number of 16 bits is spelled by its digits, too. -/
  full16 (n : BitVec 16) : (ofShort16 n).text =
    String.ofList ("0000".toList ++ hex 4 n.toNat ++ "-0000-1000-8000-00805f9b34fb".toList)
  /-- And so is a number of 32 bits. -/
  full32 (n : BitVec 32) : (ofShort32 n).text =
    String.ofList (hex 8 n.toNat ++ "-0000-1000-8000-00805f9b34fb".toList)
  /-- Different numbers have different UUIDs. -/
  distinct16 {m n : BitVec 16} (h : ofShort16 m = ofShort16 n) : m = n
  distinct32 {m n : BitVec 32} (h : ofShort32 m = ofShort32 n) : m = n
  distinct {m : BitVec 16} {n : BitVec 32} (h : ofShort16 m = ofShort32 n) : m.toNat = n.toNat
  /-- What a spec has for an identifier is told by the UUID, however the spec spells those of its
  properties and however this one is spelled. -/
  search {spec spec' s s' : String} {v v' : Json} {u : Uuid} (hv : parse? spec = some v)
    (hv' : parse? spec' = some v') (respelled : DeviceSpec.IsRespelled v v') (hs : IsSpelling u s)
    (hs' : IsSpelling u s') :
    DeviceSpec.search spec s = DeviceSpec.search spec' s' ∧
      DeviceSpec.search spec s = (DeviceSpec.ofText spec).map (·.property? u)

theorem spellings_agree : Agreement where
  read := parse_of_isSpelling
  short16 n _ _ hm hd := hd.elim (.short16 n hm) (.short16_wide n hm)
  short32 n _ _ hm hd := .short32 n hm hd
  full16 n := text_ofShort16 n
  full32 n := text_ofShort32 n
  distinct16 h := ofShort16_inj.mp h
  distinct32 h := ofShort32_inj.mp h
  distinct h := ofShort16_eq_ofShort32_iff.mp h
  search hv hv' respelled hs hs' := by
    rw [DeviceSpec.search, DeviceSpec.search, DeviceSpec.ofText_eq hv hv' respelled,
      parse_of_isSpelling hs, parse_of_isSpelling hs']
    exact ⟨rfl, rfl⟩

end Uuid

/-! ## A battery that is looked up -/

namespace Battery

/-- The level, with its characteristic spelled in some way. -/
def property (s : String) : Json :=
  .array [ofText "level", ofText "ReadOnly", .object [member "characteristicUuid" (ofText s)]]

def spec (s : String) : Json := .object [member "properties" (.array [property s])]

theorem isRespelled_spec {u : Uuid} {s s' : String} (hs : Uuid.IsSpelling u s)
    (hs' : Uuid.IsSpelling u s') : DeviceSpec.IsRespelled (spec s) (spec s') := by
  have visitor : Visitor.IsRespelled (.object [member "characteristicUuid" (ofText s)])
      (.object [member "characteristicUuid" (ofText s')]) :=
    .member [] [] ⟨u, s, s', rfl, rfl, hs, hs'⟩
  have property : Property.IsRespelled (property s) (property s') := .item [_, _] [] rfl visitor
  exact .member [] [] ⟨_, _, rfl, rfl, .cons property .nil⟩

theorem isLegible_spec (s : String) : (spec s).IsLegible := by
  have visitor : (object [member "characteristicUuid" (ofText s)]).IsLegible :=
    isLegible_object (by simp [member, isLegible_ofText])
  have property : (property s).IsLegible := isLegible_array (by simp [isLegible_ofText, visitor])
  have properties : (array [Battery.property s]).IsLegible :=
    isLegible_array (List.forall_mem_singleton.mpr property)
  exact isLegible_object (List.forall_mem_singleton.mpr ⟨rfl, properties⟩)

end Battery

/-- The level is found in a spec that spells its characteristic by a number and looked up by one
with more digits, and as well in one that spells it in full. -/
theorem Uuid.spellings_agree_battery :
    ∃ property : Property, property.name = "level" ∧
      DeviceSpec.search (Battery.spec "0X2A19").render " 00002a19" = .ok (some property) ∧
      DeviceSpec.search (Battery.spec "00002A19-0000-1000-8000-00805F9B34FB").render "2a19" =
        .ok (some property) := by
  have bare : ∀ c ∈ [], Text.isBlank c = true := List.forall_mem_nil _
  have short : HasDigits 4 0x2a19 ['2', 'A', '1', '9'] := rfl
  have wide : HasDigits 8 0x2a19 ['0', '0', '0', '0', '2', 'a', '1', '9'] := rfl
  have small : HasDigits 4 0x2a19 ['2', 'a', '1', '9'] := rfl
  have number : IsSpelling batteryLevel "0X2A19" :=
    ⟨[], ['0', 'X'] ++ _, [], rfl, bare, bare, .short16 0x2a19 (by decide) short⟩
  have full : IsSpelling batteryLevel "00002A19-0000-1000-8000-00805F9B34FB" :=
    ⟨[], _, [], (List.append_nil _).symm, bare, bare, .hyphenated batteryLevel (by decide)⟩
  have longer : IsSpelling batteryLevel " 00002a19" :=
    ⟨[' '], [] ++ _, [], rfl, List.forall_mem_singleton.mpr rfl, bare,
      .short16_wide 0x2a19 (by decide) wide⟩
  have plain : IsSpelling batteryLevel "2a19" :=
    ⟨[], [] ++ _, [], rfl, bare, bare, .short16 0x2a19 (by decide) small⟩
  obtain ⟨same, told⟩ := spellings_agree.search (parse?_render (Battery.isLegible_spec _))
    (parse?_render (Battery.isLegible_spec _)) (Battery.isRespelled_spec number full) longer plain
  have named : ((DeviceSpec.ofJson? (Battery.spec "0X2A19")).bind
      (·.property? batteryLevel)).map (·.name) = some "level" := by decide +kernel
  obtain ⟨property, found, name⟩ := Option.map_eq_some_iff.mp named
  obtain ⟨spec, decoded, found⟩ := Option.bind_eq_some_iff.mp found
  have answer : DeviceSpec.search (Battery.spec "0X2A19").render " 00002a19" =
      .ok (some property) := by
    rw [told, DeviceSpec.ofText_render (Battery.isLegible_spec _) decoded]
    exact congrArg Except.ok found
  exact ⟨property, name, answer, same.symm.trans answer⟩

end GattSync
