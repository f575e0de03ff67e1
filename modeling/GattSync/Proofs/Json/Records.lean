import GattSync.Json.Decoder
import GattSync.Proofs.Json.Range
import GattSync.Proofs.Json.Values

/-!
# What decoding gives back

The pieces that the data types are made of are decoded from the values that they are encoded as: a
field of a record is found under its name (`asFields?_record`), and so the fields of a record are
decoded one by one. All that is encoded is legible, so that what holds of values holds of their
texts: a type whose decoded values are decoded from their encodings is stable (`IsStable.intro`).

What is decoded need not have been encoded. It is enough to know of it that each of its pieces has
been decoded from something (`Given`), or is a default.
-/

namespace GattSync.Json

variable {α : Type} {decode : Json → Option α} {encode : α → Json} {a d : α} {as : List α}
  {v : Json} {field : Option Json}

/-! ## Decoding what is encoded -/

@[simp] theorem asText?_ofText (s : String) : asText? (ofText s) = some s := rfl

theorem asNat?_ofNat {limit n : Nat} (h : n < limit) : asNat? limit (ofNat n) = some n :=
  Numeral.toNat?_ofNat h

/-- The number is read back from the numeral that it is written by. -/
def IsRecovered (x : Float) : Prop := (Numeral.ofFloat? x).bind Numeral.toFloat? = some x

theorem asFloat?_ofFloat {x : Float} (h : IsRecovered x) : asFloat? (ofFloat x) = some x := by
  obtain ⟨n, written, read⟩ := Option.bind_eq_some_iff.mp h
  rw [ofFloat, written]
  exact read

theorem mapM_map {β : Type} {read : β → Option α} {write : α → β}
    (h : ∀ a ∈ as, read (write a) = some a) : (as.map write).mapM read = some as := by
  induction as with
  | nil => rfl
  | cons a as ih =>
    obtain ⟨ha, has⟩ := List.forall_mem_cons.mp h
    rw [List.map_cons, List.mapM_cons, ha, ih has]
    rfl

theorem asList?_map (h : ∀ a ∈ as, decode (encode a) = some a) :
    asList? decode (.array (as.map encode)) = some as :=
  mapM_map h

theorem asEntries?_map {entries : List (String × α)}
    (h : ∀ e ∈ entries, decode (encode e.2) = some e.2) :
    asEntries? decode (.object (entries.map fun (key, a) => member key (encode a))) =
      some entries := by
  apply mapM_map
  intro e mem
  simp [member, h e mem]

/-- A record with these fields. -/
def record (names : List String) (values : List Json) : Json :=
  .object (List.zipWith member names values)

theorem filter_append_cons {β : Type} {p : β → Bool} {before after : List β} {b : β}
    (hit : p b = true) (fresh : ∀ c ∈ before, ¬p c = true) (unique : ∀ c ∈ after, ¬p c = true) :
    (before ++ b :: after).filter p = [b] := by
  rw [List.filter_append, List.filter_cons_of_pos hit, List.filter_eq_nil_iff.mpr fresh,
    List.filter_eq_nil_iff.mpr unique]
  rfl

theorem field?_append_cons {before after : List (Option String × Json)} {name : String}
    (fresh : ∀ m ∈ before, m.1 ≠ some name) (unique : ∀ m ∈ after, m.1 ≠ some name) :
    field? (before ++ member name v :: after) name = some (some v) := by
  rw [field?, filter_append_cons]
  · rfl
  · simp [member]
  · rintro ⟨key, w⟩ hm
    simpa using fresh _ hm
  · rintro ⟨key, w⟩ hm
    simpa using unique _ hm

theorem mem_zipWith {names : List String} {values : List Json} {m : Option String × Json}
    (h : m ∈ List.zipWith member names values) :
    ∃ name ∈ names, ∃ v ∈ values, m = member name v := by
  rw [← List.map_uncurry_zip_eq_zipWith] at h
  obtain ⟨⟨name, v⟩, mem, rfl⟩ := List.mem_map.mp h
  exact ⟨name, (List.of_mem_zip mem).1, v, (List.of_mem_zip mem).2, rfl⟩

theorem mapM_field? (before : List (Option String × Json)) {names : List String}
    {values : List Json} (length : names.length = values.length) (nodup : names.Nodup)
    (fresh : ∀ m ∈ before, ∀ name ∈ names, m.1 ≠ some name) :
    names.mapM (field? (before ++ List.zipWith member names values)) = some (values.map some) := by
  induction names generalizing before values with
  | nil =>
    obtain rfl := List.length_eq_zero_iff.mp length.symm
    rfl
  | cons name names ih =>
    cases values with
    | nil => cases length
    | cons v values =>
      obtain ⟨new, nodup⟩ := List.nodup_cons.mp nodup
      have first : field? (before ++ List.zipWith member (name :: names) (v :: values)) name =
          some (some v) := by
        apply field?_append_cons
        · exact fun m hm => fresh m hm name List.mem_cons_self
        · rintro m hm eq
          obtain ⟨other, mem, w, -, rfl⟩ := mem_zipWith hm
          exact new (Option.some.inj eq ▸ mem)
      have rest := ih (before ++ [member name v]) (Nat.succ.inj length) nodup
        (List.forall_mem_append.mpr ⟨fun m hm other mem => fresh m hm other
          (List.mem_cons_of_mem name mem), List.forall_mem_singleton.mpr fun other mem eq =>
            new (Option.some.inj eq ▸ mem)⟩)
      rw [List.append_assoc] at rest
      rw [List.mapM_cons, first, List.zipWith_cons_cons]
      exact congrArg (Option.bind · _) rest

/-- The fields of a record are found under their names. -/
theorem asFields?_record {names : List String} {values : List Json} (nodup : names.Nodup)
    (length : names.length = values.length) :
    asFields? names (record names values) = some (values.map some) := by
  rw [record, asFields?, if_pos]
  · exact mapM_field? [] length nodup nofun
  · rw [List.all_eq_true]
    intro m hm
    obtain ⟨name, -, v, -, rfl⟩ := mem_zipWith hm
    rfl

/-! ## What is decoded -/

/-- Some value is decoded as this. -/
def Given (decode : Json → Option α) (a : α) : Prop := ∃ v, decode v = some a

theorem given_of_required? (h : required? decode field = some a) : Given decode a := by
  obtain ⟨v, -, hv⟩ := Option.bind_eq_some_iff.mp h
  exact ⟨v, hv⟩

theorem given_of_optional? (h : optional? decode d field = some a) : a = d ∨ Given decode a := by
  cases field with
  | none => exact .inl (Option.some.inj h).symm
  | some v => exact .inr ⟨v, h⟩

theorem exists_of_mem_mapM {β : Type} {read : β → Option α} {bs : List β}
    (h : bs.mapM read = some as) (mem : a ∈ as) : ∃ b ∈ bs, read b = some a := by
  induction bs generalizing as with
  | nil =>
    obtain rfl := Option.some.inj h
    cases mem
  | cons b bs ih =>
    rw [List.mapM_cons] at h
    obtain ⟨first, hb, h⟩ := Option.bind_eq_some_iff.mp h
    obtain ⟨rest, hbs, h⟩ := Option.bind_eq_some_iff.mp h
    obtain rfl := Option.some.inj h
    rcases List.mem_cons.mp mem with rfl | mem
    · exact ⟨b, List.mem_cons_self, hb⟩
    · obtain ⟨c, hc, read⟩ := ih hbs mem
      exact ⟨c, List.mem_cons_of_mem b hc, read⟩

theorem given_of_mem_asList? (h : Given (asList? decode) as) (mem : a ∈ as) : Given decode a := by
  obtain ⟨v, h⟩ := h
  cases v with
  | array items =>
    obtain ⟨v, -, hv⟩ := exists_of_mem_mapM h mem
    exact ⟨v, hv⟩
  | _ => cases h

theorem isFinite_of_given {x : Float} (h : Given asFloat? x) : x.isFinite = true := by
  obtain ⟨v, h⟩ := h
  cases v with
  | numeral n => exact Numeral.isFinite_of_toFloat? h
  | _ => cases h

/-! ## Legible values -/

theorem isLegible_ofText (s : String) : (ofText s).IsLegible :=
  List.forall_mem_singleton.mpr rfl

theorem isLegible_ofNat (n : Nat) : (ofNat n).IsLegible :=
  List.forall_mem_singleton.mpr (Numeral.isGrammatical_ofNat n)

theorem isLegible_ofFloat (x : Float) : (ofFloat x).IsLegible := by
  unfold ofFloat
  split
  · case _ n written =>
    exact List.forall_mem_singleton.mpr (Numeral.isGrammatical_ofFloat? written)
  · exact List.forall_mem_singleton.mpr trivial

theorem isLegible_of_mem_itemTokens {vs : List Json} (h : ∀ v ∈ vs, v.IsLegible) :
    ∀ t ∈ itemTokens vs, t.IsLegible := by
  induction vs with
  | nil => exact List.forall_mem_singleton.mpr trivial
  | cons v vs ih =>
    obtain ⟨hv, hvs⟩ := List.forall_mem_cons.mp h
    exact List.forall_mem_cons.mpr ⟨trivial, List.forall_mem_append.mpr ⟨hv, ih hvs⟩⟩

theorem isLegible_array {vs : List Json} (h : ∀ v ∈ vs, v.IsLegible) : (array vs).IsLegible := by
  cases vs with
  | nil => exact List.forall_mem_cons.mpr ⟨trivial, List.forall_mem_singleton.mpr trivial⟩
  | cons v vs =>
    obtain ⟨hv, hvs⟩ := List.forall_mem_cons.mp h
    exact List.forall_mem_cons.mpr ⟨trivial, List.forall_mem_append.mpr
      ⟨hv, isLegible_of_mem_itemTokens hvs⟩⟩

theorem isLegible_of_mem_memberTokens {ms : List (Option String × Json)}
    (h : ∀ m ∈ ms, m.1.isSome ∧ m.2.IsLegible) : ∀ t ∈ memberTokens ms, t.IsLegible := by
  induction ms with
  | nil => exact List.forall_mem_singleton.mpr trivial
  | cons m ms ih =>
    obtain ⟨⟨key, value⟩, hms⟩ := List.forall_mem_cons.mp h
    exact List.forall_mem_cons.mpr ⟨trivial, List.forall_mem_cons.mpr ⟨key,
      List.forall_mem_cons.mpr ⟨trivial, List.forall_mem_append.mpr ⟨value, ih hms⟩⟩⟩⟩

theorem isLegible_object {ms : List (Option String × Json)}
    (h : ∀ m ∈ ms, m.1.isSome ∧ m.2.IsLegible) : (object ms).IsLegible := by
  cases ms with
  | nil => exact List.forall_mem_cons.mpr ⟨trivial, List.forall_mem_singleton.mpr trivial⟩
  | cons m ms =>
    obtain ⟨⟨key, value⟩, hms⟩ := List.forall_mem_cons.mp h
    exact List.forall_mem_cons.mpr ⟨trivial, List.forall_mem_cons.mpr ⟨key,
      List.forall_mem_cons.mpr ⟨trivial, List.forall_mem_append.mpr
        ⟨value, isLegible_of_mem_memberTokens hms⟩⟩⟩⟩

theorem isLegible_record {names : List String} {values : List Json}
    (h : ∀ v ∈ values, v.IsLegible) : (record names values).IsLegible := by
  apply isLegible_object
  intro m hm
  obtain ⟨name, -, v, mem, rfl⟩ := mem_zipWith hm
  exact ⟨rfl, h v mem⟩

/-! ## Texts -/

/-- The text that a value is encoded as is decoded as the value. -/
def Survives (decode : Json → Option α) (encode : α → Json) (a : α) : Prop :=
  (parse? (encode a).render >>= decode) = some a

/-- What any text is decoded as survives, if what is assumed of it holds; and so does everything
else that is sound. -/
structure IsStable (decode : Json → Option α) (encode : α → Json) (sound : α → Prop)
    (assumed : α → Prop := fun _ => True) : Prop where
  stable : ∀ s a, (parse? s >>= decode) = some a → assumed a → Survives decode encode a
  sound : ∀ a, sound a → assumed a → Survives decode encode a

theorem survives (legible : (encode a).IsLegible) (h : decode (encode a) = some a) :
    Survives decode encode a := by
  unfold Survives
  rw [parse?_render legible]
  exact h

/-- It is enough that what is decoded is sound, and what is sound is decoded from its encoding. -/
theorem IsStable.intro {sound assumed : α → Prop} (legible : ∀ a, (encode a).IsLegible)
    (given : ∀ a, Given decode a → sound a)
    (back : ∀ a, sound a → assumed a → decode (encode a) = some a) :
    IsStable decode encode sound assumed where
  stable s a read ha := by
    obtain ⟨v, -, hv⟩ := Option.bind_eq_some_iff.mp read
    exact survives (legible a) (back a (given a ⟨v, hv⟩) ha)
  sound a h ha := survives (legible a) (back a h ha)

end GattSync.Json
