import GattSync.Proofs.Adapter.Step

/-!
# Connections of a session

Whether a peripheral is connected through a session can be told from the answers of the platform
(`isLinked`). The session itself keeps no account of that: what it has is the peripherals that it
listens to. The two stay in step as long as every connection has been answered and can be listened
to, and whoever is to be parted from is parted from (`IsUndisturbed`): then everything that is
connected, and everything with a route, is listened to (`History.tends`).
-/

namespace GattSync.Adapter

open Program Platform

variable {η : Type} {owner : Handle → String} {t t' : Tables η} {turns : List (Turn η)}
  {inquiries first rest : List (Call Platform.effects)} {id other : String}

/-! ## Connections as they are answered -/

/-- What an answer tells of the connection of a handle's peripheral. A connection that was given up
may still come about. -/
def link? : Call Platform.effects → Option (Handle × Bool)
  | ⟨.connect handle, none⟩ => some (handle, true)
  | ⟨.connect handle, some (.ok _)⟩ => some (handle, true)
  | ⟨.disconnect handle, some (.ok _)⟩ => some (handle, false)
  | ⟨.isConnected handle, some (.ok false)⟩ => some (handle, false)
  | _ => none

/-- Whether the peripheral is connected after a call, given that it was before. -/
def relink (owner : Handle → String) (id : String) (linked : Bool)
    (call : Call Platform.effects) : Bool :=
  match link? call with
  | some (handle, now) => if owner handle = id then now else linked
  | none => linked

/-- The peripheral has been connected and not been parted from since. -/
def isLinked (owner : Handle → String) (inquiries : List (Call Platform.effects)) (id : String) :
    Bool :=
  inquiries.foldl (relink owner id) false

/-- All that the platform was asked for. -/
def log (turns : List (Turn η)) : List (Call Platform.effects) := turns.flatMap (·.inquiries)

theorem relink_of_isQuiet {call : Call Platform.effects} {linked : Bool} (h : call.1.isQuiet) :
    relink owner id linked call = linked := by
  obtain ⟨request, x⟩ := call
  cases request <;> first | rfl | cases h

theorem relink_of_parted {call : Call Platform.effects} {linked : Bool} {handle : Handle}
    (h : link? call = some (handle, false)) :
    relink owner id linked call = true ↔ linked = true ∧ id ≠ owner handle := by
  rw [relink, h]
  by_cases same : owner handle = id
  · simp [same]
  · simp [same, Ne.symm same]

theorem foldl_relink_of_isQuiet {linked : Bool} (h : ∀ call ∈ inquiries, call.1.isQuiet) :
    inquiries.foldl (relink owner id) linked = linked := by
  induction inquiries generalizing linked with
  | nil => rfl
  | cons call rest ih =>
    obtain ⟨hc, hr⟩ := List.forall_mem_cons.mp h
    rw [List.foldl_cons, relink_of_isQuiet hc, ih hr]

/-! ## Undisturbed histories -/

/-- The request has been answered without a fault. -/
def succeeded {α : Type} : Option (Except PlatformError α) → Bool
  | some (.ok _) => true
  | _ => false

/-- The session knows of the connection what there is to know: a connection has been answered, and
listening, reports and disconnecting have not failed. -/
def isSettled : Call Platform.effects → Bool
  | ⟨.connect _, x⟩ => x.isSome
  | ⟨.notifications _, x⟩ => succeeded x
  | ⟨.isConnected _, x⟩ => succeeded x
  | ⟨.disconnect _, x⟩ => succeeded x
  | _ => true

/-- Everything that concerns a connection has gone well, and nothing was subscribed to without
one. -/
structure IsUndisturbed (owner : Handle → String) (turns : List (Turn η)) : Prop where
  settled : ∀ u ∈ turns, ∀ call ∈ u.inquiries, isSettled call
  linked : ∀ past u, past ++ [u] <+: turns → ∀ p c consumer,
    u.request = .subscribe p c consumer → isLinked owner (log past) p.id

/-- Whatever is connected or has routes is listened to. -/
def Tends (linked : String → Bool) (t : Tables η) : Prop :=
  ∀ id, linked id ∨ t.routes? id → t.listensTo id

theorem Tends.resembles {linked : String → Bool} (h : Tends linked t)
    (ht : t.Resembles owner t') : Tends linked t' := fun id hid =>
  ht.listensTo_iff.mpr (h id (hid.imp_right ht.routes?_iff.mp))

theorem Releases.not_settled {id : String} (h : Releases owner id inquiries none) :
    ∃ call ∈ inquiries, isSettled call = false := by
  cases h with
  | asking => exact ⟨_, List.mem_singleton_self _, rfl⟩
  | parting => exact ⟨_, List.mem_cons_of_mem _ (List.mem_singleton_self _), rfl⟩

theorem Releasing.not_settled {ids : List String} (h : Releasing owner t ids inquiries none t') :
    ∃ call ∈ inquiries, isSettled call = false := by
  generalize hr : none = r at h
  induction h with
  | nil => cases hr
  | next _ _ _ ih =>
    obtain ⟨call, hm, hc⟩ := ih hr
    exact ⟨call, List.mem_append_right _ hm, hc⟩
  | givenUp h _ => exact h.not_settled

theorem Releases.foldl_relink {linked : Bool} (h : Releases owner id inquiries (some ()))
    (hs : ∀ call ∈ inquiries, isSettled call) :
    inquiries.foldl (relink owner other) linked = true ↔ linked = true ∧ other ≠ id := by
  cases h with
  | @apart handle ho x hx =>
    obtain rfl : x = .ok false := by
      have settled : succeeded (some x) := hs _ (List.mem_singleton_self _)
      match x, settled, hx with
      | .ok false, _, _ => rfl
      | .ok true, _, hx => exact absurd rfl hx
    have parted : link? (asked (.isConnected handle) (.ok false)) = some (handle, false) := rfl
    subst ho
    exact relink_of_parted parted
  | @parted handle ho x =>
    obtain rfl : x = .ok () := by
      have settled : succeeded (some x) := hs _ (List.mem_cons_of_mem _ (List.mem_singleton_self _))
      match x, settled with
      | .ok (), _ => rfl
    have parted : link? (asked (.disconnect handle) (.ok ())) = some (handle, false) := rfl
    subst ho
    exact relink_of_parted parted

theorem Releasing.foldl_relink {ids : List String} {linked : Bool}
    (h : Releasing owner t ids inquiries (some ()) t') (hs : ∀ call ∈ inquiries, isSettled call) :
    inquiries.foldl (relink owner id) linked = true ↔ linked = true ∧ id ∉ ids := by
  generalize hr : some () = r at h
  induction h generalizing linked with
  | nil => simp
  | next hf _ _ ih =>
    obtain ⟨hsf, hsr⟩ := List.forall_mem_append.mp hs
    rw [List.foldl_append, ih hsr hr, hf.foldl_relink hsf, List.mem_cons, not_or, and_assoc]
  | givenUp => cases hr

theorem Tends.addRoute {linked : String → Bool} (h : Tends linked t) (hid : linked id) {c : Uuid}
    {consumer : η} : Tends linked (t.addRoute id c consumer) := by
  rintro other (hlinked | hroutes)
  · exact h other (.inl hlinked)
  · rcases Tables.routes?_addRoute hroutes with rfl | old
    · exact h other (.inl hid)
    · exact h other (.inr old)

theorem Connects.tends {linked : String → Bool} (h : Connects owner t id inquiries t')
    (hs : ∀ call ∈ inquiries, isSettled call) (ht : Tends linked t) :
    Tends (fun other => inquiries.foldl (relink owner other) (linked other)) t' := by
  cases h with
  | @apart _ handle ho x hx hr =>
    have settled : x.isSome := hs _ (List.mem_singleton_self _)
    match x, settled, hx with
    | some (.error e), _, _ => exact ht.resembles hr
    | some (.ok ()), _, hx => exact absurd rfl hx
  | @unheard _ handle ho x hx hr =>
    have settled : succeeded x := hs _ (List.mem_cons_of_mem _ (List.mem_singleton_self _))
    match x, settled, hx with
    | some (.ok stream), _, hx => exact absurd rfl (hx stream)
  | @heard t₁ handle ho stream task hr =>
    intro other hid
    refine Tables.listensTo_listen.mpr ?_
    by_cases hother : other = id
    · exact .inl hother
    · refine .inr (ht.resembles hr other (hid.imp_left fun hl => ?_))
      simpa [relink, link?, asked, ho, Ne.symm hother] using hl

theorem Stops.tends {linked : String → Bool} {r : Option Unit} (h : Stops owner t inquiries r t')
    (hs : ∀ call ∈ inquiries, isSettled call) (ht : Tends linked t) :
    Tends (fun other => inquiries.foldl (relink owner other) (linked other)) t' := by
  cases h with
  | scanning hr => exact ht.resembles hr
  | givenUp hr x hl =>
    obtain ⟨call, hm, hc⟩ := hl.not_settled
    exact absurd (hs call (List.mem_cons_of_mem _ hm)) (by simp [hc])
  | @stopped t₁ t₂ rest hr x hl =>
    intro other hid
    have kept : other ∉ t₁.listeners.map (·.1) ∧ (linked other ∨ t₁.routes? other) := by
      rcases hid with hlinked | ⟨route, hm, rfl⟩
      · -- that scanning has ended says nothing of connections
        replace hlinked : rest.foldl (relink owner other) (linked other) = true := hlinked
        obtain ⟨old, released⟩ := (hl.foldl_relink (List.forall_mem_cons.mp hs).2).mp hlinked
        exact ⟨released, .inl old⟩
      · obtain ⟨hm, hn⟩ := hl.mem_routes_iff.mp hm
        exact ⟨hn, .inr ⟨route, hm, rfl⟩⟩
    obtain ⟨l, hm, rfl⟩ := ht.resembles hr other kept.2
    exact absurd (List.mem_map_of_mem hm) kept.1

theorem Step.tends {linked : String → Bool} {request : Session.Request η}
    (h : Step owner t request inquiries t') (hs : ∀ call ∈ inquiries, isSettled call)
    (hl : ∀ p c consumer, request = .subscribe p c consumer → linked p.id) (ht : Tends linked t) :
    Tends (fun other => inquiries.foldl (relink owner other) (linked other)) t' := by
  cases h with
  | quiet hq hr =>
    simp only [foldl_relink_of_isQuiet hq]
    exact ht.resembles hr
  | connect _ h => exact h.tends hs ht
  | @cancel p _ handle ho x hr =>
    have settled : succeeded x := hs _ (List.mem_singleton_self _)
    match x, settled with
    | some (.ok ()), _ =>
      intro other hid
      have kept : other ≠ p.id ∧ (linked other ∨ t.routes? other) := by
        rcases hid with hlinked | hroutes
        · have parted : link? (asked (.disconnect handle) (.ok ())) = some (handle, false) := rfl
          obtain ⟨old, hne⟩ := (relink_of_parted parted).mp hlinked
          exact ⟨ho ▸ hne, .inl old⟩
        · exact (Tables.routes?_unlisten.mp (hr.routes?_iff.mp hroutes)).imp_right .inr
      exact hr.listensTo_iff.mpr (Tables.listensTo_unlisten.mpr ⟨kept.1, ht other kept.2⟩)
  | @subscribe p c consumer _ handle found x hr =>
    exact (ht.addRoute (hl p c consumer rfl)).resembles hr
  | @refuse p c consumer t₁ handle found e hr =>
    have added := (ht.addRoute (hl p c consumer rfl)).resembles hr
    exact fun other hid => added other (hid.imp_right Tables.routes?_removeRoute)
  | stop h => exact h.tends hs ht

theorem isLinked_append :
    isLinked owner (first ++ rest) id = rest.foldl (relink owner id) (isLinked owner first id) :=
  List.foldl_append

theorem log_append {u : Turn η} : log (turns ++ [u]) = log turns ++ u.inquiries := by
  simp [log]

theorem IsUndisturbed.of_append {u : Turn η} (h : IsUndisturbed owner (turns ++ [u])) :
    IsUndisturbed owner turns where
  settled v hv := h.settled v (List.mem_append_left _ hv)
  linked past v hp := h.linked past v (hp.trans (List.prefix_append _ _))

theorem History.tends (h : History owner turns t) (hu : IsUndisturbed owner turns) :
    Tends (isLinked owner (log turns)) t := by
  -- a turn keeps it for whatever was linked before, and each turn goes on from the ones before it
  induction h with
  | created =>
    rintro id (hlinked | ⟨r, hr, -⟩)
    · cases hlinked
    · cases hr
  | waited _ hd ih => exact (ih hu).resembles hd.resembles
  | @turned turns t t' request inquiries r h ht ih =>
    have step := proceeds_answer h.isSound ht
    have settled := hu.settled _ (List.mem_append_right _ (List.mem_singleton_self _))
    have linked := hu.linked turns _ List.prefix_rfl
    have tended := step.tends settled linked (ih hu.of_append)
    rw [log_append]
    intro id hid
    rw [isLinked_append] at hid
    exact tended id hid

end GattSync.Adapter
