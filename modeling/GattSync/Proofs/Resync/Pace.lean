import GattSync.Proofs.Program.Evolution
import GattSync.Proofs.Resync.Rounds

/-!
# The pace of a loop

A loop begins its first cycle when it is launched, and each later one when its ticker is due or its
cycle is over, whichever is later. The ticker is due a period after it was due before, unless that
was missed by more than the tolerance; then it is due a period after it was served. So the moment at
which it is due next lies no more than a period after the last start, and no more than the tolerance
before the moment that all earlier starts allow (`Paced`). Both are kept by every tick, however long
the cycle before it has taken (`Paced.tick`).

So cycles never bunch up: overlong ones are not made up for by a burst of short ones
(`cycles_paced`).
-/

namespace GattSync.Resync

open Program

/-! ## Lists that grow at their end -/

theorem getElem?_snoc_iff {α : Type} {l : List α} {k : Nat} {x a : α} :
    (l ++ [x])[k]? = some a ↔ l[k]? = some a ∨ k = l.length ∧ a = x := by
  rcases Nat.lt_trichotomy k l.length with lt | rfl | gt
  · rw [List.getElem?_append_left lt]
    exact ⟨.inl, fun h => h.resolve_right fun ⟨eq, _⟩ => absurd eq (Nat.ne_of_lt lt)⟩
  · simp [eq_comm]
  · have beyond : l.length ≤ k := Nat.le_of_lt gt
    have past : (l ++ [x]).length ≤ k := by
      rw [List.length_append]
      exact gt
    simp [List.getElem?_eq_none beyond, List.getElem?_eq_none past, Nat.ne_of_gt gt]

/-! ## Schedules -/

/-- The starts and the ends of cycles keep to a period. -/
structure Timely (period : Duration) (starts ends : List Duration) : Prop where
  /-- A cycle ends after it has started. -/
  whole {k : Nat} {a e : Duration} (ha : starts[k]? = some a) (he : ends[k]? = some e) : a ≤ e
  /-- The next one starts no earlier than it has ended. -/
  apart {k : Nat} {e b : Duration} (he : ends[k]? = some e) (hb : starts[k + 1]? = some b) : e ≤ b
  /-- The next one starts no later than it has ended and a period has passed since its start. -/
  prompt {k : Nat} {a e b : Duration} (ha : starts[k]? = some a) (he : ends[k]? = some e)
    (hb : starts[k + 1]? = some b) : b.nanos ≤ max e.nanos (a.nanos + period.nanos)
  /-- From a start to any later one it is no less than the periods between them, but for the
  tolerance. -/
  spaced {k m : Nat} {a b : Duration} (hk : k < m) (ha : starts[k]? = some a)
    (hb : starts[m]? = some b) :
    a.nanos + (m - k) * period.nanos ≤ b.nanos + Ticker.tolerance.nanos

/-- A ticker that has been served so far, in the last of these cycles. -/
structure Paced (ticker : Ticker) (starts ends : List Duration) : Prop where
  timely : Timely ticker.period starts ends
  length : starts.length = ends.length + 1
  /-- It is due no later than a period after the last start. -/
  soon {a : Duration} (ha : starts[ends.length]? = some a) :
    ticker.deadline.nanos ≤ a.nanos + ticker.period.nanos
  /-- It is due no earlier than all starts allow, but for the tolerance. -/
  late {k : Nat} {a : Duration} (ha : starts[k]? = some a) :
    a.nanos + (starts.length - k) * ticker.period.nanos ≤
      ticker.deadline.nanos + Ticker.tolerance.nanos

variable {ticker : Ticker} {period t e : Duration} {starts ends : List Duration}

theorem lt_length_of_getElem? {α : Type} {l : List α} {k : Nat} {a : α} (h : l[k]? = some a) :
    k < l.length :=
  (List.getElem?_eq_some_iff.mp h).1

/-- A cycle ends that has been the last one to start. -/
theorem Timely.ended (h : Timely period starts ends) (hl : starts.length = ends.length + 1)
    (hw : ∀ a, starts[ends.length]? = some a → a ≤ e) : Timely period starts (ends ++ [e]) where
  whole ha he := by
    rcases getElem?_snoc_iff.mp he with he | ⟨rfl, rfl⟩
    · exact h.whole ha he
    · exact hw _ ha
  apart he hb := by
    rcases getElem?_snoc_iff.mp he with he | ⟨rfl, rfl⟩
    · exact h.apart he hb
    · exact absurd (lt_length_of_getElem? hb) (by omega)
  prompt ha he hb := by
    rcases getElem?_snoc_iff.mp he with he | ⟨rfl, rfl⟩
    · exact h.prompt ha he hb
    · exact absurd (lt_length_of_getElem? hb) (by omega)
  spaced := h.spaced

/-- A cycle starts after the last one has ended. -/
theorem Timely.started (h : Timely period starts (ends ++ [e]))
    (hl : starts.length = ends.length + 1) (apart : e ≤ t)
    (prompt : ∀ a, starts[ends.length]? = some a →
      t.nanos ≤ max e.nanos (a.nanos + period.nanos))
    (spaced : ∀ {k a}, starts[k]? = some a →
      a.nanos + (starts.length - k) * period.nanos ≤ t.nanos + Ticker.tolerance.nanos) :
    Timely period (starts ++ [t]) (ends ++ [e]) where
  whole ha he := by
    rcases getElem?_snoc_iff.mp ha with ha | ⟨rfl, rfl⟩
    · exact h.whole ha he
    · have short := lt_length_of_getElem? he
      rw [List.length_append, hl] at short
      exact absurd short (Nat.lt_irrefl _)
  apart {k} _ _ he hb := by
    rcases getElem?_snoc_iff.mp hb with hb | ⟨hk, rfl⟩
    · exact h.apart he hb
    · obtain rfl : k = ends.length := by omega
      obtain rfl : e = _ := by simpa using he
      exact apart
  prompt {k} _ _ _ ha he hb := by
    rcases getElem?_snoc_iff.mp hb with hb | ⟨hk, rfl⟩
    · have early : k + 1 < starts.length := lt_length_of_getElem? hb
      rw [List.getElem?_append_left (by omega)] at ha
      exact h.prompt ha he hb
    · obtain rfl : k = ends.length := by omega
      obtain rfl : e = _ := by simpa using he
      rw [List.getElem?_append_left (by omega)] at ha
      exact prompt _ ha
  spaced {k m} _ _ hk ha hb := by
    rcases getElem?_snoc_iff.mp hb with hb | ⟨rfl, rfl⟩
    · have early : m < starts.length := lt_length_of_getElem? hb
      rw [List.getElem?_append_left (by omega)] at ha
      exact h.spaced hk ha hb
    · rw [List.getElem?_append_left hk] at ha
      exact spaced ha

/-- The ticker of a loop that is launched. -/
theorem paced_start (h : Ticker.start? t period = some ticker) :
    ticker.period = period ∧ Paced ticker [t] [] := by
  unfold Ticker.start? at h
  split at h
  · obtain rfl := Option.some.inj h
    refine ⟨rfl, ⟨⟨nofun, nofun, nofun, ?_⟩, rfl, ?_, ?_⟩⟩
    · intro k m a b hk ha hb
      have first := lt_length_of_getElem? hb
      simp at first
      omega
    · intro a ha
      obtain rfl : t = a := by simpa using ha
      exact Nat.le_refl _
    · intro k a ha
      obtain ⟨rfl, rfl⟩ : k = 0 ∧ a = t := by simpa using (getElem?_snoc_iff (l := [])).mp ha
      simp
  · cases h

/-- Served in time, a ticker is due a period after it was due before; otherwise a period after it
is served. -/
theorem nanos_deadline_next (ticker : Ticker) (t : Duration) :
    (t.nanos ≤ ticker.deadline.nanos + Ticker.tolerance.nanos ∧
        (ticker.next t).deadline.nanos = ticker.deadline.nanos + ticker.period.nanos) ∨
      ticker.deadline.nanos + Ticker.tolerance.nanos < t.nanos ∧
        (ticker.next t).deadline.nanos = t.nanos + ticker.period.nanos := by
  unfold Ticker.next
  split
  · rename_i inTime
    exact .inl ⟨inTime, rfl⟩
  · rename_i missed
    exact .inr ⟨Nat.lt_of_not_le missed, rfl⟩

theorem timely_nil (period : Duration) : Timely period [] [] := ⟨nofun, nofun, nofun, nofun⟩

/-- The last start of all is that of the cycle that has not ended. -/
theorem Paced.last_eq {a : Duration} (h : Paced ticker (starts ++ [t]) ends)
    (ha : (starts ++ [t])[ends.length]? = some a) : t = a := by
  have length := h.length
  rw [List.length_append, List.length_singleton, Nat.add_right_cancel_iff] at length
  simpa [← length] using ha

/-- The tick after a cycle that has ended at this moment. -/
theorem Paced.tick (h : Paced ticker starts ends)
    (hw : ∀ a, starts[ends.length]? = some a → a ≤ e)
    (ht : t.nanos = max e.nanos ticker.deadline.nanos) :
    Paced (ticker.next t) (starts ++ [t]) (ends ++ [e]) := by
  have served : ticker.deadline.nanos ≤ t.nanos := ht ▸ Nat.le_max_right _ _
  have next := nanos_deadline_next ticker t
  refine ⟨?_, by simp [h.length], fun {a} ha => ?_, fun {k a} ha => ?_⟩
  · rw [Ticker.period_next]
    refine (h.timely.ended h.length hw).started h.length ?_ (fun a ha => ?_) fun ha => ?_
    · exact Duration.le_iff.mpr (ht ▸ Nat.le_max_left _ _)
    · have due := h.soon ha
      omega
    · exact Nat.le_trans (h.late ha) (Nat.add_le_add_right served _)
  · rw [Ticker.period_next]
    obtain rfl : t = a := by simpa [← h.length] using ha
    omega
  · rw [Ticker.period_next, List.length_append, List.length_singleton]
    rcases getElem?_snoc_iff.mp ha with ha | ⟨rfl, rfl⟩
    · have due := h.late ha
      have one_more : (starts.length + 1 - k) * ticker.period.nanos =
          (starts.length - k) * ticker.period.nanos + ticker.period.nanos := by
        rw [Nat.succ_sub (Nat.le_of_lt (lt_length_of_getElem? ha)), Nat.succ_mul]
      omega
    · rw [Nat.add_sub_cancel_left, Nat.one_mul]
      omega

/-! ## The clock beside a loop -/

/-- A clock, with the moments at which the cycles of a loop have started and ended. -/
structure Watch where
  now : Duration
  starts : List Duration := []
  ends : List Duration := []

/-- A cycle starts with this operation, or has ended before it. -/
def Effect.isNoted : Effect → Bool
  | .lastPublished => true
  | .rest _ => true
  | _ => false

/-- Time passes with this operation, and it belongs to a cycle. -/
def Effect.isAmid : Effect → Bool
  | .now => false
  | op => !op.isNoted

/-- What a call does to the clock. Reading the clock takes no time. A cycle starts by looking up the
status that was published last, and has ended when the loop rests. A rest is over when its deadline
comes, at once if that has passed, unless the loop is told to stop before. All else takes any
time. -/
inductive Watch.Passes (w : Watch) : Call effects → Watch → Prop
  | read : Passes w ⟨.now, some w.now⟩ w
  | started {t : Duration} (h : w.now ≤ t) (x : Option (Option Status.Snapshot)) :
    Passes w ⟨.lastPublished, x⟩ ⟨t, w.starts ++ [w.now], w.ends⟩
  | amid {call : Call effects} (hc : call.1.isAmid) {t : Duration} (h : w.now ≤ t) :
    Passes w call ⟨t, w.starts, w.ends⟩
  | ticked {deadline t : Duration} (h : t.nanos = max w.now.nanos deadline.nanos) :
    Passes w ⟨.rest deadline, some false⟩ ⟨t, w.starts, w.ends ++ [w.now]⟩
  | stopped {deadline t : Duration} (h : w.now ≤ t)
    (hd : t.nanos ≤ max w.now.nanos deadline.nanos) :
    Passes w ⟨.rest deadline, some true⟩ ⟨t, w.starts, w.ends ++ [w.now]⟩

variable {s : Settings} {ph : Phase} {calls : List (Call effects)} {next : Option Phase}
  {w w' : Watch}

theorem passes_now_iff {x : Option Duration} :
    w.Passes ⟨.now, x⟩ w' ↔ x = some w.now ∧ w' = w := by
  constructor
  · intro h
    cases h with
    | read => exact ⟨rfl, rfl⟩
    | amid hc _ => cases hc
  · rintro ⟨rfl, rfl⟩
    exact .read

theorem passes_lastPublished_iff {x : Option (Option Status.Snapshot)} :
    w.Passes ⟨.lastPublished, x⟩ w' ↔
      ∃ t, w.now ≤ t ∧ w' = ⟨t, w.starts ++ [w.now], w.ends⟩ := by
  constructor
  · intro h
    cases h with
    | started h => exact ⟨_, h, rfl⟩
    | amid hc _ => cases hc
  · rintro ⟨t, h, rfl⟩
    exact .started h x

/-- Any rest ends the cycle. -/
theorem ends_of_passes_rest {deadline : Duration} {x : Option Bool}
    (h : w.Passes ⟨.rest deadline, x⟩ w') :
    w'.starts = w.starts ∧ w'.ends = w.ends ++ [w.now] ∧
      (x = some false → w'.now.nanos = max w.now.nanos deadline.nanos) := by
  cases h with
  | ticked h => exact ⟨rfl, rfl, fun _ => h⟩
  | stopped => exact ⟨rfl, rfl, nofun⟩
  | amid hc _ => cases hc

theorem of_leads_unnoted (h : Leads Watch.Passes w calls w')
    (hc : ∀ call ∈ calls, call.1.isNoted = false) :
    w.now ≤ w'.now ∧ w'.starts = w.starts ∧ w'.ends = w.ends := by
  induction h with
  | nil w => exact ⟨Nat.le_refl _, rfl, rfl⟩
  | cons hp _ ih =>
    obtain ⟨unnoted, later⟩ := List.forall_mem_cons.mp hc
    obtain ⟨le, starts, ends⟩ := ih later
    cases hp with
    | read => exact ⟨le, starts, ends⟩
    | amid _ h => exact ⟨Nat.le_trans h le, starts, ends⟩
    | _ => cases unnoted

/-- A cycle goes on that has started in time. -/
structure Watch.IsAmid (w : Watch) (period : Duration) (ticker : Ticker) : Prop where
  period_eq : ticker.period = period
  paced : Paced ticker w.starts w.ends
  begun (a : Duration) (ha : w.starts[w.ends.length]? = some a) : a ≤ w.now

/-- What has been noted of a loop by the time it has come to this phase. -/
def Watch.Fits (w : Watch) (period : Duration) : Option Phase → Prop
  | none => Timely period w.starts w.ends ∧ w.starts.length = w.ends.length
  | some .launched => w.starts = [] ∧ w.ends = []
  | some (.begun ticker) => ticker.period = period ∧ Paced ticker (w.starts ++ [w.now]) w.ends
  | some (.listening ticker _ _ _ _) => w.IsAmid period ticker
  | some (.expired ticker _ _) => w.IsAmid period ticker
  | some (.closing ticker _) => w.IsAmid period ticker
  | some (.resting ticker) => w.IsAmid period ticker

theorem Watch.IsAmid.unnoted (h : w.IsAmid period ticker) (hl : Leads Watch.Passes w calls w')
    (hc : ∀ call ∈ calls, call.1.isNoted = false) : w'.IsAmid period ticker := by
  obtain ⟨le, starts, ends⟩ := of_leads_unnoted hl hc
  refine ⟨h.period_eq, ?_, fun a ha => ?_⟩
  · rw [starts, ends]
    exact h.paced
  · rw [starts, ends] at ha
    exact Nat.le_trans (h.begun a ha) le

namespace Phase

/-- A cycle begins with the status that was published last. -/
theorem calls_begun (h : (Phase.run s (.begun ticker)).Runs calls next) :
    ∃ x rest, calls = ⟨.lastPublished, x⟩ :: rest ∧
      ∀ call ∈ rest, call.1.isNoted = false := by
  obtain ⟨last, rest, rfl, h₁⟩ := runs_perform_bind_iff.mp h
  refine ⟨some last, rest, rfl, Uses.of_runs (P := fun op : Effect => op.isNoted = false) ?_ h₁⟩
  refine Uses.bind (uses_perform.mpr rfl) fun store => ?_
  refine Uses.bind ((uses_cycle store (uses_true _)).mono ?_) fun queue? => ?_
  · rintro _ ⟨effect, rfl, -⟩
    rfl
  · cases queue? with
    | none => trivial
    | some queue => exact Uses.bind (uses_perform.mpr rfl) fun _ => trivial

theorem isNoted_of_asks (hr : ¬ ph.IsResting) (hb : ∀ ticker, ph ≠ .begun ticker) {op : Effect}
    (h : ph.Asks op) : op.isNoted = false := by
  cases ph with
  | launched => exact absurd trivial hr
  | begun ticker => exact absurd rfl (hb ticker)
  | resting ticker => exact absurd trivial hr
  | _ => cases op <;> first | rfl | exact h.elim

/-- What a step of a loop does to what has been noted. -/
theorem Step.fits (h : ph.Step s calls next) (hl : Leads Watch.Passes w calls w')
    (hf : w.Fits s.config.syncInterval (some ph)) : w'.Fits s.config.syncInterval next := by
  have amid {ticker : Ticker} (hr : ¬ ph.IsResting) (hb : ∀ ticker, ph ≠ .begun ticker)
      (hf : w.IsAmid s.config.syncInterval ticker) : w'.IsAmid s.config.syncInterval ticker :=
    hf.unnoted hl fun call hc => isNoted_of_asks hr hb (h.asks call hc)
  cases ph with
  | launched =>
    obtain ⟨t, rfl, rfl⟩ := calls_launched (h.runs rfl)
    obtain ⟨_, hp, hn⟩ := leads_cons_iff.mp hl
    obtain rfl := leads_nil_iff.mp hn
    obtain ⟨read, rfl⟩ := passes_now_iff.mp hp
    obtain rfl := Option.some.inj read
    obtain ⟨starts, ends⟩ := hf
    cases ht : Ticker.start? w'.now s.config.syncInterval with
    | none => exact ⟨by rw [starts, ends]; exact timely_nil _, by rw [starts, ends]⟩
    | some ticker =>
      show ticker.period = _ ∧ Paced ticker (w'.starts ++ [w'.now]) w'.ends
      rw [starts, ends]
      exact paced_start ht
  | begun ticker =>
    obtain ⟨x, rest, rfl, hn⟩ := calls_begun (h.runs rfl)
    obtain ⟨w₁, hp, hl⟩ := leads_cons_iff.mp hl
    obtain ⟨t, le, rfl⟩ := passes_lastPublished_iff.mp hp
    have begins : Watch.IsAmid ⟨t, w.starts ++ [w.now], w.ends⟩ s.config.syncInterval ticker := by
      refine ⟨hf.1, hf.2, fun a ha => ?_⟩
      have last := hf.2.last_eq ha
      exact last ▸ le
    have goesOn := begins.unnoted hl hn
    rcases run_begun (h.runs rfl) with ⟨_, -, rfl⟩ | ⟨_, _, _, -, rfl⟩
    · exact goesOn
    · exact goesOn
  | listening ticker store queue deadline c =>
    cases h with
    | run h' =>
      rcases (run_listening h').2 with rfl | ⟨c', rfl⟩
      · exact amid nofun nofun hf
      · exact amid nofun nofun hf
    | expire hd _ =>
      obtain ⟨-, rfl⟩ := Prod.mk.inj (Option.some.inj hd)
      exact amid nofun nofun hf
  | expired ticker store queue =>
    obtain ⟨-, rfl⟩ := run_expired (h.runs rfl)
    exact amid nofun nofun hf
  | closing ticker store =>
    obtain ⟨-, rfl⟩ := run_closing (h.runs rfl)
    exact amid nofun nofun hf
  | resting ticker =>
    obtain ⟨period, paced, begun⟩ := hf
    rcases calls_resting (h.runs rfl) with ⟨rfl, rfl⟩ | ⟨t, rfl, rfl⟩
    · obtain ⟨_, hp, hn⟩ := leads_cons_iff.mp hl
      obtain rfl := leads_nil_iff.mp hn
      obtain ⟨starts, ends, -⟩ := ends_of_passes_rest hp
      show Timely _ _ _ ∧ _
      rw [starts, ends, ← period, List.length_append]
      exact ⟨paced.timely.ended paced.length begun, paced.length⟩
    · obtain ⟨w₁, hp, hl⟩ := leads_cons_iff.mp hl
      obtain ⟨_, hr, hn⟩ := leads_cons_iff.mp hl
      obtain rfl := leads_nil_iff.mp hn
      obtain ⟨read, rfl⟩ := passes_now_iff.mp hr
      obtain rfl := Option.some.inj read
      obtain ⟨starts, ends, now⟩ := ends_of_passes_rest hp
      show (ticker.next w'.now).period = _ ∧ Paced _ (w'.starts ++ [w'.now]) w'.ends
      rw [starts, ends, Ticker.period_next]
      exact ⟨period, paced.tick begun (now rfl)⟩

theorem Loops.fits (h : Phase.launched.Loops s calls next) {t : Duration}
    (hl : Leads Watch.Passes ⟨t, [], []⟩ calls w) : w.Fits s.config.syncInterval next := by
  induction h generalizing w with
  | nil =>
    obtain rfl := leads_nil_iff.mp hl
    exact ⟨rfl, rfl⟩
  | snoc _ ht ih =>
    obtain ⟨w₁, first, rest⟩ := leads_append_iff.mp hl
    exact ht.fits rest (ih first)

end Phase

theorem Timely.of_snoc (h : Timely period (starts ++ [t]) ends) : Timely period starts ends where
  whole ha he := h.whole (getElem?_snoc_iff.mpr (.inl ha)) he
  apart he hb := h.apart he (getElem?_snoc_iff.mpr (.inl hb))
  prompt ha he hb := h.prompt (getElem?_snoc_iff.mpr (.inl ha)) he (getElem?_snoc_iff.mpr (.inl hb))
  spaced hk ha hb := h.spaced hk (getElem?_snoc_iff.mpr (.inl ha)) (getElem?_snoc_iff.mpr (.inl hb))

/-- Whatever phase a loop has come to, its cycles have kept to the period, and all but the last one
have ended. -/
theorem Watch.Fits.timely (h : w.Fits period next) :
    Timely period w.starts w.ends ∧ w.ends.length ≤ w.starts.length ∧
      w.starts.length ≤ w.ends.length + 1 := by
  have amid {ticker : Ticker} (h : w.IsAmid period ticker) :
      Timely period w.starts w.ends ∧ w.ends.length ≤ w.starts.length ∧
        w.starts.length ≤ w.ends.length + 1 := by
    obtain ⟨rfl, paced, -⟩ := h
    exact ⟨paced.timely, by have := paced.length; omega, Nat.le_of_eq paced.length⟩
  cases next with
  | none => exact ⟨h.1, Nat.le_of_eq h.2.symm, by have := h.2; omega⟩
  | some ph =>
    cases ph with
    | launched =>
      obtain ⟨starts, ends⟩ := h
      rw [starts, ends]
      exact ⟨timely_nil period, Nat.le_refl _, Nat.zero_le _⟩
    | begun ticker =>
      obtain ⟨rfl, paced⟩ := h
      have length := paced.length
      rw [List.length_append, List.length_singleton] at length
      exact ⟨paced.timely.of_snoc, by omega, by omega⟩
    | _ => exact amid h

/-- A loop that rests and is not told to stop goes on to another cycle, at once if a period has
passed since the last one has started, and otherwise no later than that. -/
theorem exists_resumed (h : Phase.launched.Loops s calls (some (.resting ticker)))
    (hl : Leads Watch.Passes ⟨t, [], []⟩ calls w) :
    ∃ a w', w.starts.getLast? = some a ∧
      Leads Watch.Passes w [looked ticker false, ⟨.now, some w'.now⟩] w' ∧
      Phase.launched.Loops s (calls ++ [looked ticker false, ⟨.now, some w'.now⟩])
        (some (.begun (ticker.next w'.now))) ∧
      w'.now.nanos ≤ max w.now.nanos (a.nanos + s.config.syncInterval.nanos) := by
  obtain ⟨period, paced, -⟩ := h.fits hl
  have length := paced.length
  obtain ⟨a, ha⟩ : ∃ a, w.starts[w.ends.length]? = some a :=
    ⟨_, List.getElem?_eq_getElem (by omega)⟩
  have due := paced.soon ha
  let w' : Watch := ⟨⟨max w.now.nanos ticker.deadline.nanos⟩, w.starts, w.ends ++ [w.now]⟩
  have ticks : w.Passes (looked ticker false) w' := .ticked rfl
  refine ⟨a, w', ?_, .cons ticks (.cons .read (.nil _)), h.ticks _, ?_⟩
  · rw [List.getLast?_eq_getElem?, length]
    exact ha
  · rw [← period]
    show max _ _ ≤ _
    omega

/-! ## Cycles of any length -/

/-- A cycle can take any time. -/
theorem exists_cycle (h : Phase.launched.Loops s calls (some (.begun ticker))) (w : Watch)
    (d : Duration) :
    ∃ more, Phase.launched.Loops s (calls ++ more) (some (.resting ticker)) ∧
      Leads Watch.Passes w more ⟨w.now + d, w.starts ++ [w.now], w.ends⟩ := by
  have looked : w.Passes ⟨.lastPublished, some none⟩ ⟨w.now, w.starts ++ [w.now], w.ends⟩ :=
    .started (Nat.le_refl _) _
  have opened (v : Watch) (seed : Status.Snapshot) :
      v.Passes ⟨.openStore seed, some default⟩ v := .amid rfl (Nat.le_refl _)
  have refused (v : Watch) : v.Passes ⟨.cycle default (.session .start),
      some (.error .notConnected)⟩ ⟨v.now + d, v.starts, v.ends⟩ :=
    .amid rfl (Nat.le_add_right _ _)
  have published (v : Watch) : v.Passes ⟨.cycle default .publish, some ()⟩ v :=
    .amid rfl (Nat.le_refl _)
  have unstarted : (Phase.run s (.begun ticker)).Runs
      [⟨.lastPublished, some none⟩, ⟨.openStore (s.config.seed s.initial none), some default⟩,
        ⟨.cycle default (.session .start), some (.error .notConnected)⟩,
        ⟨.cycle default .publish, some ()⟩] (some (.resting ticker)) :=
    .ask _ (.ask _ (.ask _ (.ask _ (.done _))))
  exact ⟨_, h.snoc (.run unstarted), .cons looked (.cons (opened _ _) (.cons (refused _)
    (.cons (published _) (.nil _))))⟩

/-- The cycles from here on can take any times, one after the other. -/
theorem exists_cycles (h : Phase.launched.Loops s calls (some (.begun ticker))) (w : Watch)
    (d : Duration) (ds : List Duration) :
    ∃ more ticker' w' starts,
      Phase.launched.Loops s (calls ++ more) (some (.resting ticker')) ∧
      Leads Watch.Passes w more w' ∧ w'.starts = w.starts ++ starts ∧
      starts.length = (d :: ds).length ∧
      w'.ends ++ [w'.now] = w.ends ++ List.zipWith (· + ·) starts (d :: ds) := by
  induction ds generalizing calls ticker w d with
  | nil =>
    obtain ⟨more, loop, leads⟩ := exists_cycle h w d
    exact ⟨more, ticker, _, [w.now], loop, leads, rfl, rfl, rfl⟩
  | cons d' ds ih =>
    obtain ⟨first, loop, leads⟩ := exists_cycle h w d
    let v : Watch := ⟨w.now + d, w.starts ++ [w.now], w.ends⟩
    let v' : Watch := ⟨⟨max v.now.nanos ticker.deadline.nanos⟩, v.starts, v.ends ++ [v.now]⟩
    have ticks : Leads Watch.Passes v [looked ticker false, ⟨.now, some v'.now⟩] v' :=
      .cons (.ticked rfl) (.cons .read (.nil _))
    obtain ⟨rest, ticker', w', starts, loop', leads', hs, length, took⟩ :=
      ih (loop.ticks v'.now) v' d'
    refine ⟨first ++ ([looked ticker false, ⟨.now, some v'.now⟩] ++ rest), ticker', w',
      w.now :: starts, by simpa using loop', ?_, ?_, by simp [length], ?_⟩
    · exact leads_append_iff.mpr ⟨v, leads, leads_append_iff.mpr ⟨v', ticks, leads'⟩⟩
    · simp [hs, v', v]
    · simp [took, v', v]

/-- Whatever times the cycles of a loop are to take, there is a loop of which they take these. -/
theorem exists_loop (s : Settings) {t : Duration}
    (ht : (t + s.config.syncInterval).seconds < Ticker.clockRange) (d : Duration)
    (ds : List Duration) :
    ∃ calls ticker w, Phase.launched.Loops s calls (some (.resting ticker)) ∧
      Leads Watch.Passes ⟨t, [], []⟩ calls w ∧ w.starts.length = (d :: ds).length ∧
      w.ends ++ [w.now] = List.zipWith (· + ·) w.starts (d :: ds) := by
  obtain ⟨more, ticker', w, starts, loop, leads, hs, length, took⟩ :=
    exists_cycles (Phase.loops_launched ht) ⟨t, [], []⟩ d ds
  obtain rfl : w.starts = starts := hs
  exact ⟨_, ticker', w, loop, .cons .read leads, length, took⟩

/-! ## The pace of every loop -/

/-- Whatever time the cycles of a loop take, they have kept to its interval whenever one looks. A
loop that rests goes on in time if it is not told to stop. And the cycles can take any times. -/
theorem cycles_paced (s : Settings) (t : Duration) :
    (∀ calls next w, Phase.launched.Loops s calls next →
      Leads Watch.Passes ⟨t, [], []⟩ calls w →
      Timely s.config.syncInterval w.starts w.ends ∧ w.ends.length ≤ w.starts.length ∧
        w.starts.length ≤ w.ends.length + 1) ∧
    (∀ calls ticker w, Phase.launched.Loops s calls (some (.resting ticker)) →
      Leads Watch.Passes ⟨t, [], []⟩ calls w →
      ∃ a w', w.starts.getLast? = some a ∧
        Leads Watch.Passes w [looked ticker false, ⟨.now, some w'.now⟩] w' ∧
        Phase.launched.Loops s (calls ++ [looked ticker false, ⟨.now, some w'.now⟩])
          (some (.begun (ticker.next w'.now))) ∧
        w'.now.nanos ≤ max w.now.nanos (a.nanos + s.config.syncInterval.nanos)) ∧
    ((t + s.config.syncInterval).seconds < Ticker.clockRange → ∀ d ds,
      ∃ calls ticker w, Phase.launched.Loops s calls (some (.resting ticker)) ∧
        Leads Watch.Passes ⟨t, [], []⟩ calls w ∧ w.starts.length = (d :: ds).length ∧
        w.ends ++ [w.now] = List.zipWith (· + ·) w.starts (d :: ds)) :=
  ⟨fun _ _ _ h hl => (h.fits hl).timely, fun _ _ _ h hl => exists_resumed h hl,
    fun ht d ds => exists_loop s ht d ds⟩

/-- A cycle that takes three times the interval is followed by short ones, which keep to it. -/
theorem cycles_paced_overlong :
    ∃ calls ticker w, Phase.launched.Loops ⟨{}, {}, {}⟩ calls (some (.resting ticker)) ∧
      Leads Watch.Passes ⟨.zero, [], []⟩ calls w ∧ w.starts.length = 3 ∧
      Timely (.ofSeconds 15) w.starts w.ends := by
  obtain ⟨paced, -, any⟩ := cycles_paced ⟨{}, {}, {}⟩ .zero
  obtain ⟨calls, ticker, w, loop, leads, length, -⟩ :=
    any (by decide) (.ofSeconds 45) [.ofSeconds 1, .ofSeconds 1]
  exact ⟨calls, ticker, w, loop, leads, length, (paced calls _ w loop leads).1⟩

end GattSync.Resync
