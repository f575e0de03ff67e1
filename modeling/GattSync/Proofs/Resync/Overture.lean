import GattSync.Proofs.Resync.Desk

/-!
# The overture of a cycle

A cycle begins by looking for what has been published last, opening its store with the seed that
follows, and starting the session (`overture`). A loop that publishes on start makes every
publication at once after an overture, and none anywhere else (`Phase.Loops.isPrompt`). Wherever it
publishes, it opens no store but at once after it has looked (`Phase.Loops.isSeeded`).

Before its first cycle a loop looks at the clock. It goes no further if the clock cannot count up to
its first tick (`Phase.Loops.launches`), and otherwise it does not end without a publication
(`Phase.Loops.exists_handed`).
-/

namespace GattSync

open Program

namespace Resync

variable {s : Settings} {ph : Phase} {calls more tail : List (Call effects)} {next : Option Phase}
  {store : Status.Store} {last : Option Status.Snapshot} {y : Except Error Session.Queue}

/-! ## Overtures -/

/-- What a cycle begins with: it looks for what has been published last, opens its store with the
seed that follows, and starts the session. -/
def overture (s : Settings) (last : Option Status.Snapshot) (store : Status.Store)
    (y : Except Error Session.Queue) : List (Call effects) :=
  [⟨.lastPublished, some last⟩, ⟨.openStore (s.config.seed s.initial last), some store⟩,
    ⟨.cycle store (.session .start), some y⟩]

theorem store_mem_overture : store ∈ opened (overture s last store y) :=
  List.mem_singleton_self store

/-- What a cycle does with its store when it begins is to start its session. -/
theorem eq_start_of_mem_overture {effect : Cycle.Effect} {x : Option effect.Answer}
    (h : ⟨.cycle store effect, x⟩ ∈ overture s last store y) : effect = .session .start := by
  simp only [overture, List.mem_cons, List.not_mem_nil, or_false] at h
  rcases h with looked | opening | started
  · cases looked
  · cases opening
  · cases started
    rfl

/-! ## Publications -/

/-- Every publication follows at once on what its cycle begins with. -/
def IsPrompt (s : Settings) (calls : List (Call effects)) : Prop :=
  ∀ first store x rest, calls = first ++ ⟨.cycle store .publish, x⟩ :: rest →
    ∃ earlier last y, first = earlier ++ overture s last store y

theorem publication_mem_marks : .publication ∈ marks calls ↔ ∃ store, store ∈ handed calls := by
  simp only [mem_handed]
  constructor
  · intro h
    obtain ⟨⟨op, x⟩, hc, seen⟩ := List.mem_filterMap.mp h
    cases op with
    | cycle store effect =>
      cases effect with
      | publish => exact ⟨store, x, hc⟩
      | _ => cases seen
    | _ => cases seen
  · rintro ⟨store, x, hc⟩
    exact List.mem_filterMap.mpr ⟨_, hc, rfl⟩

theorem IsSpan.publication_mem {point : PublishPoint} {ms : List Mark} (h : IsSpan point ms) :
    .publication ∈ ms := by
  cases h with
  | unstarted => simp
  | onStart => simp
  | afterCycle queue hi hc =>
    cases hc
    simp

theorem handed_eq_nil (h : .publication ∉ marks calls) : handed calls = [] :=
  List.eq_nil_iff_forall_not_mem.mpr fun store hs => h (publication_mem_marks.mpr ⟨store, hs⟩)

theorem IsPrompt.append (h : IsPrompt s calls) (hm : IsPrompt s more) :
    IsPrompt s (calls ++ more) := by
  intro first store x rest hc
  rcases append_eq_append_cons_iff.mp hc with ⟨between, rfl, -⟩ | ⟨between, rfl, rfl⟩
  · exact h first store x between rfl
  · obtain ⟨earlier, last, y, rfl⟩ := hm between store x rest rfl
    exact ⟨calls ++ earlier, last, y, (List.append_assoc _ _ _).symm⟩

theorem IsPrompt.of_append (h : IsPrompt s (calls ++ more)) : IsPrompt s calls := by
  rintro first store x rest rfl
  exact h first store x (rest ++ more) (List.append_assoc _ _ _)

theorem isPrompt_of_handed (h : handed calls = []) : IsPrompt s calls := by
  rintro first store x rest rfl
  have published : store ∈ handed (first ++ ⟨.cycle store .publish, x⟩ :: rest) :=
    mem_handed.mpr ⟨x, by simp⟩
  rw [h] at published
  cases published

/-- One publication after an overture. -/
theorem isPrompt_overture {x : Option Unit} (h : handed tail = []) :
    IsPrompt s (overture s last store y ++ ⟨.cycle store .publish, x⟩ :: tail) := by
  intro first other x' rest hc
  rcases append_eq_append_cons_iff.mp hc with ⟨between, within, -⟩ | ⟨between, rfl, hrest⟩
  · have unpublished : other ∉ handed (overture s last store y) := List.not_mem_nil
    exact absurd (mem_handed.mpr ⟨x', by simp [within]⟩) unpublished
  · cases between with
    | nil =>
      obtain ⟨rfl, -⟩ : store = other ∧ _ := by simpa using (List.cons.inj hrest).1
      exact ⟨[], last, y, List.append_nil _⟩
    | cons call between =>
      obtain ⟨-, later⟩ := List.cons.inj hrest
      have again : other ∈ handed tail := mem_handed.mpr ⟨x', later ▸ by simp⟩
      rw [h] at again
      cases again

/-! ## Openings -/

/-- Every store is opened at once after a look at what has been published last, with the seed that
follows. -/
def IsSeeded (s : Settings) (calls : List (Call effects)) : Prop :=
  ∀ first seed store rest, calls = first ++ ⟨.openStore seed, some store⟩ :: rest →
    ∃ earlier last, first = earlier ++ [⟨.lastPublished, some last⟩] ∧
      seed = s.config.seed s.initial last

theorem IsSeeded.append (h : IsSeeded s calls) (hm : IsSeeded s more) :
    IsSeeded s (calls ++ more) := by
  intro first seed store rest hc
  rcases append_eq_append_cons_iff.mp hc with ⟨between, rfl, -⟩ | ⟨between, rfl, rfl⟩
  · exact h first seed store between rfl
  · obtain ⟨earlier, last, rfl, hs⟩ := hm between seed store rest rfl
    exact ⟨calls ++ earlier, last, (List.append_assoc _ _ _).symm, hs⟩

theorem IsSeeded.of_append (h : IsSeeded s (calls ++ more)) : IsSeeded s calls := by
  rintro first seed store rest rfl
  exact h first seed store (rest ++ more) (List.append_assoc _ _ _)

theorem isSeeded_of_opened (h : opened calls = []) : IsSeeded s calls := by
  rintro first seed store rest rfl
  simp [opened, opened?] at h

theorem isSeeded_opening (s : Settings) (last : Option Status.Snapshot) (store : Status.Store) :
    IsSeeded s [⟨.lastPublished, some last⟩,
      ⟨.openStore (s.config.seed s.initial last), some store⟩] := by
  intro first seed other rest hc
  match first, hc with
  | [], hc => cases (List.cons.inj hc).1
  | [looked], hc =>
    obtain ⟨rfl, hc⟩ := List.cons.inj hc
    cases hc
    exact ⟨[], last, rfl, rfl⟩
  | _ :: _ :: _, hc => simp at hc

/-! ## Phase by phase -/

namespace Phase

theorem isSeeded_begun {ticker : Ticker} (h : (Phase.run s (.begun ticker)).Runs calls next) :
    IsSeeded s calls := by
  obtain ⟨last, _, rfl, h₁⟩ := runs_perform_bind_iff.mp h
  obtain ⟨store, _, rfl, h₂⟩ := runs_perform_bind_iff.mp h₁
  obtain ⟨opening, queue?, tail, rfl, ho, hl⟩ := runs_bind_iff.mp h₂
  have inner : opened opening = [] := by
    refine List.filterMap_eq_nil_iff.mpr fun call hc => ?_
    obtain ⟨op, x⟩ := call
    obtain ⟨effect, rfl, -⟩ := (uses_cycle store (uses_true _)).of_runs ho _ hc
    rfl
  have clock : opened tail = [] := by
    cases queue? with
    | none =>
      obtain ⟨rfl, -⟩ := runs_done_iff.mp hl
      rfl
    | some queue =>
      obtain ⟨now, _, rfl, hn⟩ := runs_perform_bind_iff.mp hl
      obtain ⟨rfl, -⟩ := runs_done_iff.mp hn
      rfl
  have unopened : opened (opening ++ tail) = [] := by
    rw [opened_append, inner, clock, List.append_nil]
  exact (isSeeded_opening s last store).append (isSeeded_of_opened unopened)

/-- Only when a cycle begins is a store opened. -/
theorem Step.isSeeded (h : ph.Step s calls next) : IsSeeded s calls := by
  cases ph with
  | begun ticker => exact isSeeded_begun (h.runs rfl)
  | _ =>
    refine isSeeded_of_opened (List.filterMap_eq_nil_iff.mpr fun call hc => ?_)
    have asked := h.asks call hc
    obtain ⟨op, x⟩ := call
    cases op with
    | openStore seed => exact asked.elim
    | _ => rfl

theorem Loops.isSeeded (h : Phase.launched.Loops s calls next) : IsSeeded s calls := by
  induction h with
  | nil => exact isSeeded_of_opened rfl
  | snoc _ ht ih => exact ih.append ht.isSeeded

/-- A cycle that publishes on start does so whether its session can be started or not. -/
theorem isPrompt_begun {ticker : Ticker} (h : (Phase.run s (.begun ticker)).Runs calls next)
    (hp : s.config.publishPoint = .onStart) : IsPrompt s calls := by
  obtain ⟨last, _, rfl, h₁⟩ := runs_perform_bind_iff.mp h
  obtain ⟨store, _, rfl, h₂⟩ := runs_perform_bind_iff.mp h₁
  obtain ⟨opening, queue?, tail, rfl, ho, hl⟩ := runs_bind_iff.mp h₂
  rw [hp] at ho
  obtain ⟨y, _, rfl, ha⟩ := runs_perform_bind_iff.mp ho
  cases y with
  | error fault =>
    obtain ⟨_, _, rfl, hd⟩ := runs_perform_bind_iff.mp ha
    obtain ⟨rfl, rfl⟩ := runs_done_iff.mp hd
    obtain ⟨rfl, -⟩ := runs_done_iff.mp hl
    exact isPrompt_overture rfl
  | ok queue =>
    obtain ⟨_, _, rfl, hd⟩ := runs_perform_bind_iff.mp ha
    obtain ⟨rfl, rfl⟩ := runs_done_iff.mp hd
    obtain ⟨now, _, rfl, hn⟩ := runs_perform_bind_iff.mp hl
    obtain ⟨rfl, -⟩ := runs_done_iff.mp hn
    exact isPrompt_overture rfl

/-- Once the session has been started, there is nothing left to publish. -/
theorem Step.isPrompt (h : ph.Step s calls next) (hp : s.config.publishPoint = .onStart) :
    IsPrompt s calls := by
  have unseen (hm : marks calls = []) : IsPrompt s calls :=
    isPrompt_of_handed (handed_eq_nil (by simp [hm]))
  cases ph with
  | launched => exact unseen (h.of_isResting trivial).1
  | begun ticker => exact isPrompt_begun (h.runs rfl) hp
  | listening ticker store queue deadline c =>
    refine isPrompt_of_handed (handed_eq_nil fun published => ?_)
    refine isInner_of_mem_marks (fun call hc => ?_) _ published
    have asked := h.asks call hc
    obtain ⟨op, x⟩ := call
    cases op with
    | cycle st effect => exact asked.2
    | _ => trivial
  | expired ticker store queue => exact unseen (run_expired (h.runs rfl)).1
  | closing ticker store =>
    have closed := (run_closing (h.runs rfl)).1
    rw [hp] at closed
    refine isPrompt_of_handed (handed_eq_nil fun published => ?_)
    generalize marks calls = ms at closed published
    cases closed with
    | onStart x => simp at published
  | resting ticker => exact unseen (h.of_isResting trivial).1

theorem Loops.isPrompt (h : Phase.launched.Loops s calls next)
    (hp : s.config.publishPoint = .onStart) : IsPrompt s calls := by
  induction h with
  | nil => exact isPrompt_of_handed rfl
  | snoc _ ht ih => exact ih.append (ht.isPrompt hp)

/-- A loop looks at the clock first. It goes on from there only if the clock can count up to its
first tick. -/
theorem Loops.launches (h : Phase.launched.Loops s calls next) :
    (calls = [] ∧ next = some .launched) ∨ ∃ now rest, calls = ⟨.now, some now⟩ :: rest ∧
      ((rest = [] ∧ next = none) ∨
        (now + s.config.syncInterval).seconds < Ticker.clockRange) := by
  induction h with
  | nil => exact .inl ⟨rfl, rfl⟩
  | @snoc mid next calls more _ ht ih =>
    rcases ih with ⟨rfl, hm⟩ | ⟨now, rest, rfl, ⟨-, hm⟩ | inRange⟩
    · obtain rfl := Option.some.inj hm
      obtain ⟨now, rfl, rfl⟩ := calls_launched (ht.runs rfl)
      refine .inr ⟨now, [], rfl, ?_⟩
      cases ticks : Ticker.start? now s.config.syncInterval with
      | none => exact .inl ⟨rfl, rfl⟩
      | some ticker =>
        refine .inr (Nat.lt_of_not_le fun beyond => ?_)
        cases (Ticker.start?_eq_none_iff.mpr beyond).symm.trans ticks
    · cases hm
    · exact .inr ⟨now, rest ++ more, rfl, .inr inRange⟩

/-- A loop that has ended has published, if the clock could count on from wherever it looked. -/
theorem Loops.exists_handed (h : Phase.launched.Loops s calls none) (hr : InRange s calls) :
    ∃ store, store ∈ handed calls := by
  obtain ⟨spans, hm, hs, count⟩ := h.hasCycles hr nofun
  cases spans with
  | nil => cases count
  | cons span spans =>
    rw [← publication_mem_marks, hm, List.flatten_cons]
    exact List.mem_append_left _ (hs span List.mem_cons_self).publication_mem

end Phase

end Resync

end GattSync
