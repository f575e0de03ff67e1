import GattSync.Proofs.Program.Runs

/-!
# Programs over a state

What a program does to a state that its operations read and change. How a single call takes one
state to another is given by a relation (`step`), which says of an operation with an answer what the
state is then, and of one without what it is when the program is given up while it waits.

The program makes its calls, each from the state that the one before has left (`Evolves`). It has a
result if it is done and none if it is given up.
-/

namespace GattSync.Program

variable {S : Signature} {α β σ : Type} {step : σ → Call S → σ → Prop}

/-- The program makes these calls, and the state goes with them from the one to the other. -/
inductive Evolves (step : σ → Call S → σ → Prop) :
    Program S α → σ → List (Call S) → Option α → σ → Prop
  | done (a : α) (s : σ) : Evolves step (done a) s [] (some a) s
  | asked {op : S.Op} {next : S.Answer op → Program S α} {s s₁ s' : σ} {x : S.Answer op}
      {calls : List (Call S)} {r : Option α} (hs : step s ⟨op, some x⟩ s₁)
      (h : Evolves step (next x) s₁ calls r s') :
    Evolves step (ask op next) s (⟨op, some x⟩ :: calls) r s'
  | pending {op : S.Op} {next : S.Answer op → Program S α} {s s' : σ}
      (hs : step s ⟨op, none⟩ s') : Evolves step (ask op next) s [⟨op, none⟩] none s'

variable {s s' : σ} {calls : List (Call S)}

@[simp] theorem evolves_done_iff {a : α} {r : Option α} :
    (done a : Program S α).Evolves step s calls r s' ↔ calls = [] ∧ r = some a ∧ s' = s := by
  constructor
  · intro h
    cases h
    exact ⟨rfl, rfl, rfl⟩
  · rintro ⟨rfl, rfl, rfl⟩
    exact .done a s'

theorem evolves_ask_iff {op : S.Op} {next : S.Answer op → Program S α} {r : Option α} :
    (ask op next).Evolves step s calls r s' ↔
      (calls = [⟨op, none⟩] ∧ r = none ∧ step s ⟨op, none⟩ s') ∨
        ∃ x s₁ rest, calls = ⟨op, some x⟩ :: rest ∧ step s ⟨op, some x⟩ s₁ ∧
          (next x).Evolves step s₁ rest r s' := by
  constructor
  · intro h
    cases h with
    | pending hs => exact .inl ⟨rfl, rfl, hs⟩
    | asked hs h => exact .inr ⟨_, _, _, rfl, hs, h⟩
  · rintro (⟨rfl, rfl, hs⟩ | ⟨x, s₁, rest, rfl, hs, h⟩)
    · exact .pending hs
    · exact .asked hs h

theorem evolves_perform_bind_iff {op : S.Op} {f : S.Answer op → Program S β} {r : Option β} :
    ((perform op).bind f).Evolves step s calls r s' ↔
      (calls = [⟨op, none⟩] ∧ r = none ∧ step s ⟨op, none⟩ s') ∨
        ∃ x s₁ rest, calls = ⟨op, some x⟩ :: rest ∧ step s ⟨op, some x⟩ s₁ ∧
          (f x).Evolves step s₁ rest r s' :=
  evolves_ask_iff

/-- A program with another one behind it is given up in the one, or done with it and goes on with
the other. -/
theorem evolves_bind_iff {p : Program S α} {f : α → Program S β} {r : Option β} :
    (p.bind f).Evolves step s calls r s' ↔
      (r = none ∧ p.Evolves step s calls none s') ∨
        ∃ a s₁ first rest, calls = first ++ rest ∧ p.Evolves step s first (some a) s₁ ∧
          (f a).Evolves step s₁ rest r s' := by
  induction p generalizing s calls with
  | done a =>
    constructor
    · intro h
      exact .inr ⟨a, s, [], calls, rfl, .done a s, h⟩
    · rintro (⟨rfl, hp⟩ | ⟨_, _, _, rest, rfl, hp, hf⟩)
      · cases hp
      · cases hp
        exact hf
  | ask op next ih =>
    rw [ask_bind, evolves_ask_iff]
    constructor
    · rintro (⟨rfl, rfl, hs⟩ | ⟨x, s₁, rest, rfl, hs, h⟩)
      · exact .inl ⟨rfl, .pending hs⟩
      · rcases (ih x).mp h with ⟨rfl, hp⟩ | ⟨a, s₂, first, more, rfl, hp, hf⟩
        · exact .inl ⟨rfl, .asked hs hp⟩
        · exact .inr ⟨a, s₂, ⟨op, some x⟩ :: first, more, rfl, .asked hs hp, hf⟩
    · rintro (⟨rfl, h⟩ | ⟨a, s₂, first, more, rfl, h, hf⟩)
      · cases h with
        | pending hs => exact .inl ⟨rfl, rfl, hs⟩
        | asked hs hp => exact .inr ⟨_, _, _, rfl, hs, (ih _).mpr (.inl ⟨rfl, hp⟩)⟩
      · cases h with
        | asked hs hp =>
          exact .inr ⟨_, _, _, rfl, hs, (ih _).mpr (.inr ⟨a, s₂, _, more, rfl, hp, hf⟩)⟩

/-! ## What holds of all calls and states -/

/-- What every call of this kind keeps holds after a program that makes no others. -/
theorem Evolves.preserves {P : S.Op → Prop} {I : σ → Prop} {p : Program S α} {r : Option α}
    (h : p.Evolves step s calls r s') (hp : p.Uses P)
    (keeps : ∀ {s s₁ call}, P call.1 → step s call s₁ → I s → I s₁) (hs : I s) : I s' := by
  induction h with
  | done => exact hs
  | asked ht _ ih => exact ih (hp.2 _) (keeps hp.1 ht hs)
  | pending ht => exact keeps hp.1 ht hs

theorem Evolves.uses {P : S.Op → Prop} {p : Program S α} {r : Option α}
    (h : p.Evolves step s calls r s') (hp : p.Uses P) : ∀ call ∈ calls, P call.1 := by
  induction h with
  | done => simp
  | asked _ _ ih => exact List.forall_mem_cons.mpr ⟨hp.1, ih (hp.2 _)⟩
  | pending _ => exact List.forall_mem_singleton.mpr hp.1

theorem Evolves.forall_calls {P : Call S → Prop} {p : Program S α} {r : Option α}
    (h : p.Evolves step s calls r s') (hc : ∀ {s call s₁}, step s call s₁ → P call) :
    ∀ call ∈ calls, P call := by
  induction h with
  | done => simp
  | asked ht _ ih => exact List.forall_mem_cons.mpr ⟨hc ht, ih⟩
  | pending ht => exact List.forall_mem_singleton.mpr (hc ht)

theorem Evolves.mono {step' : σ → Call S → σ → Prop} {p : Program S α} {r : Option α}
    (h : p.Evolves step s calls r s') (hm : ∀ {s call s₁}, step s call s₁ → step' s call s₁) :
    p.Evolves step' s calls r s' := by
  induction h with
  | done a s => exact .done a s
  | asked ht _ ih => exact .asked (hm ht) ih
  | pending ht => exact .pending (hm ht)

/-- Whatever the answers are, the result is one of these. -/
def Ends (P : α → Prop) : Program S α → Prop
  | done a => P a
  | ask _ next => ∀ x, (next x).Ends P

theorem Ends.bind {P : β → Prop} (p : Program S α) {f : α → Program S β}
    (h : ∀ a, (f a).Ends P) : (p.bind f).Ends P := by
  induction p with
  | done a => exact h a
  | ask op next ih => exact fun x => ih x

theorem Evolves.ends {P : α → Prop} {p : Program S α} {a : α}
    (h : p.Evolves step s calls (some a) s') (hp : p.Ends P) : P a := by
  generalize hr : some a = r at h
  induction h with
  | done b s => exact Option.some.inj hr ▸ hp
  | asked _ _ ih => exact ih (hp _) hr
  | pending _ => cases hr

/-! ## Calls apart from their program -/

/-- The calls take the one state to the other. -/
inductive Leads (step : σ → Call S → σ → Prop) : σ → List (Call S) → σ → Prop
  | nil (s : σ) : Leads step s [] s
  | cons {s s₁ s' : σ} {call : Call S} {calls : List (Call S)} (hs : step s call s₁)
      (h : Leads step s₁ calls s') : Leads step s (call :: calls) s'

@[simp] theorem leads_nil_iff : Leads step s [] s' ↔ s' = s := by
  constructor
  · intro h
    cases h
    rfl
  · rintro rfl
    exact .nil s'

@[simp] theorem leads_cons_iff {call : Call S} :
    Leads step s (call :: calls) s' ↔ ∃ s₁, step s call s₁ ∧ Leads step s₁ calls s' := by
  constructor
  · intro h
    cases h with
    | cons hs h => exact ⟨_, hs, h⟩
  · rintro ⟨s₁, hs, h⟩
    exact .cons hs h

theorem leads_append_iff {first rest : List (Call S)} :
    Leads step s (first ++ rest) s' ↔ ∃ s₁, Leads step s first s₁ ∧ Leads step s₁ rest s' := by
  induction first generalizing s with
  | nil => simp
  | cons call first ih =>
    simp only [List.cons_append, leads_cons_iff, ih]
    constructor
    · rintro ⟨s₁, hs, s₂, hf, hr⟩
      exact ⟨s₂, ⟨s₁, hs, hf⟩, hr⟩
    · rintro ⟨s₂, ⟨s₁, hs, hf⟩, hr⟩
      exact ⟨s₁, hs, s₂, hf, hr⟩

theorem Evolves.leads {p : Program S α} {r : Option α} (h : p.Evolves step s calls r s') :
    Leads step s calls s' := by
  induction h with
  | done a s => exact .nil s
  | asked hs _ ih => exact .cons hs ih
  | pending hs => exact .cons hs (.nil _)

theorem Evolves.runs {p : Program S α} {a : α} (h : p.Evolves step s calls (some a) s') :
    p.Runs calls a := by
  generalize hr : some a = r at h
  induction h with
  | done b s =>
    obtain rfl := Option.some.inj hr
    exact .done a
  | asked _ _ ih => exact .ask _ (ih hr)
  | pending _ => cases hr

theorem Evolves.breaks {p : Program S α} (h : p.Evolves step s calls none s') :
    p.Breaks calls := by
  generalize hr : none = r at h
  induction h with
  | done b s => cases hr
  | asked _ _ ih => exact .ask _ (ih hr)
  | pending _ => exact .pending _ _

/-- What calls of a kind keep holds after them, and with it what each of them has of it. -/
theorem Leads.forall_calls {P Q : Call S → Prop} {I : σ → Prop} (h : Leads step s calls s')
    (hp : ∀ call ∈ calls, P call)
    (keeps : ∀ {s call s₁}, P call → step s call s₁ → I s → I s₁ ∧ Q call) (hs : I s) :
    I s' ∧ ∀ call ∈ calls, Q call := by
  induction h with
  | nil s => exact ⟨hs, nofun⟩
  | cons ht _ ih =>
    obtain ⟨hc, hrest⟩ := List.forall_mem_cons.mp hp
    obtain ⟨kept, has⟩ := keeps hc ht hs
    obtain ⟨last, all⟩ := ih hrest kept
    exact ⟨last, List.forall_mem_cons.mpr ⟨has, all⟩⟩

/-- If every operation can be answered in every state, every program can be done. -/
theorem exists_evolves (total : ∀ s op, ∃ x s₁, step s ⟨op, some x⟩ s₁) (p : Program S α) (s : σ) :
    ∃ calls a s', p.Evolves step s calls (some a) s' := by
  induction p generalizing s with
  | done a => exact ⟨[], a, s, .done a s⟩
  | ask op next ih =>
    obtain ⟨x, s₁, hs⟩ := total s op
    obtain ⟨calls, a, s', h⟩ := ih x s₁
    exact ⟨_, a, s', .asked hs h⟩

end GattSync.Program
