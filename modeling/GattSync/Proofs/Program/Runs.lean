import GattSync.Program

/-!
# Runs of programs

What a program does when its operations are answered one after the other: the calls that it makes,
each with its answer, and the result that it is done with. A program can also be given up while it
waits for an answer; the call that it waits for is then its last one, and has none.

A run of one program followed by another is a run of the one followed by a run of the other
(`runs_bind_iff`, `breaks_bind_iff`). Whatever the answers are, a program makes finitely many calls:
it is done with the answers of any behaviour, unless it is given up before (`exists_runs`,
`exists_runs_or_breaks`). After any of its calls it goes on with what is left of it (`Leaves`).
-/

namespace GattSync.Program

/-- What stands in two lists put together stands in one of them. -/
theorem append_eq_append_cons_iff {α : Type} {first rest before after : List α} {x : α} :
    first ++ rest = before ++ x :: after ↔
      (∃ more, first = before ++ x :: more ∧ after = more ++ rest) ∨
        ∃ more, before = first ++ more ∧ rest = more ++ x :: after := by
  rw [List.append_eq_append_iff]
  constructor
  · rintro (⟨more, rfl, hr⟩ | ⟨more, rfl, hr⟩)
    · exact .inr ⟨more, rfl, hr⟩
    · cases more with
      | nil => exact .inr ⟨[], by simp, hr.symm⟩
      | cons y more =>
        obtain ⟨rfl, rfl⟩ := List.cons.inj hr
        exact .inl ⟨more, rfl, rfl⟩
  · rintro (⟨more, rfl, rfl⟩ | ⟨more, rfl, rfl⟩)
    · exact .inr ⟨x :: more, rfl, rfl⟩
    · exact .inl ⟨more, rfl, rfl⟩

variable {S T : Signature} {α β : Type}

/-- An operation that was asked for, with its answer unless the program was given up before. -/
abbrev Call (S : Signature) : Type := (op : S.Op) × Option (S.Answer op)

/-- The program makes these calls and is done with this result. -/
inductive Runs : Program S α → List (Call S) → α → Prop
  | done (a : α) : Runs (done a) [] a
  | ask {op : S.Op} {next : S.Answer op → Program S α} {calls : List (Call S)} {a : α}
      (x : S.Answer op) : Runs (next x) calls a → Runs (ask op next) (⟨op, some x⟩ :: calls) a

/-- The program makes these calls and is given up in the last of them. -/
inductive Breaks : Program S α → List (Call S) → Prop
  | pending (op : S.Op) (next : S.Answer op → Program S α) : Breaks (ask op next) [⟨op, none⟩]
  | ask {op : S.Op} {next : S.Answer op → Program S α} {calls : List (Call S)}
      (x : S.Answer op) : Breaks (next x) calls → Breaks (ask op next) (⟨op, some x⟩ :: calls)

/-! ## Runs by the shape of the program -/

@[simp] theorem runs_done_iff {a b : α} {calls : List (Call S)} :
    (done a : Program S α).Runs calls b ↔ calls = [] ∧ b = a := by
  constructor
  · intro h
    cases h
    exact ⟨rfl, rfl⟩
  · rintro ⟨rfl, rfl⟩
    exact .done b

@[simp] theorem runs_ask_iff {op : S.Op} {next : S.Answer op → Program S α}
    {calls : List (Call S)} {a : α} :
    (ask op next).Runs calls a ↔ ∃ x rest, calls = ⟨op, some x⟩ :: rest ∧ (next x).Runs rest a := by
  constructor
  · intro h
    cases h with
    | ask x h => exact ⟨x, _, rfl, h⟩
  · rintro ⟨x, rest, rfl, h⟩
    exact .ask x h

@[simp] theorem breaks_ask_iff {op : S.Op} {next : S.Answer op → Program S α}
    {calls : List (Call S)} :
    (ask op next).Breaks calls ↔
      calls = [⟨op, none⟩] ∨ ∃ x rest, calls = ⟨op, some x⟩ :: rest ∧ (next x).Breaks rest := by
  constructor
  · intro h
    cases h with
    | pending => exact .inl rfl
    | ask x h => exact .inr ⟨x, _, rfl, h⟩
  · rintro (rfl | ⟨x, rest, rfl, h⟩)
    · exact .pending op next
    · exact .ask x h

/-- A program that makes no calls is done. -/
theorem Runs.eq_done {p : Program S α} {a : α} (h : p.Runs [] a) : p = .done a := by
  cases h
  rfl

/-- A program can be followed by anything that comes to the same with each of its results. -/
theorem bind_congr_of_runs {p : Program S α} {f g : α → Program S β}
    (h : ∀ calls a, p.Runs calls a → f a = g a) : p.bind f = p.bind g := by
  induction p with
  | done a => exact h [] a (.done a)
  | ask op next ih =>
    exact congrArg (ask op) (funext fun x => ih x fun calls a hr => h _ a (.ask x hr))

/-- A run of a program and of what follows it is made up of a run of either. -/
theorem runs_bind_iff {p : Program S α} {f : α → Program S β} {calls : List (Call S)} {b : β} :
    (p.bind f).Runs calls b ↔
      ∃ first a rest, calls = first ++ rest ∧ p.Runs first a ∧ (f a).Runs rest b := by
  induction p generalizing calls with
  | done a =>
    constructor
    · intro h
      exact ⟨[], a, calls, rfl, .done a, h⟩
    · rintro ⟨_, _, rest, rfl, hp, hf⟩
      cases hp
      exact hf
  | ask op next ih =>
    simp only [ask_bind, runs_ask_iff, ih]
    constructor
    · rintro ⟨x, _, rfl, first, a, rest, rfl, hp, hf⟩
      exact ⟨⟨op, some x⟩ :: first, a, rest, rfl, ⟨x, first, rfl, hp⟩, hf⟩
    · rintro ⟨_, a, rest, rfl, ⟨x, first, rfl, hp⟩, hf⟩
      exact ⟨x, first ++ rest, rfl, first, a, rest, rfl, hp, hf⟩

/-- What is done with the result alone makes no calls. -/
theorem runs_bind_done_iff {p : Program S α} {f : α → β} {calls : List (Call S)} {b : β} :
    (p.bind fun a => done (f a)).Runs calls b ↔ ∃ a, p.Runs calls a ∧ b = f a := by
  rw [runs_bind_iff]
  constructor
  · rintro ⟨first, a, _, rfl, hp, hd⟩
    obtain ⟨rfl, rfl⟩ := runs_done_iff.mp hd
    rw [List.append_nil]
    exact ⟨a, hp, rfl⟩
  · rintro ⟨a, hp, rfl⟩
    exact ⟨calls, a, [], (List.append_nil calls).symm, hp, .done (f a)⟩

/-- A program with another one behind it is given up in the one or in the other. -/
theorem breaks_bind_iff {p : Program S α} {f : α → Program S β} {calls : List (Call S)} :
    (p.bind f).Breaks calls ↔
      p.Breaks calls ∨
        ∃ first a rest, calls = first ++ rest ∧ p.Runs first a ∧ (f a).Breaks rest := by
  induction p generalizing calls with
  | done a =>
    constructor
    · intro h
      exact .inr ⟨[], a, calls, rfl, .done a, h⟩
    · rintro (hp | ⟨_, _, rest, rfl, hp, hf⟩)
      · cases hp
      · cases hp
        exact hf
  | ask op next ih =>
    simp only [ask_bind, breaks_ask_iff, runs_ask_iff, ih]
    constructor
    · rintro (rfl | ⟨x, _, rfl, hp | ⟨first, a, rest, rfl, hp, hf⟩⟩)
      · exact .inl (.inl rfl)
      · exact .inl (.inr ⟨x, _, rfl, hp⟩)
      · exact .inr ⟨⟨op, some x⟩ :: first, a, rest, rfl, ⟨x, first, rfl, hp⟩, hf⟩
    · rintro ((rfl | ⟨x, rest, rfl, hp⟩) | ⟨_, a, rest, rfl, ⟨x, first, rfl, hp⟩, hf⟩)
      · exact .inl rfl
      · exact .inr ⟨x, rest, rfl, .inl hp⟩
      · exact .inr ⟨x, first ++ rest, rfl, .inr ⟨first, a, rest, rfl, hp, hf⟩⟩

@[simp] theorem runs_perform_bind_iff {op : S.Op} {f : S.Answer op → Program S β}
    {calls : List (Call S)} {b : β} :
    ((perform op).bind f).Runs calls b ↔
      ∃ x rest, calls = ⟨op, some x⟩ :: rest ∧ (f x).Runs rest b := by
  simp [perform]

/-! ## What a program asks for -/

/-- Whatever the answers are, the program asks only for operations of this kind. -/
def Uses (P : S.Op → Prop) : Program S α → Prop
  | done _ => True
  | ask op next => P op ∧ ∀ x, (next x).Uses P

@[simp] theorem uses_perform {P : S.Op → Prop} {op : S.Op} : (perform op).Uses P ↔ P op := by
  simp [perform, Uses]

theorem Uses.bind {P : S.Op → Prop} {p : Program S α} {f : α → Program S β} (hp : p.Uses P)
    (hf : ∀ a, (f a).Uses P) : (p.bind f).Uses P := by
  induction p with
  | done a => exact hf a
  | ask op next ih => exact ⟨hp.1, fun x => ih x (hp.2 x)⟩

theorem Uses.mono {P Q : S.Op → Prop} {p : Program S α} (hp : p.Uses P) (h : ∀ op, P op → Q op) :
    p.Uses Q := by
  induction p with
  | done a => trivial
  | ask op next ih => exact ⟨h op hp.1, fun x => ih x (hp.2 x)⟩

theorem uses_true (p : Program S α) : p.Uses fun _ => True := by
  induction p with
  | done a => trivial
  | ask op next ih => exact ⟨trivial, ih⟩

theorem Uses.interpret {P : S.Op → Prop} {Q : T.Op → Prop} {p : Program S α}
    {f : (op : S.Op) → Program T (S.Answer op)} (hp : p.Uses P) (hf : ∀ op, P op → (f op).Uses Q) :
    (p.interpret f).Uses Q := by
  induction p with
  | done a => trivial
  | ask op next ih => exact (hf op hp.1).bind fun x => ih x (hp.2 x)

theorem Uses.of_runs {P : S.Op → Prop} {p : Program S α} (hp : p.Uses P) {calls : List (Call S)}
    {a : α} (h : p.Runs calls a) : ∀ call ∈ calls, P call.1 := by
  induction h with
  | done a => simp
  | ask x _ ih => exact List.forall_mem_cons.mpr ⟨hp.1, ih (hp.2 x)⟩

theorem Uses.of_breaks {P : S.Op → Prop} {p : Program S α} (hp : p.Uses P) {calls : List (Call S)}
    (h : p.Breaks calls) : ∀ call ∈ calls, P call.1 := by
  induction h with
  | pending op next => simpa using hp.1
  | ask x _ ih => exact List.forall_mem_cons.mpr ⟨hp.1, ih (hp.2 x)⟩

/-! ## Behaviours -/

/-- What answers the calls of a program. An answer may depend on all calls before it. -/
abbrev Behaviour (S : Signature) : Type := List (Call S) → (op : S.Op) → S.Answer op

/-- After the calls of the past, the answers in these calls are those of the behaviour. -/
def Behaviour.Gives (σ : Behaviour S) : List (Call S) → List (Call S) → Prop
  | _, [] => True
  | past, call :: rest =>
    (∀ x ∈ call.2, x = σ past call.1) ∧ σ.Gives (past ++ [call]) rest

theorem Behaviour.gives_append {σ : Behaviour S} {past first rest : List (Call S)} :
    σ.Gives past (first ++ rest) ↔ σ.Gives past first ∧ σ.Gives (past ++ first) rest := by
  induction first generalizing past with
  | nil => simp [Gives]
  | cons call first ih => simp [Gives, ih, and_assoc]

/-- An answer that a behaviour gives is its answer after some calls. -/
theorem Behaviour.Gives.exists_eq {σ : Behaviour S} {past calls : List (Call S)} {op : S.Op}
    {x : S.Answer op} (h : σ.Gives past calls) (hm : ⟨op, some x⟩ ∈ calls) :
    ∃ before, x = σ before op := by
  induction calls generalizing past with
  | nil => cases hm
  | cons call calls ih =>
    rcases List.mem_cons.mp hm with rfl | later
    · exact ⟨past, h.1 x rfl⟩
    · exact ih h.2 later

/-- A program is done with the answers of any behaviour. -/
theorem exists_runs (σ : Behaviour S) (past : List (Call S)) (p : Program S α) :
    ∃ calls a, p.Runs calls a ∧ σ.Gives past calls := by
  induction p generalizing past with
  | done a => exact ⟨[], a, .done a, trivial⟩
  | ask op next ih =>
    obtain ⟨calls, a, hr, hg⟩ := ih (σ past op) (past ++ [⟨op, some (σ past op)⟩])
    refine ⟨⟨op, some (σ past op)⟩ :: calls, a, .ask _ hr, ?_, hg⟩
    intro x hx
    exact (Option.some.inj hx).symm

/-- With the answers of any behaviour, a program is done within any number of calls, or it can be
given up in the next one. -/
theorem exists_runs_or_breaks (σ : Behaviour S) (past : List (Call S)) (n : Nat)
    (p : Program S α) :
    (∃ calls a, p.Runs calls a ∧ σ.Gives past calls ∧ calls.length ≤ n) ∨
      ∃ calls, p.Breaks calls ∧ σ.Gives past calls ∧ calls.length = n + 1 := by
  induction p generalizing past n with
  | done a => exact .inl ⟨[], a, .done a, trivial, Nat.zero_le n⟩
  | ask op next ih =>
    cases n with
    | zero => exact .inr ⟨[⟨op, none⟩], .pending op next, ⟨nofun, trivial⟩, rfl⟩
    | succ n =>
      have hx : ∀ x ∈ some (σ past op), x = σ past op := fun x hx => (Option.some.inj hx).symm
      rcases ih (σ past op) (past ++ [⟨op, some (σ past op)⟩]) n with
        ⟨calls, a, hr, hg, hl⟩ | ⟨calls, hb, hg, hl⟩
      · exact .inl ⟨_, a, .ask _ hr, ⟨hx, hg⟩, Nat.succ_le_succ hl⟩
      · exact .inr ⟨_, .ask _ hb, ⟨hx, hg⟩, congrArg Nat.succ hl⟩

/-- What was given up waiting for an answer can be answered, and the program is done. -/
theorem Breaks.exists_runs (σ : Behaviour S) {p : Program S α} {calls : List (Call S)} {op : S.Op}
    (h : p.Breaks (calls ++ [⟨op, none⟩])) :
    ∃ x rest a, p.Runs (calls ++ ⟨op, some x⟩ :: rest) a := by
  generalize hs : calls ++ [⟨op, none⟩] = all at h
  induction h generalizing calls with
  | pending other next =>
    obtain ⟨rfl, hlast⟩ := List.append_inj' (hs.trans (List.nil_append _).symm) rfl
    cases hlast
    obtain ⟨rest, a, hr, -⟩ := Program.exists_runs σ [] (next (σ [] op))
    exact ⟨σ [] op, rest, a, .ask _ hr⟩
  | ask x h ih =>
    cases calls with
    | nil => cases hs
    | cons first calls =>
      obtain ⟨rfl, rfl⟩ := List.cons.inj hs
      obtain ⟨y, rest, a, hr⟩ := ih rfl
      exact ⟨y, rest, a, .ask x hr⟩

/-- All calls of a finished run are answered. -/
theorem Runs.isSome_of_mem {p : Program S α} {calls : List (Call S)} {a : α}
    (h : p.Runs calls a) : ∀ call ∈ calls, call.2.isSome := by
  induction h with
  | done a => simp
  | ask x _ ih => exact List.forall_mem_cons.mpr ⟨rfl, ih⟩

/-- A program is given up in a call that is not answered. -/
theorem Breaks.eq_append {p : Program S α} {calls : List (Call S)} (h : p.Breaks calls) :
    ∃ made op, calls = made ++ [⟨op, none⟩] := by
  induction h with
  | pending op next => exact ⟨[], op, rfl⟩
  | ask x _ ih =>
    obtain ⟨made, op, rfl⟩ := ih
    exact ⟨_ :: made, op, rfl⟩

theorem Breaks.ne_nil {p : Program S α} {calls : List (Call S)} (h : p.Breaks calls) :
    calls ≠ [] := by
  cases h <;> exact List.cons_ne_nil _ _

/-- All calls but the last one are answered before a program is given up. -/
theorem Breaks.isSome_of_mem_dropLast {p : Program S α} {calls : List (Call S)}
    (h : p.Breaks calls) : ∀ call ∈ calls.dropLast, call.2.isSome := by
  induction h with
  | pending op next => simp
  | ask x h ih =>
    rw [List.dropLast_cons_of_ne_nil h.ne_nil]
    exact List.forall_mem_cons.mpr ⟨rfl, ih⟩

/-! ## What is left of a program -/

/-- After these calls, this is left of the program. -/
inductive Leaves : Program S α → List (Call S) → Program S α → Prop
  | nil (p : Program S α) : Leaves p [] p
  | ask {op : S.Op} {next : S.Answer op → Program S α} {calls : List (Call S)} {q : Program S α}
      (x : S.Answer op) : Leaves (next x) calls q → Leaves (ask op next) (⟨op, some x⟩ :: calls) q

/-- A program goes on with what is left of it. -/
theorem Leaves.runs {p q : Program S α} {first rest : List (Call S)} {a : α}
    (h : p.Leaves first q) (hr : q.Runs rest a) : p.Runs (first ++ rest) a := by
  induction h with
  | nil p => exact hr
  | ask x _ ih => exact .ask x (ih hr)

theorem Leaves.breaks {p q : Program S α} {first rest : List (Call S)}
    (h : p.Leaves first q) (hb : q.Breaks rest) : p.Breaks (first ++ rest) := by
  induction h with
  | nil p => exact hb
  | ask x _ ih => exact .ask x (ih hb)

theorem Runs.exists_leaves {p : Program S α} {first rest : List (Call S)} {a : α}
    (h : p.Runs (first ++ rest) a) : ∃ q, p.Leaves first q := by
  induction first generalizing p with
  | nil => exact ⟨p, .nil p⟩
  | cons call first ih =>
    cases h with
    | ask x h =>
      obtain ⟨q, hq⟩ := ih h
      exact ⟨q, .ask x hq⟩

/-- What is given up later is not yet given up before. -/
theorem Breaks.exists_leaves {p : Program S α} {first rest : List (Call S)}
    (h : p.Breaks (first ++ rest)) (hr : rest ≠ []) : ∃ q, p.Leaves first q := by
  induction first generalizing p with
  | nil => exact ⟨p, .nil p⟩
  | cons call first ih =>
    generalize hc : call :: first ++ rest = calls at h
    cases h with
    | pending op next =>
      have short : first ++ rest = [] := (List.cons.inj hc).2
      exact absurd (List.append_eq_nil_iff.mp short).2 hr
    | ask x h =>
      obtain ⟨rfl, rfl⟩ := List.cons.inj hc
      obtain ⟨q, hq⟩ := ih h
      exact ⟨q, .ask x hq⟩

end GattSync.Program
