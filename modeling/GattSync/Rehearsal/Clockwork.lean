import GattSync.Program
import GattSync.Time.Duration

/-!
# Clockwork

Runs programs side by side on a virtual clock. They share a world, of type `W`, which they look at
and change. Computing takes no time. A program has its turn until it has to wait, and then the first
other one that can go on has one. A program can also end its turn to let the others go on first, and
it can rouse a task, which then has a turn even if what it waits for has not come. When all of them
wait, the clock jumps to the next moment at which one of them is due.

There is one main program, which ends the run, and there are tasks, which carry out jobs of a type
`J`, each job naming the next. A job can have a deadline, at which another job takes its place if it
still waits.
-/

namespace GattSync.Rehearsal

/-- An operation of a program on the virtual clock. -/
inductive Clockwork.Effect (W J : Type) where
  | look
  | change (f : W → W)
  | now
  /-- Waits until the world is as wanted, and says so, or until a deadline. -/
  | wait (deadline : Option Duration) (ready : W → Bool)
  | spawn (job : J)
  | abort (task : Nat)
  /-- The number of turns that the task has had, the one it is in included. The main program has
  none. -/
  | turn
  /-- Lets all others that can go on do so first. -/
  | pass
  | rouse (task : Nat)

def Clockwork.Effect.Answer {W J : Type} : Clockwork.Effect W J → Type
  | .look => W
  | .now => Duration
  | .wait _ _ => Bool
  | .spawn _ => Nat
  | .turn => Nat
  | _ => Unit

abbrev Clockwork.effects (W J : Type) : Signature :=
  ⟨Clockwork.Effect W J, Clockwork.Effect.Answer⟩

/-- How the jobs of a rehearsal are carried out. -/
structure Clockwork (W J : Type) where
  /-- The program of a job, for the task with this number. Its result is the next job. -/
  program : Nat → J → Program (Clockwork.effects W J) (Option J)
  /-- The deadline of a job, and the job that takes its place. -/
  expiry? : J → Option (Duration × J)

namespace Clockwork

variable {W J α : Type}

/-! ## Operations -/

def look : Program (effects W J) W := .perform (S := effects W J) .look

def change (f : W → W) : Program (effects W J) Unit := .perform (S := effects W J) (.change f)

def now : Program (effects W J) Duration := .perform (S := effects W J) .now

def await (ready : W → Bool) : Program (effects W J) Unit := do
  let _ ← Program.perform (S := effects W J) (.wait none ready)

/-- Waits until the world is as wanted, and says so, or until a deadline. -/
def awaitUntil (deadline : Duration) (ready : W → Bool) : Program (effects W J) Bool :=
  .perform (S := effects W J) (.wait (some deadline) ready)

def sleepUntil (moment : Duration) : Program (effects W J) Unit := do
  let _ ← awaitUntil moment fun _ => false

/-- The moment at which a wait for this time is over. -/
def after (time : Duration) : Program (effects W J) Duration := do
  return (← now) + time.capped

def sleep (time : Duration) : Program (effects W J) Unit := do
  sleepUntil (← after time)

def stall : Program (effects W J) Unit := await fun _ => false

def spawn (job : J) : Program (effects W J) Nat := .perform (S := effects W J) (.spawn job)

def abort (task : Nat) : Program (effects W J) Unit := .perform (S := effects W J) (.abort task)

def turn : Program (effects W J) Nat := .perform (S := effects W J) .turn

def pass : Program (effects W J) Unit := .perform (S := effects W J) .pass

def rouse (task : Nat) : Program (effects W J) Unit := .perform (S := effects W J) (.rouse task)

/-! ## Running -/

/-- A task: its number, the job it carries out, how many turns it has had, and what is left of the
job's program once it has begun. -/
structure Task (W J : Type) where
  number : Nat
  job : J
  turns : Nat := 0
  rest : Option (Program (effects W J) (Option J)) := none

structure State (W J : Type) where
  world : W
  now : Duration := .zero
  /-- In order of their start, but one that was roused in its own turn comes last. -/
  tasks : List (Task W J) := []
  /-- The tasks that have been roused since their last turn began. -/
  roused : List Nat := []
  spawned : Nat := 0

def isPast (now : Duration) : Option Duration → Bool
  | some deadline => deadline ≤ now
  | none => false

/-- Runs a program until it has to wait or lets the others go first; the result is what is left of
it. -/
def advance (turns : Nat) (s : State W J) :
    Program (effects W J) α → State W J × Program (effects W J) α
  | .done a => (s, .done a)
  | .ask .look next => advance turns s (next s.world)
  | .ask (.change f) next => advance turns { s with world := f s.world } (next ())
  | .ask .now next => advance turns s (next s.now)
  | .ask .turn next => advance turns s (next turns)
  | .ask .pass next => (s, .ask .pass next)
  | .ask (.rouse task) next => advance turns { s with roused := task :: s.roused } (next ())
  | .ask (.wait deadline ready) next =>
    if ready s.world then advance turns s (next true)
    else if isPast s.now deadline then advance turns s (next false)
    else (s, .ask (.wait deadline ready) next)
  | .ask (.spawn job) next =>
    advance turns
      { s with tasks := s.tasks ++ [{ number := s.spawned, job }], spawned := s.spawned + 1 }
      (next s.spawned)
  | .ask (.abort task) next =>
    advance turns { s with tasks := s.tasks.filter fun t => t.number != task } (next ())

/-- How a program goes on that has let the others go first. -/
def passed? : Program (effects W J) α → Option (Program (effects W J) α)
  | .ask .pass next => some (next ())
  | _ => none

/-- A program that has to wait as things are. -/
def isWaiting (s : State W J) : Program (effects W J) α → Bool
  | .ask (.wait deadline ready) _ => !(ready s.world || isPast s.now deadline)
  | _ => false

/-- A task that can go on or has been roused. -/
def Task.isReady (s : State W J) (t : Task W J) : Bool :=
  s.roused.contains t.number ||
    match t.rest with
    | some p => !isWaiting s p
    | none => true

def State.replace (s : State W J) (t : Task W J) : State W J :=
  { s with tasks := s.tasks.map fun u => if u.number = t.number then t else u }

/-- The state after a task has ended its turn. One that has been roused in it comes last. -/
def State.endTurn (s : State W J) (t : Task W J) : State W J :=
  if s.roused.contains t.number then
    { s with tasks := (s.tasks.filter fun u => u.number != t.number) ++ [t] }
  else s.replace t

/-- Lets a task carry out jobs until its turn is over. A task that lets the others go first has been
roused. -/
def carry (c : Clockwork W J) : (budget : Nat) → State W J → Task W J → State W J
  | 0, s, t => s.replace t
  | budget + 1, s, t =>
    let (s, p) := advance t.turns s (t.rest.getD (c.program t.number t.job))
    match p with
    | .done none => { s with tasks := s.tasks.filter fun u => u.number != t.number }
    | .done (some job) => carry c budget s { t with job, rest := none }
    | p =>
      match passed? p with
      | some p => { s with roused := t.number :: s.roused }.endTurn { t with rest := some p }
      | none => s.endTurn { t with rest := some p }

def giveTurn (c : Clockwork W J) (budget : Nat) (s : State W J) (t : Task W J) : State W J :=
  carry c budget { s with roused := s.roused.filter (· != t.number) }
    { t with turns := t.turns + 1 }

/-- The deadline for which a program waits. -/
def deadline? : Program (effects W J) α → Option Duration
  | .ask (.wait deadline _) _ => deadline
  | _ => none

/-- The first task whose job has expired, with the job that takes its place. -/
def expired? (c : Clockwork W J) (s : State W J) : Option (Task W J) :=
  s.tasks.findSome? fun t =>
    match c.expiry? t.job with
    | some (deadline, job) => if deadline ≤ s.now then some { t with job, rest := none } else none
    | none => none

/-- The deadlines of the main program, the tasks and their jobs. -/
def deadlines (c : Clockwork W J) (s : State W J) (main : Program (effects W J) α) :
    List Duration :=
  (deadline? main).toList ++ s.tasks.flatMap fun t =>
    (t.rest.bind deadline?).toList ++ ((c.expiry? t.job).map (·.1)).toList

/-- The next moment at which something is due. -/
def nextMoment? (c : Clockwork W J) (s : State W J) (main : Program (effects W J) α) :
    Option Duration :=
  (deadlines c s main).foldl
    (fun best d =>
      match best with
      | some b => if d < b then some d else best
      | none => some d)
    none

/-- The most jobs that one run carries out. -/
def allowance : Nat := 1000000000

/-- Runs the main program until it is done. There is no result if nothing is due any more, or not
before the horizon, at which the clock then stops. -/
def runFor (c : Clockwork W J) (horizon : Option Duration) :
    (budget : Nat) → State W J → Program (effects W J) α → State W J × Option α
  | 0, s, _ => (s, none)
  | budget + 1, s, main =>
    let (s, main) := advance 0 s main
    match main with
    | .done a => (s, some a)
    | main =>
      match s.tasks.find? (·.isReady s) with
      | some t => runFor c horizon budget (giveTurn c allowance s t) main
      | none =>
        match passed? main, expired? c s with
        | some main, _ => runFor c horizon budget s main
        | none, some t => runFor c horizon budget (s.replace t) main
        | none, none =>
          match nextMoment? c s main, horizon with
          | some moment, none => runFor c horizon budget { s with now := moment } main
          | some moment, some last =>
            if moment ≤ last then runFor c horizon budget { s with now := moment } main
            else ({ s with now := last }, none)
          | none, some last => ({ s with now := last }, none)
          | none, none => (s, none)

def run (c : Clockwork W J) (s : State W J) (main : Program (effects W J) α) :
    State W J × Option α :=
  runFor c none allowance s main

def settle (c : Clockwork W J) (s : State W J) (moment : Duration) : State W J :=
  (runFor c (some moment) allowance s stall).1

end Clockwork
end GattSync.Rehearsal
