/-!
# Programs

A program is a tree of operations: it is done, or it asks for one operation and goes on with the
answer. It says nothing about who answers, or when. The same program can therefore run on a real
device, in a rehearsal, or against answers chosen by a theorem, and a program over one set of
operations is carried over to another one by saying what each operation stands for.
-/

namespace GattSync

/-- The operations of one kind of program, and what each is answered with. -/
structure Signature where
  Op : Type
  Answer : Op → Type

/-- A program over a signature, with a result of type `α`. -/
inductive Program (S : Signature) (α : Type) : Type where
  | done (a : α)
  | ask (op : S.Op) (next : S.Answer op → Program S α)

namespace Program

variable {S T : Signature} {α β : Type}

/-- Runs a program and goes on with its result. -/
def bind : Program S α → (α → Program S β) → Program S β
  | done a, f => f a
  | ask op next, f => ask op fun answer => (next answer).bind f

instance : Monad (Program S) where
  pure := done
  bind := bind

/-- Asks for one operation. -/
def perform (op : S.Op) : Program S (S.Answer op) := ask op done

/-- The program with a program in the place of each operation. -/
def interpret (f : (op : S.Op) → Program T (S.Answer op)) : Program S α → Program T α
  | done a => done a
  | ask op next => (f op).bind fun answer => (next answer).interpret f

@[simp] theorem pure_eq (a : α) : (pure a : Program S α) = done a := rfl

@[simp] theorem bind_eq (p : Program S α) (f : α → Program S β) : p >>= f = p.bind f := rfl

@[simp] theorem done_bind (a : α) (f : α → Program S β) : (done a).bind f = f a := rfl

@[simp] theorem ask_bind (op : S.Op) (next : S.Answer op → Program S α) (f : α → Program S β) :
    (ask op next).bind f = ask op fun answer => (next answer).bind f := rfl

@[simp] theorem bind_done (p : Program S α) : p.bind done = p := by
  induction p with
  | done a => rfl
  | ask op next ih => exact congrArg (ask op) (funext ih)

theorem bind_assoc {γ : Type} (p : Program S α) (f : α → Program S β) (g : β → Program S γ) :
    (p.bind f).bind g = p.bind fun a => (f a).bind g := by
  induction p with
  | done a => rfl
  | ask op next ih => exact congrArg (ask op) (funext ih)

instance : LawfulMonad (Program S) :=
  LawfulMonad.mk' (Program S) bind_done (fun _ _ => rfl) bind_assoc

end Program
end GattSync
