import MolecularTools.Failure

/-! Tasks: work on a state that may fail. What a failed task did to the state stays done. -/
namespace MolecularTools

/-- Work on a state `σ` with a result in `α`. -/
def Task (σ α : Type) : Type := σ → Except Failure α × σ

namespace Task

variable {σ α β : Type}

def pure (a : α) : Task σ α := fun s => (.ok a, s)

/-- Goes on with `f` only when `t` succeeded. -/
def bind (t : Task σ α) (f : α → Task σ β) : Task σ β := fun s =>
  match t s with
  | (.ok a, s) => f a s
  | (.error e, s) => (.error e, s)

instance : Monad (Task σ) where
  pure := Task.pure
  bind := Task.bind

def fail (e : Failure) : Task σ α := fun s => (.error e, s)

/-- Changes the state and cannot fail. -/
def act (f : σ → σ) : Task σ Unit := fun s => (.ok (), f s)

/-- Looks at the state and cannot fail. -/
def ask (f : σ → α) : Task σ α := fun s => (.ok (f s), s)

def ofExcept : Except Failure α → Task σ α
  | .ok a => Task.pure a
  | .error e => fail e

/-- Puts a context around the failures of `t`. -/
def within (context : String) (t : Task σ α) : Task σ α := fun s =>
  match t s with
  | (.ok a, s) => (.ok a, s)
  | (.error e, s) => (.error (e.within context), s)

/-- Runs `t` and hands its outcome on as a value. -/
def outcome (t : Task σ α) : Task σ (Except Failure α) := fun s =>
  let (r, s) := t s
  (.ok r, s)

@[simp] theorem pure_apply (a : α) (s : σ) : (Pure.pure a : Task σ α) s = (.ok a, s) := rfl

theorem bind_apply (t : Task σ α) (f : α → Task σ β) (s : σ) :
    (t >>= f) s = match t s with
      | (.ok a, s) => f a s
      | (.error e, s) => (.error e, s) := rfl

@[simp] theorem fail_apply (e : Failure) (s : σ) : (fail e : Task σ α) s = (.error e, s) := rfl

@[simp] theorem act_apply (f : σ → σ) (s : σ) : act f s = (.ok (), f s) := rfl

@[simp] theorem ask_apply (f : σ → α) (s : σ) : ask f s = (.ok (f s), s) := rfl

end Task

end MolecularTools
