import PartitionUnits.FileSystem.Change

/-!
# Scripts

A script is a sequence of steps on the file system in which later steps may depend on the answers
to earlier ones.

## Main Definitions

* `Script` — a script with a final value
* `Script.run` — the value, and the tree at the end
* `Script.states` — the trees on the way

## Design Notes

A script is data, so that what it does can be cut between any two steps: `states` lists what an
interruption would leave, and several scripts can be interleaved step by step.
-/

namespace PartitionUnits

/-- Steps on the file system, each depending on the answers so far, and a value at the end. -/
inductive Script (α : Type) where
  | done (value : α)
  | step (change : Change) (next : Except FileError Path → Script α)

namespace Script

/-- Go on with the value at the end of a script. -/
def bind {α β : Type} : Script α → (α → Script β) → Script β
  | done a, f => f a
  | step c next, f => step c fun answer => (next answer).bind f

instance : Monad Script where
  pure := done
  bind := bind

/-- A script of one step, with its answer. -/
def perform (c : Change) : Script (Except FileError Path) := step c done

/-- The value at the end of a script, and the tree there. -/
def run {α : Type} : Script α → Tree → α × Tree
  | done a, t => (a, t)
  | step c next, t => (next (t.apply c).1).run (t.apply c).2

/-- The trees before, between and after the steps of a script. -/
def states {α : Type} : Script α → Tree → List Tree
  | done _, t => [t]
  | step c next, t => t :: (next (t.apply c).1).states (t.apply c).2

@[simp] theorem run_done {α : Type} (a : α) (t : Tree) : (done a).run t = (a, t) := rfl

@[simp] theorem run_step {α : Type} (c : Change) (next : Except FileError Path → Script α)
    (t : Tree) : (step c next).run t = (next (t.apply c).1).run (t.apply c).2 := rfl

/-- Running a script and then another is running both after each other. -/
theorem run_bind {α β : Type} (s : Script α) (f : α → Script β) (t : Tree) :
    (s >>= f).run t = (f (s.run t).1).run (s.run t).2 := by
  induction s generalizing t with
  | done a => rfl
  | step c next ih => exact ih _ _

end Script

end PartitionUnits
