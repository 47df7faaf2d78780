import PartitionUnits.Proofs.FileSystem.Script

/-!
# Scripts side by side

Several scripts run on one tree and take their steps in turns, in whatever order.

## Main Definitions

* `Script.advance` — a script takes its next step
* `System` — scripts and the tree that they share
* `System.turn`, `System.run` — a script's turn, and a schedule of turns
* `System.result?` — what a script has returned
* `System.run_undisturbed` — a script that nobody disturbs ends as if it ran alone

## Design Notes

A schedule lists whose turn it is, and every list of numbers is one: the turn of a script that has
returned, or that there is none of, changes nothing.  So what is said of all schedules is said of
all interleavings, whether they are fair or not, and of all the moments on the way.
-/

namespace PartitionUnits

variable {α : Type} {t : Tree}

namespace Script

/-- Take the next step of a script, if there is one. -/
def advance : Script α → Tree → Script α × Tree
  | done a, t => (done a, t)
  | step c next, t => (next (t.apply c).1, (t.apply c).2)

/-- What a script has returned. -/
def value? : Script α → Option α
  | done a => some a
  | step .. => none

theorem value?_eq_some {s : Script α} {a : α} : s.value? = some a ↔ s = done a := by
  cases s <;> simp [value?]

end Script

/-- **Scripts that share a tree**, each as far as it has come. -/
structure System (α : Type) where
  tree : Tree
  scripts : List (Script α)

namespace System

variable {s : System α} {i : Nat} {script : Script α} {a : α}

/-- The next step of one of the scripts. -/
def turn (s : System α) (i : Nat) : System α :=
  match s.scripts[i]? with
  | none => s
  | some script =>
    { tree := (script.advance s.tree).2, scripts := s.scripts.set i (script.advance s.tree).1 }

/-- **The scripts take turns.** -/
def run (s : System α) (schedule : List Nat) : System α := schedule.foldl turn s

/-- What a script has returned, if it has. -/
def result? (s : System α) (i : Nat) : Option α := s.scripts[i]?.bind Script.value?

theorem run_cons (schedule : List Nat) : s.run (i :: schedule) = (s.turn i).run schedule :=
  rfl

theorem result?_eq_some : s.result? i = some a ↔ s.scripts[i]? = some (.done a) := by
  rw [result?, Option.bind_eq_some_iff]
  simp only [Script.value?_eq_some, exists_eq_right]

theorem turn_of_none (h : s.scripts[i]? = none) : s.turn i = s := by
  rw [turn, h]

theorem turn_of_some (h : s.scripts[i]? = some script) : s.turn i =
    { tree := (script.advance s.tree).2
      scripts := s.scripts.set i (script.advance s.tree).1 } := by
  rw [turn, h]

theorem length_scripts_turn : (s.turn i).scripts.length = s.scripts.length := by
  unfold turn
  split
  · rfl
  · exact List.length_set

theorem length_scripts_run (schedule : List Nat) :
    (s.run schedule).scripts.length = s.scripts.length := by
  induction schedule generalizing s with
  | nil => rfl
  | cons i rest ih => rw [run_cons, ih, length_scripts_turn]

/-- **A script that nobody disturbs** ends as if it ran alone. -/
theorem run_undisturbed (h : s.scripts[i]? = some script) : ∃ n, s.run (List.replicate n i) =
    { tree := (script.run s.tree).2
      scripts := s.scripts.set i (.done (script.run s.tree).1) } := by
  induction script generalizing s with
  | done a =>
      obtain ⟨_, hget⟩ := List.getElem?_eq_some_iff.mp h
      refine ⟨0, ?_⟩
      show s = { tree := s.tree, scripts := s.scripts.set i (.done a) }
      rw [← hget, List.set_getElem_self]
  | step c next ih =>
      have hnext : (s.turn i).scripts[i]? = some (next (s.tree.apply c).1) := by
        rw [turn_of_some h]
        exact List.getElem?_set_self (List.getElem?_eq_some_iff.mp h).1
      obtain ⟨n, hn⟩ := ih _ hnext
      refine ⟨n + 1, ?_⟩
      rw [List.replicate_succ, run_cons, hn, turn_of_some h]
      simp only [Script.advance, Script.run_step, List.set_set]

end System

end PartitionUnits
