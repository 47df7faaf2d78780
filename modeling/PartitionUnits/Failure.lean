import PartitionUnits.Log

/-!
# Failures

A failure is what went wrong together with the activities it interrupted.

## Main Definitions

* `Failure` — the activities, outermost first, and the cause at the end
* `Failure.during` — a failure as seen from an enclosing activity
* `Attempt` — a traced computation that may fail

## Design Notes

The causes that this library finds itself are inductive types of the modules that find them, each
with its own wording; a failure holds the wordings, because an answer of the machine may fail with
any text.
-/

namespace PartitionUnits

/-- What went wrong: the activities that were interrupted, outermost first, then the cause. -/
structure Failure where
  trail : List String
deriving DecidableEq, Repr

namespace Failure

/-- A failure with a cause and no enclosing activity. -/
def of (cause : String) : Failure := ⟨[cause]⟩

/-- The failure as seen from an enclosing activity. -/
def during (activity : String) (f : Failure) : Failure := ⟨activity :: f.trail⟩

/-- The activities and the cause on one line. -/
def message (f : Failure) : String := ": ".intercalate f.trail

end Failure

/-- A traced computation that may fail. -/
abbrev Attempt := ExceptT Failure Traced

namespace Attempt

/-- An attempt that leaves no events. -/
def ofExcept {α : Type} (e : Except Failure α) : Attempt α := ExceptT.mk (pure e)

/-- The attempt as seen from an enclosing activity. -/
def during {α : Type} (activity : String) (a : Attempt α) : Attempt α :=
  ExceptT.mk { a.run with value := a.run.value.mapError (·.during activity) }

/-- A step that leaves one event. -/
def log (level : Level) (origin : Origin) (message : String) : Attempt Unit :=
  liftM (Traced.log level origin message)

end Attempt

end PartitionUnits
