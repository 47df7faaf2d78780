/-!
# Log events

Every decision leaves events behind.  A computation that does so is a value together with the
events in the order they happened.

## Main Definitions

* `Level`, `Origin`, `Event` — one event
* `Traced` — a value and the events on the way to it

## Design Notes

Events are plain data that is collected, never an effect, so that two computations can be compared
with their logs or without.
-/

namespace PartitionUnits

/-- How much an event matters. -/
inductive Level where
  | debug
  | info
  | warning
  | error
deriving DecidableEq, Repr

/-- The name of a level in the log. -/
def Level.label : Level → String
  | debug => "DEBUG"
  | info => "INFO"
  | warning => "WARN"
  | error => "ERROR"

/-- The part of the program that an event comes from. -/
inductive Origin where
  | program
  | settings
  | election
  | mountPlan
  | unlock
  | check
  | occupancy
  | pass
  | submission
  | host
  | signature
  | deviceTree
deriving DecidableEq, Repr

/-- One event of the log. -/
structure Event where
  level : Level
  origin : Origin
  message : String
deriving DecidableEq, Repr

/-- The event as a line of the log. -/
def Event.line (e : Event) : String := e.level.label ++ " " ++ e.message

/-- A value and the events on the way to it. -/
structure Traced (α : Type) where
  value : α
  events : List Event := []
deriving Repr

namespace Traced

instance : Monad Traced where
  pure a := { value := a }
  bind t f := { value := (f t.value).value, events := t.events ++ (f t.value).events }

@[simp] theorem value_pure {α : Type} (a : α) : (pure a : Traced α).value = a := rfl

@[simp] theorem events_pure {α : Type} (a : α) : (pure a : Traced α).events = [] := rfl

@[simp] theorem value_bind {α β : Type} (t : Traced α) (f : α → Traced β) :
    (t >>= f).value = (f t.value).value := rfl

@[simp] theorem events_bind {α β : Type} (t : Traced α) (f : α → Traced β) :
    (t >>= f).events = t.events ++ (f t.value).events := rfl

/-- A step that leaves one event. -/
def log (level : Level) (origin : Origin) (message : String) : Traced Unit :=
  { value := (), events := [⟨level, origin, message⟩] }

/-- A step that leaves the given events. -/
def report (events : List Event) : Traced Unit := { value := (), events }

end Traced

end PartitionUnits
