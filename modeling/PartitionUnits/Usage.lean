import PartitionUnits.Path

/-!
# Usage

The arguments of the program: the three directories that the service manager passes, or none.

## Main Definitions

* `Positional`, `Usage.positionals` — the arguments that the program declares
* `UsageStop`, `UsageError` — why the program ends before it begins
* `ArgumentReader` — reads arguments as they are declared
* `Usage` — the directories that were passed

## Design Notes

The program says which arguments there can be and leaves it to a reader to make out what was given,
to ask for help, and to say with which exit code that ends.  All of the arguments can be left out,
but one of them may require another.
-/

namespace PartitionUnits

open Text

/-- An argument that is told by its place. -/
structure Positional where
  name : String
  /-- The arguments that have to be given if this one is. -/
  requires : List String := []
deriving DecidableEq, Repr

/-- What is wrong with the arguments. -/
inductive UsageError where
  | unknownArgument
  | emptyValue
  | valueForFlag
  | missingArgument
deriving DecidableEq, Repr

/-- Why the program ends before it begins. -/
inductive UsageStop where
  | help
  | version
  | error (e : UsageError)
deriving DecidableEq, Repr

/-- Reads arguments as they are declared. -/
structure ArgumentReader where
  /-- The values of the first arguments that are declared. -/
  read : List Positional → List Octets → Except UsageStop (List Octets)
  /-- The exit code of ending before the beginning. -/
  exitCode : UsageStop → Nat

/-- The directories that were passed. -/
structure Usage where
  normal : Option Path := none
  early : Option Path := none
  late : Option Path := none
deriving DecidableEq, Repr

namespace Usage

/-- The arguments of the program: directories for units that give way to others, for units that
nothing overrides, and for units that everything overrides. -/
def positionals : List Positional := [⟨"normal", ["late"]⟩, ⟨"early", []⟩, ⟨"late", []⟩]

/-- The directories with the given values. -/
def ofValues (values : List Octets) : Usage :=
  { normal := values[0]?.map Path.mk, early := values[1]?.map Path.mk,
    late := values[2]?.map Path.mk }

/-- Where units are written if no directories were passed. -/
def standardDestination : Path := Path.ofText "/tmp"

/-- Where units are written. -/
def destination (u : Usage) : Path := u.late.getD standardDestination

end Usage

end PartitionUnits
