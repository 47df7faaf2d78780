import PartitionUnits.Usage

/-!
# Reading arguments

A reader of arguments that keeps to the usual conventions.

## Main Definitions

* `ArgumentReader.isOption`, `ArgumentReader.optionStop` — arguments that begin with a hyphen
* `ArgumentReader.IsComplete` — whether all required values are there
* `ArgumentReader.conventional` — the reader

## Design Notes

Arguments are read from the left and the first thing that ends the program counts; whether enough
values were given is asked last.  Behind a separator, what begins with a hyphen is a value as well.
-/

namespace PartitionUnits.ArgumentReader

open Text

/-- The octets of an ASCII word. -/
def word (s : String) : Octets := encode s.toList

/-- What an argument that begins with a hyphen asks for. -/
def optionStop (argument : Octets) : UsageStop :=
  if argument = word "--help" then .help
  else if argument = word "--version" then .version
  else if (word "--help=").isPrefixOf argument || (word "--version=").isPrefixOf argument then
    .error .valueForFlag
  else if (word "-h").isPrefixOf argument then .help
  else if (word "-V").isPrefixOf argument then .version
  else .error .unknownArgument

/-- Whether an argument in front of the separator is an option. -/
def isOption (argument : Octets) : Bool :=
  argument.head? = some 0x2D && argument ≠ [0x2D]

/-- All that the given arguments require is among those that are given, which are the first ones of
those that are declared. -/
def IsComplete (declared : List Positional) (given : Nat) : Prop :=
  ∀ p ∈ declared.take given, ∀ name ∈ p.requires, name ∈ (declared.take given).map Positional.name

instance (declared : List Positional) (given : Nat) : Decidable (IsComplete declared given) :=
  inferInstanceAs (Decidable (∀ p ∈ declared.take given, ∀ name ∈ p.requires,
    name ∈ (declared.take given).map Positional.name))

/-- Read arguments, in front of the separator or behind it, onto the values so far. -/
def readFrom (declared : List Positional) :
    Bool → List Octets → List Octets → Except UsageStop (List Octets)
  | _, values, [] =>
    if IsComplete declared values.length then .ok values else .error (.error .missingArgument)
  | behind, values, a :: rest =>
    if !behind && a = word "--" then readFrom declared true values rest
    else if !behind && isOption a then .error (optionStop a)
    else if declared.length ≤ values.length then .error (.error .unknownArgument)
    else if a = [] then .error (.error .emptyValue)
    else readFrom declared behind (values ++ [a]) rest

/-- The conventional reader, which calls wrong arguments a failure and no other stop. -/
def conventional : ArgumentReader where
  read declared arguments := readFrom declared false [] arguments
  exitCode
    | .help | .version => 0
    | .error _ => 2

end PartitionUnits.ArgumentReader
