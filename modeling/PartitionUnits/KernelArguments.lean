import PartitionUnits.Text.Blank

/-!
# The kernel command line

The arguments of the kernel are words of the form `key` or `key=value`.

## Main Definitions

* `KernelArgument` — one argument
* `KernelArgument.split` — the arguments of a command line, in order
* `parseSwitch?` — the words for on and off

## Design Notes

A quote of either kind groups everything up to the next quote of that kind into its word and is
dropped itself; a quote that is never closed groups the rest of the line.  A word exists from its
first character or its first quote on, so that `""` is an empty argument.
-/

namespace PartitionUnits

open Text

/-- One argument of the kernel: `none` for a bare key, an empty text for `key=`. -/
structure KernelArgument where
  key : String
  value : Option String := none
deriving DecidableEq, Repr

/-- The two characters that group. -/
def isQuote (c : Char) : Bool := c = '"' || c = Char.ofNat 0x27

/-- The words of a command line, from inside a quote or not, and with a word begun or not. -/
def argumentWords : Option Char → Option (List Char) → List Char → List (List Char)
  | _, none, [] => []
  | _, some word, [] => [word]
  | some quote, word, c :: cs =>
    if c = quote then argumentWords none word cs
    else argumentWords (some quote) (some (word.getD [] ++ [c])) cs
  | none, word, c :: cs =>
    if isQuote c then argumentWords (some c) (some (word.getD [])) cs
    else if isBlank c then word.toList ++ argumentWords none none cs
    else argumentWords none (some (word.getD [] ++ [c])) cs

/-- A word as an argument: the first equals sign ends the key. -/
def KernelArgument.ofWord (word : List Char) : KernelArgument :=
  match cut? '=' word with
  | some (key, value) => ⟨String.ofList key, some (String.ofList value)⟩
  | none => ⟨String.ofList word, none⟩

/-- The arguments of a command line, in order. -/
def KernelArgument.split (line : String) : List KernelArgument :=
  (argumentWords none none line.toList).map KernelArgument.ofWord

/-- The value of a switch, in any case of ASCII letters. -/
def parseSwitch? (value : String) : Option Bool :=
  let word := String.ofList (value.toList.map Char.toLower)
  if word ∈ ["1", "yes", "y", "true", "t", "on"] then some true
  else if word ∈ ["0", "no", "n", "false", "f", "off"] then some false
  else none

end PartitionUnits
