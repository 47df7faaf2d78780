import PartitionUnits.Shell.Token
import PartitionUnits.Text.Numeral

/-!
# Commands of scripts

A script is a sequence of simple commands, each with the condition that it runs on.

## Main Definitions

* `Shell.Condition`, `Shell.Redirection`, `Shell.Simple` — one command
* `Shell.commands` — the commands of a script

## Design Notes

Pipes, groups and substitutions are not part of the language here: a script with any of them has no
commands.  A redirection to or from a file only cuts an output or an input off.
-/

namespace PartitionUnits.Shell

open Text

/-- When a command runs, by the status before it. -/
inductive Condition where
  | always
  | onSuccess
  | onFailure
deriving DecidableEq, Repr

/-- Whether a command runs after a status. -/
def Condition.holds : Condition → Nat → Bool
  | always, _ => true
  | onSuccess, status => status = 0
  | onFailure, status => status ≠ 0

/-- A redirection of a descriptor. -/
inductive Redirection where
  /-- To where another descriptor leads. -/
  | duplicate (descriptor source : Nat)
  /-- To a file. -/
  | away (descriptor : Nat)
deriving DecidableEq, Repr

/-- A command: its words and its redirections. -/
structure Simple where
  condition : Condition := .always
  line : Nat := 1
  words : List Word := []
  redirections : List Redirection := []
deriving DecidableEq, Repr

namespace Simple

/-- The command with one more word. -/
def add (s : Simple) (w : Word) : Simple := { s with words := s.words ++ [w] }

/-- Whether a condition was read, but no command after it. -/
def lacksWords (s : Simple) : Bool := s.condition ≠ .always && s.words = []

/-- The command with one more redirection. -/
def redirect (s : Simple) (r : Redirection) : Simple :=
  { s with redirections := s.redirections ++ [r] }

end Simple

/-- The text of a word without parameters. -/
def literalText? : Word → Option (List Char)
  | [] => some []
  | .literal cs _ :: rest => (literalText? rest).map (cs ++ ·)
  | .parameter .. :: _ => none

/-- The number that a word spells. -/
def numberOf? : Word → Option Nat
  | [] => none
  | w => (literalText? w).bind fun cs => (parseNumeral signedBound32 cs).toOption

/-- The commands of a list of tokens, the first of them begun already. -/
def commandsFrom (s : Simple) : List Token → Option (List Simple)
  | [] => if s.lacksWords then none else some [s]
  | .operator '&' :: .operator '&' :: rest =>
    if s.words = [] then none
    else (commandsFrom { condition := .onSuccess, line := s.line } rest).map (s :: ·)
  | .operator '|' :: .operator '|' :: rest =>
    if s.words = [] then none
    else (commandsFrom { condition := .onFailure, line := s.line } rest).map (s :: ·)
  | .operator ';' :: rest => (commandsFrom { line := s.line } rest).map (s :: ·)
  | .operator '\n' :: rest => (commandsFrom { line := s.line + 1 } rest).map (s :: ·)
  | .descriptor n :: .operator '>' :: .operator '&' :: .word w :: rest =>
    match numberOf? w with
    | some m => commandsFrom (s.redirect (.duplicate n m)) rest
    | none => none
  | .operator '>' :: .operator '&' :: .word w :: rest =>
    match numberOf? w with
    | some m => commandsFrom (s.redirect (.duplicate 1 m)) rest
    | none => none
  | .descriptor n :: .operator '>' :: .operator '>' :: .word _ :: rest =>
    commandsFrom (s.redirect (.away n)) rest
  | .operator '>' :: .operator '>' :: .word _ :: rest => commandsFrom (s.redirect (.away 1)) rest
  | .descriptor n :: .operator '>' :: .word _ :: rest => commandsFrom (s.redirect (.away n)) rest
  | .operator '>' :: .word _ :: rest => commandsFrom (s.redirect (.away 1)) rest
  | .operator '<' :: .word _ :: rest => commandsFrom s rest
  | .word w :: rest => commandsFrom (s.add w) rest
  | _ => none

/-- The commands of a script; `none` if it is not in the language. -/
def commands (script : List Char) : Option (List Simple) :=
  ((tokens script).bind (commandsFrom {})).map (·.filter (·.words ≠ []))

end PartitionUnits.Shell
