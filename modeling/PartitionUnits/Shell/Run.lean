import PartitionUnits.Shell.Command
import PartitionUnits.Shell.Utility

/-!
# Running scripts

A script is run command by command.

## Main Definitions

* `Shell.Parameters` — what words of a script can refer to
* `Shell.fields` — the fields that a word stands for
* `Shell.run` — what a script prints and how it ends

## Design Notes

Scripts read nothing and write no files, so a run is a function of the script and its parameters.
Values are split into fields at blanks where they are not quoted.
-/

namespace PartitionUnits.Shell

open Text

/-- What the words of a script can refer to. -/
structure Parameters where
  /-- The name under which the script runs. -/
  name : Octets
  arguments : List Octets := []
  environment : List (String × Octets) := []
deriving DecidableEq, Repr

/-- The value of a parameter after a status; unknown ones have an empty value. -/
def Parameters.value (p : Parameters) (status : Nat) (name : String) : List Char :=
  match name with
  | "$" => (toString processNumber).toList
  | "?" => (toString status).toList
  | "#" => (toString p.arguments.length).toList
  | "@" | "*" => spaced (p.arguments.map charsOf)
  | _ =>
    match parseNumeral signedBound32 name.toList with
    | .ok n => charsOf (((p.name :: p.arguments)[n]?).getD [])
    | .error _ => charsOf ((p.environment.lookup name).getD [])

/-- Whether values are split at a character. -/
def isSeparator (c : Char) : Bool := c = ' ' || c = '\t' || c = '\n'

/-- The fields that are complete, and the one that has begun. -/
structure Fields where
  complete : List (List Char) := []
  begun : Option (List Char) := none
deriving DecidableEq, Repr

namespace Fields

/-- Add characters to the field that has begun. -/
def add (f : Fields) (cs : List Char) : Fields := { f with begun := some (f.begun.getD [] ++ cs) }

/-- End the field that has begun. -/
def close (f : Fields) : Fields := { complete := f.complete ++ f.begun.toList }

/-- Add a character at which fields may end. -/
def addSplit (f : Fields) (c : Char) : Fields := if isSeparator c then f.close else f.add [c]

/-- Add what a part of a word stands for. -/
def addFragment (value : String → List Char) (f : Fields) : Fragment → Fields
  | .literal cs _ => f.add cs
  | .parameter name true => f.add (value name)
  | .parameter name false => (value name).foldl addSplit f

end Fields

/-- The fields that a word stands for. -/
def fields (value : String → List Char) (w : Word) : List (List Char) :=
  (w.foldl (Fields.addFragment value) {}).close.complete

/-- Where an output of a command goes. -/
inductive Sink where
  | output
  | errors
  | nowhere
deriving DecidableEq, Repr

/-- Where the outputs of a command go after a redirection. -/
def redirectSinks (sinks : Nat → Sink) : Redirection → Nat → Sink
  | .duplicate descriptor source, n => if n = descriptor then sinks source else sinks n
  | .away descriptor, n => if n = descriptor then .nowhere else sinks n

/-- Where the outputs of a command go. -/
def Simple.sinks (s : Simple) : Nat → Sink :=
  s.redirections.foldl redirectSinks fun n =>
    if n = 1 then .output else if n = 2 then .errors else .nowhere

/-- A script under way. -/
structure State where
  output : List Char := []
  errors : List Char := []
  status : Nat := 0
  ending : Option Ending := none
deriving DecidableEq, Repr

namespace State

/-- Let an output of a command go where it goes. -/
def emit (s : State) (sink : Sink) (cs : List Char) : State :=
  match sink with
  | .output => { s with output := s.output ++ cs }
  | .errors => { s with errors := s.errors ++ cs }
  | .nowhere => s

/-- The state after an effect. -/
def after (s : State) (sinks : Nat → Sink) (e : Effect) : State :=
  let s := (s.emit (sinks 1) e.output).emit (sinks 2) e.errors
  { s with status := e.status, ending := e.ending }

/-- Run a command. -/
def execute (p : Parameters) (s : State) (command : Simple) : State :=
  if s.ending.isSome || !command.condition.holds s.status then s
  else
    match command.words.flatMap (fields (p.value s.status)) with
    | [] => { s with status := 0 }
    | name :: arguments =>
      let name := String.ofList name
      let speaker := s!"{String.ofList (charsOf p.name)}: {command.line}"
      let context : Context := ⟨speaker, s.status⟩
      let effect := (utility? context name arguments).getD
        (context.complain s!"{name}: not found" 127)
      s.after command.sinks effect

/-- The run of a program that a script under way has been so far. -/
def programRun (s : State) : ProgramRun :=
  { output := octetsOf s.output
    errors := octetsOf s.errors
    ending := s.ending.getD (.exited s.status) }

end State

/-- Run a script. -/
def runScript (script : Octets) (p : Parameters) : ProgramRun :=
  match commands (charsOf script) with
  | none =>
    { errors := p.name ++ encode ": 1: Syntax error\n".toList, ending := .exited 2 }
  | some commands => (commands.foldl (State.execute p) {}).programRun

/-- Run the shell: a script in its arguments, or none at all. -/
def run (name : Octets) (arguments : List Octets) (environment : List (String × Octets)) :
    ProgramRun :=
  match arguments with
  | [0x2D, 0x63] :: script :: [] => runScript script { name, environment }
  | [0x2D, 0x63] :: script :: name :: arguments =>
    runScript script { name, arguments, environment }
  | _ => {}

end PartitionUnits.Shell
