import PartitionUnits.FileSystem.Error
import PartitionUnits.FileSystem.Tree

/-!
# Commands

Other programs are run with plain messages, and everything they print is kept for the report if
they fail.

## Main Definitions

* `Command` — a program and its arguments
* `Command.shown` — the command as messages show it
* `Command.check` — judge a run by its exit code

## Design Notes

Starting a program is not part of this module: `Command.check` is given what came of it.  Every
complaint about a run carries the whole command, its exit code and both outputs.
-/

namespace PartitionUnits

open Text

/-- A program to run, with its arguments. -/
structure Command where
  program : Octets
  arguments : List Octets
deriving DecidableEq, Repr

namespace Command

/-- One piece of a command as messages show it. -/
def shownPiece (piece : Octets) : String :=
  if 0 ∈ piece then quoted "<string-with-nul>" else quotedOctets piece

/-- The command with the one setting that is changed for it, as messages show it. -/
def shown (c : Command) : String :=
  " ".intercalate ("LC_ALL=\"C\"" :: (c.program :: c.arguments).map shownPiece)

/-- An output as a report shows it: each line of several on a line of its own, indented. -/
def shownOutput (octets : Octets) : String :=
  let cs := decodeLossy octets
  if '\n' ∈ cs then
    String.ofList ("(multi-line)\n\t".toList ++
      cs.flatMap fun c => if c = '\n' then ['\n', '\t'] else [c])
  else String.ofList cs

/-- The exit code as a report shows it. -/
def shownEnding : Ending → String
  | .exited code => toString code
  | .killed => "unknown"

/-- The report on a run. -/
def report (c : Command) (r : ProgramRun) : String :=
  s!"\ncmd: {c.shown}\nexit code: {shownEnding r.ending}\nstdout: {shownOutput r.output}\n" ++
    s!"stderr: {shownOutput r.errors}"

/-- Judge a run by its exit code, given what came of starting the command. -/
def check {α : Type} (c : Command) (started : Except FileError ProgramRun)
    (judge : Nat → ProgramRun → Except Failure α) : Except Failure α :=
  match started with
  | .error e =>
    .error ((e.failure.during ("cmd: " ++ c.shown)).during "Failed to execute external command")
  | .ok r =>
    let judged := match r.ending with
      | .exited code => judge code r
      | .killed => .error (Failure.of "killed by signal")
    judged.mapError (Failure.during (c.report r))

/-- The complaint about an exit code. -/
def badExitCode : Failure := Failure.of "Bad exit code"

/-- The output of a run that has to end with exit code 0. -/
def requireSuccess (c : Command) (started : Except FileError ProgramRun) : Except Failure Octets :=
  c.check started fun code r => if code = 0 then .ok r.output else .error badExitCode

/-- A run that may end with any exit code. -/
def acceptAny (c : Command) (started : Except FileError ProgramRun) :
    Except Failure (Nat × ProgramRun) :=
  c.check started fun code r => .ok (code, r)

end Command

end PartitionUnits
