import PartitionUnits.Command
import PartitionUnits.Machine
import PartitionUnits.Text.Lines

/-!
# Signatures

What a device holds is told by a program that looks for the signatures of known formats.

## Main Definitions

* `Properties` — what the program says, as keys and values
* `Properties.parse` — reads its output
* `Signature.probe` — its answer, by output and exit code

## Design Notes

The exit code tells an answer, no answer and contradictory answers apart from a failure to look.
Of two lines with one key the later one counts.
-/

namespace PartitionUnits

open Text

/-- Keys and values in the order they were said. -/
structure Properties where
  pairs : List (String × String) := []
deriving DecidableEq, Repr

namespace Properties

/-- The last value that was said for a key. -/
def get? (p : Properties) (key : String) : Option String := p.pairs.reverse.lookup key

/-- Undo escapes: a backslash makes the character after it stand for itself, and a backslash at
the end stands for nothing. -/
def unescape : List Char → List Char
  | [] => []
  | ['\\'] => []
  | '\\' :: c :: rest => c :: unescape rest
  | c :: rest => c :: unescape rest

/-- A line of the program's output; `none` for a line without an equals sign. -/
def ofLine? (line : List Char) : Option (String × String) :=
  (cut? '=' line).map fun (key, value) =>
    (String.ofList (trim key), String.ofList (unescape value))

/-- Read the program's output. -/
def parse (output : List Char) : Properties := ⟨(lines output).filterMap ofLine?⟩

end Properties

namespace Signature

/-- The command that looks for the signatures of a device. -/
def command (program device : Path) : Command :=
  { program := program.octets
    arguments := ["--probe", "--output", "export"].map (fun s => encode s.toList) ++
      [device.octets] }

/-- The answer that an exit code and an output stand for. -/
def ofExit (code : Nat) (run : ProgramRun) : Except Failure (Probed Properties) :=
  if code = 0 then .ok (.found (Properties.parse (decodeLossy run.output)))
  else if code = 2 then .ok .nothing
  else if code = 8 then .ok .ambiguous
  else .error Command.badExitCode

/-- The answer for a device, given how commands are started. -/
def probe (start : Command → Except FileError ProgramRun) (program device : Path) :
    Except Failure (Probed Properties) :=
  let c := command program device
  (c.check (start c) ofExit).mapError (·.during s!"Failed to probe {device.quoted}")

/-- What a device holds; a partition's properties without a superblock's tell nothing. -/
def filesystem : Probed Properties → Probed FilesystemInfo
  | .found p =>
    match p.get? "TYPE" with
    | some fsType => .found ⟨some fsType, p.get? "UUID"⟩
    | none => .nothing
  | .ambiguous => .ambiguous
  | .nothing => .nothing

/-- What is said about a partition's table entry. -/
def entry (p : Properties) : EntryInfo := ⟨p.get? "TYPE", p.get? "PART_ENTRY_UUID"⟩

/-- The kind of partition table on a disk. -/
def tableKind (p : Properties) : Option String := p.get? "PTTYPE"

end Signature

end PartitionUnits
