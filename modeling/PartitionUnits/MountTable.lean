import PartitionUnits.FileSystem.Lookup
import PartitionUnits.Text.Lines
import PartitionUnits.Text.Numeral

/-!
# The mount table

The kernel's table of active mounts, one per line.

## Main Definitions

* `MountTable.Reader` — reads the paths at which something is mounted
* `findMount` — whether a path is among these
* `MountLineError`, `MountTableError` — what is wrong with a line, or with the table
* `MountTable.readLines` — the reader of lines

## Design Notes

How the table is written is up to a reader, which gives one answer for each mount, and a world has
one.  `MountTable.readLines` checks the fields of a line from the left and takes paths as they are
written; it is for worlds that are given in full.  Mounts are gone through up to the first one that
settles the question, so a malformed one behind it does not matter.  Paths are compared by
components.
-/

namespace PartitionUnits

open Text

/-- Reads the mount table from what opening and reading it give: the paths at which something is
mounted, and for a mount that is not understood the reason. -/
abbrev MountTable.Reader :=
  Except FileError (Except FileError Content) → Except Failure (List (Except Failure Path))

/-- Look for a mount at a path. -/
def findMount (p : Path) : List (Except Failure Path) → Except Failure Bool
  | [] => .ok false
  | .error f :: _ => .error (f.during "Failed to parse mount table")
  | .ok q :: rest => if q.SameAs p then .ok true else findMount p rest

/-! ## The reader of lines -/

/-- What is wrong with a line of the mount table. -/
inductive MountLineError where
  | missing (field : Nat) (name : String)
  | notAbsolute (path : String)
  | badNumber (field : Nat) (name value : String)
deriving DecidableEq, Repr

/-- The wording of a line error. -/
def MountLineError.message : MountLineError → String
  | .missing field name => s!"Missing field #{field} ({name})"
  | .notAbsolute path => s!"Bad field #2 (file) value (not absolute path): {path}"
  | .badNumber field name value => s!"Bad field #{field} ({name}) value: {value}"

/-- What is wrong with the mount table. -/
inductive MountTableError where
  | unreadable (e : FileError)
  | badLine (number : Nat) (e : MountLineError)
deriving DecidableEq, Repr

/-- The wording of a table error. -/
def MountTableError.message : MountTableError → String
  | .unreadable e => s!"Mount parsing: Failed to read the mounts file: {e.message}"
  | .badLine number e => s!"Mount parsing: Failed at line {number}: Line parsing: {e.message}"

/-- A table error as a failure. -/
def MountTableError.failure (e : MountTableError) : Failure := Failure.of e.message

/-- A field of a line. -/
def mountField (fields : List (List Char)) (field : Nat) (name : String) :
    Except MountLineError String :=
  match fields[field - 1]? with
  | some cs => .ok (String.ofList cs)
  | none => .error (.missing field name)

/-- The mount point on a line, if the line is well-formed. -/
def mountPathOf (line : List Char) : Except MountLineError Path := do
  let fields := words (fun c => c = ' ' || c = '\t') (trim line)
  let _ ← mountField fields 1 "spec"
  let file ← mountField fields 2 "file"
  if !(Path.ofText file).isAbsolute then
    .error (.notAbsolute file)
  let _ ← mountField fields 3 "vfstype"
  let _ ← mountField fields 4 "mntops"
  let dump ← mountField fields 5 "freq"
  if parseSigned? signedBound32 dump.toList ∉ [some 0, some 1] then
    .error (.badNumber 5 "dump" dump)
  let pass ← mountField fields 6 "passno"
  match parseSigned? signedBound32 pass.toList with
  | none => .error (.badNumber 6 "passno" pass)
  | some n =>
    if n < 0 then .error (.badNumber 6 "passno" pass)
    else .ok (Path.ofText file)

/-- The octets of the table as lines without their ends; a line that is not ended counts if it is
not empty. -/
def mountLines (octets : Octets) : List Octets :=
  let pieces := octets.splitOn 0x0A
  if pieces.getLast? = some [] then pieces.dropLast else pieces

/-- The mount that a line of the table tells of; lines have numbers. -/
def mountOfLine (number : Nat) (line : Octets) : Except MountTableError Path :=
  match decode? line with
  | none => .error (.unreadable .notText)
  | some cs => (mountPathOf cs).mapError (.badLine number)

/-- **The reader of lines**, one mount on each. -/
def MountTable.readLines : MountTable.Reader
  | .error e => .error (MountTableError.unreadable e).failure
  | .ok (.error e) => .ok [.error (MountTableError.unreadable e).failure]
  | .ok (.ok content) =>
    .ok ((mountLines content.all).zipIdx.map fun (line, number) =>
      (mountOfLine number line).mapError MountTableError.failure)

end PartitionUnits
