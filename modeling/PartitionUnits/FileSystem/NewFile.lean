import PartitionUnits.FileSystem.Script

/-!
# New files

A file appears under its name with its whole content, or not at all.

## Main Definitions

* `Aborted` — a failure that may still own a temporary file
* `newFile` — makes a file that was not there
* `Aborted.release` — removes the temporary file that a failure owns

## Design Notes

The content goes into a temporary file of the same directory, which then takes the final name if
the name is free.  If it is not, the failure owns the temporary file: the file goes away when the
failure has been dealt with, and not before.
-/

namespace PartitionUnits

/-- A failure on the way, with the temporary file that it owns. -/
structure Aborted where
  failure : Failure
  temporary : Option Path := none
deriving DecidableEq, Repr

/-- Remove the temporary file that a failure owns. -/
def Aborted.release (a : Aborted) : Script Unit :=
  match a.temporary with
  | none => return
  | some file => do
    let _ ← Script.perform (.removeFile file)

/-- The name of a temporary file as messages show it. -/
def shownTemporaryName : Name := temporaryStart ++ Text.encode "XXXXXX".toList

/-- Give a filled temporary file its final name. -/
def settle (file target : Path) : Script (Except Aborted Unit) := do
  match ← Script.perform (.rename file target) with
  | .ok _ => return .ok ()
  | .error e =>
    let failure := (e.failure.during s!"failed to persist temporary file: {e.message}").during
      s!"Failed to create file {target.quoted}"
    return .error { failure, temporary := some file }

/-- Fill a temporary file, set its permissions and give it its final name. -/
def fillAndSettle (file target : Path) (content : Octets) : Script (Except Aborted Unit) := do
  match ← Script.perform (.write file content) with
  | .error e =>
    let _ ← Script.perform (.removeFile file)
    return .error { failure := e.failure.during s!"Failed to write file {target.quoted}" }
  | .ok _ =>
    match ← Script.perform (.setMode file Tree.fileMode) with
    | .error e =>
      let _ ← Script.perform (.removeFile file)
      return .error { failure := e.failure.during s!"Failed to set permissions of {target.quoted}" }
    | .ok _ => settle file target

/-- Make a file that was not there, with its whole content, through a temporary file of a drawn
name. -/
def newFile (target : Path) (content : Octets) (draws : List Draw := Draw.standard) :
    Script (Except Aborted Unit) :=
  match target.parent? with
  | none =>
    return .error { failure := Failure.of s!"Path {target.quoted} has no parent directory" }
  | some directory => do
    match ← Script.perform (.createTemporary directory draws) with
    | .error e =>
      let shown :=
        if e = .allNamesTaken then directory else directory.join ⟨shownTemporaryName⟩
      return .error {
        failure := (Failure.of s!"{e.message} at path {shown.quoted}").during
          s!"Failed to create temporary file in {directory.quoted}" }
    | .ok file => fillAndSettle file target content

end PartitionUnits
