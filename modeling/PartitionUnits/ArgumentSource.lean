import PartitionUnits.Settings
import PartitionUnits.World

/-!
# Sources of the kernel command line

Where the kernel command line comes from.

## Main Definitions

* `ArgumentSource` — a fixed text, the override of the environment, or a file
* `ArgumentSource.standard` — the source that the program uses
* `ArgumentSource.line`, `ArgumentSource.settings` — what it says
-/

namespace PartitionUnits

open Text

/-- Where the kernel command line comes from. -/
inductive ArgumentSource where
  | fixed (line : String)
  | override (line : String)
  | file (path : Path)
deriving DecidableEq, Repr

namespace ArgumentSource

/-- The environment variable that replaces the kernel command line. -/
def overrideName : String := "SYSTEMD_PROC_CMDLINE"

/-- The file in which the kernel shows its command line. -/
def kernelFile : Path := Path.ofText "/proc/cmdline"

/-- The override if it is set to a text, else the kernel's file. -/
def standard (w : World) : ArgumentSource :=
  match w.textVariable? overrideName with
  | some line => .override line
  | none => .file kernelFile

/-- The source as messages show it. -/
def shown : ArgumentSource → String
  | fixed line => s!"static: {quoted line}"
  | override _ => s!"env: {overrideName}"
  | file path => s!"file: {path.quoted}"

/-- The command line. -/
def line (w : World) : ArgumentSource → Except Failure String
  | fixed line | override line => .ok line
  | file path =>
    (w.readText path).mapError fun e =>
      e.failure.during s!"Failed to read kernel command line from {path.quoted}"

/-- The settings that the command line asks for. -/
def settings (w : World) (source : ArgumentSource) : Attempt Settings :=
  match source.line w with
  | .ok line => liftM (Settings.ofCommandLine line)
  | .error f => throw f

end ArgumentSource

end PartitionUnits
