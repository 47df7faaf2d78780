import PartitionUnits.PlainMachine
import PartitionUnits.Run
import PartitionUnits.Snapshot
import PartitionUnits.Usage.Reader

/-!
# The command line

Shows what the program would do on this machine.

## Main Definitions

* `look` — the part of the machine that files and the environment tell about
* `main` — runs the program on it and prints what it would write

## Design Notes

Nothing is written and no other program is started: the units go to standard output and the log to
standard error.  Devices are not looked at, so no partition is found beside the root partition.
-/

namespace PartitionUnits

/-- The files that are looked at. -/
def factFiles : List Path :=
  [ArgumentSource.kernelFile, World.initrdMarker, World.containerMarker, World.loaderVariable,
    World.staticMountsFile, World.mountTableFile]

/-- The environment variables that are looked at. -/
def factVariables : List String := ["PATH", "container", ArgumentSource.overrideName, "RUST_LOG"]

/-- The content of a file, if it can be read. -/
def readFile? (p : Path) : IO (Option Octets) := do
  try
    return some (← IO.FS.readBinFile p.text).toList
  catch _ =>
    return none

/-- The part of the machine that files and the environment tell about, with an empty directory for
the units. -/
def look (directory : Path) : IO World := do
  let mut tree := World.bare.tree.plant directory (.directory Tree.directoryMode)
  for p in factFiles do
    if let some data ← readFile? p then
      tree := tree.plant p (.file Tree.fileMode (.octets data))
  let mut environment := []
  for name in factVariables do
    if let some value ← IO.getEnv name then
      environment := environment ++ [(name, Text.encode value.toList)]
  return { tree, environment }

/-- An entry that would be made, as it is printed. -/
def shownEntry (p : Path) : Entry → String
  | .directory _ => s!"{p.text}/\n"
  | .file _ content => s!"{p.text}:\n{(⟨content.all⟩ : Path).text}\n"
  | .link target => s!"{p.text} -> {(⟨target⟩ : Path).text}\n"

/-- Run the program on what is seen of this machine. -/
def showRun (arguments : List Octets) : IO UInt32 := do
  let reader := ArgumentReader.conventional
  let values := (reader.read Usage.positionals arguments).toOption.getD []
  let directory := (Usage.ofValues values).destination
  let w ← look directory
  let ended := runProgram reader arguments w
  let before := w.tree.snapshot directory
  for e in ended.shown do
    IO.eprintln e.line
  for (p, e) in (ended.world.tree.snapshot directory).reverse do
    unless before.contains (p, e) do
      IO.print (shownEntry p e)
  return UInt32.ofNat ended.exitCode

end PartitionUnits

/-- The command line: the arguments of the program. -/
def main (arguments : List String) : IO UInt32 :=
  PartitionUnits.showRun (arguments.map fun a => PartitionUnits.Text.encode a.toList)
