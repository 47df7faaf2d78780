import PartitionUnits.DeviceTree
import PartitionUnits.FileSystem.Script
import PartitionUnits.Gpt.Table
import PartitionUnits.Pass
import PartitionUnits.RunningHost
import PartitionUnits.Submission

/-!
# The running machine

A pass over the machine that the program runs on.

## Main Definitions

* `World.probe` — what is read from devices
* `World.submit` — applies a plan to the files of a world
* `liveSite` — where a pass over the running machine happens

## Design Notes

A world is looked at anew for every question, so files that the pass has written count as soon as
they are there.  What was found out when the pass began (`Beginning`) stays as it was then.
-/

namespace PartitionUnits

namespace World

/-- The program that looks for signatures. -/
def signatureProgram (w : World) : Path := (w.which? "blkid").getD (Path.ofText "/usr/sbin/blkid")

/-- The entries of the table on a disk: each size of blocks is tried in turn, and the last failure
is reported. -/
def tableEntries (w : World) (disk : Path) :
    List Nat → Failure → Attempt (List Partition.Entry)
  | [], last => throw (last.during s!"Failed to list partitions of {disk.quoted}")
  | blockSize :: rest, _ =>
    match w.readers.disks (w.opened disk) blockSize with
    | .ok records => return records.filterMap Gpt.Record.entry?
    | .error f => do
      Attempt.log .debug .signature s!"Cannot read GPT of {disk.quoted}"
      w.tableEntries disk rest f

/-- The partition table of a disk. -/
def probeTable (w : World) (program disk : Path) : Attempt (Probed Partition.Table) := do
  match ← Attempt.ofExcept (Signature.probe w.start program disk) with
  | .ambiguous => return .ambiguous
  | .nothing => return .nothing
  | .found properties =>
    let kind := Signature.tableKind properties
    if kind = some "gpt" then
      let none_ := Failure.of "No logical block size to try"
      return .found { kind, entries := ← w.tableEntries disk Gpt.blockSizes none_ }
    else
      return .found { kind }

/-- What is read from devices, by a program that was found at the start. -/
def probe (w : World) (program : Path) : Probe :=
  { table := w.probeTable program
    filesystem := fun device =>
      Attempt.ofExcept ((Signature.probe w.start program device).map Signature.filesystem)
    entry := fun device =>
      Attempt.ofExcept ((Signature.probe w.start program device).map (·.map Signature.entry)) }

/-- Whether the program that checks a type of file system is installed. -/
def hasCheckHelper (w : World) (fsType : String) : Bool := (w.which? ("fsck." ++ fsType)).isSome

/-- Run a script on the files of a world. -/
def runScript {α : Type} (s : Script α) (w : World) : α × World :=
  let (a, tree) := s.run w.tree
  (a, { w with tree })

/-- Apply a plan to the files of a world. -/
def submit (directory : Path) (inInitrd : Bool) (helpers : Option (List String)) (plan : Plan)
    (w : World) : Traced (Except Failure Unit) × World :=
  let hasHelper := match helpers with
    | some known => fun fsType => known.contains fsType
    | none => w.hasCheckHelper
  runScript (Destination.submit { directory, inInitrd, hasHelper } plan) w

end World

/-- What is found out once, when a pass begins. -/
structure Beginning where
  inInitrd : Bool
  signatureProgram : Path
deriving DecidableEq, Repr

/-- What a world shows when a pass begins. -/
def World.beginning (w : World) : Beginning := ⟨w.inInitrd, w.signatureProgram⟩

/-- The machine as it is seen in a world. -/
def World.machine (b : Beginning) (w : World) : Machine :=
  { devices := w.devices
    probe := w.probe b.signatureProgram
    host := w.host b.inInitrd
    guids := w.readers.guids }

/-- Where a pass over the running machine happens. -/
def liveSite (b : Beginning) (directory : Path) : Site World :=
  { machine := World.machine b
    submit := World.submit directory b.inInitrd none }

end PartitionUnits
