import PartitionUnits.Device.Block
import PartitionUnits.Failure
import PartitionUnits.Guid
import PartitionUnits.Partition.Table
import PartitionUnits.StaticMounts

/-!
# The machine

What can be asked of the machine at one moment: its devices, its disks and its state.

## Main Definitions

* `Probed` — the outcome of a probe that ran
* `Devices`, `Probe`, `Host` — the three kinds of questions
* `Machine` — all of them together

## Design Notes

A machine is a record of answers, so a pass over it is a pure function and "for all answers" is a
quantifier over records.  Answers that leave events, or that can fail, say so in their types.
-/

namespace PartitionUnits

/-- The outcome of a probe that ran. -/
inductive Probed (α : Type) where
  | found (value : α)
  /-- More than one signature matched, so nothing can be trusted. -/
  | ambiguous
  /-- No signature matched. -/
  | nothing
deriving DecidableEq, Repr

/-- Change what was found. -/
def Probed.map {α β : Type} (f : α → β) : Probed α → Probed β
  | found a => found (f a)
  | ambiguous => ambiguous
  | nothing => nothing

/-- What a device holds. -/
structure FilesystemInfo where
  fsType : Option String := none
  uuid : Option String := none
deriving DecidableEq, Repr

/-- What a partition's table entry says, and what the partition holds. -/
structure EntryInfo where
  fsType : Option String := none
  partitionId : Option String := none
deriving DecidableEq, Repr

/-- Whether a path is an active mount point. -/
inductive MountPointState where
  | missing
  | mountPoint
  | notMountPoint
deriving DecidableEq, Repr

/-- The block devices of a machine. -/
structure Devices where
  /-- The device under the file system at a path, if it is a single one. -/
  holding : Path → Attempt (Option Device.Number)
  /-- The whole disk that a partition is on. -/
  parentDisk : Device.Number → Attempt (Option Device.Block)
  /-- The partitions of a disk, in no particular order. -/
  partitions : Device.Block → Attempt (List Device.Block)

/-- What is read from the devices themselves. -/
structure Probe where
  table : Path → Attempt (Probed Partition.Table)
  filesystem : Path → Attempt (Probed FilesystemInfo)
  entry : Path → Attempt (Probed EntryInfo)

/-- The state of the running system. -/
structure Host where
  /-- Whether this is the initrd, before the real root is mounted. -/
  inInitrd : Bool
  inContainer : Traced Bool
  isEfiBoot : Bool
  /-- The partition that the boot loader says it was started from. -/
  loaderPartition : Except Failure (Option Guid)
  staticMounts : Except Failure StaticMounts
  mountPointState : Path → Except Failure MountPointState
  isEmptyDirectory : Path → Except Failure Bool

/-- Everything that can be asked of a machine. -/
structure Machine where
  devices : Devices
  probe : Probe
  host : Host
  /-- How the GUIDs are read that probes report as texts. -/
  guids : Guid.Reader := Guid.readForms

end PartitionUnits
