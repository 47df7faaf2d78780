import PartitionUnits.Machine
import PartitionUnits.Signature
import PartitionUnits.World

/-!
# The kernel's device tree

Block devices as the kernel shows them in its tree of directories.

## Main Definitions

* `World.holding` — the device under a file system
* `World.parentDisk` — the disk of a partition
* `World.partitionsOf` — the partitions of a disk

## Design Notes

Each device has a directory with attributes, one file each, and is found through a link that is
named by its number.  A device number with major 0 stands for no device in particular.
-/

namespace PartitionUnits

open Text

/-- The root of the device tree. -/
def deviceTree : Path := Path.ofText "/sys"

/-- The directory of device nodes. -/
def deviceNodes : Path := Path.ofText "/dev"

/-- The link to the directory of a device. -/
def deviceLink (n : Device.Number) : Path :=
  (deviceTree.join (Path.ofText "dev/block")).join (Path.ofText n.text)

/-- The wording of the errors of asking for the device under a file system. -/
def deviceBelowMessage : FileError → String
  | .permission => "EACCES: Permission denied"
  | .inputOutput => "EIO: I/O error"
  | .notDirectory => "ENOTDIR: Not a directory"
  | .tooManyLinks => "ELOOP: Too many symbolic links encountered"
  | .nameTooLong => "ENAMETOOLONG: File name too long"
  | e => e.message

namespace World

/-- The value of an attribute, without the blanks around it. -/
def deviceAttribute (w : World) (directory : Path) (name : String) : Except Failure String :=
  let p := directory.join (Path.ofText name)
  match w.readText p with
  | .ok value => .ok (String.ofList (trim value.toList))
  | .error e => .error (e.failure.during s!"Failed to read sysfs attribute {p.quoted}")

/-- The properties of a device. -/
def deviceProperties (w : World) (directory : Path) : Except Failure Properties := do
  let value ← w.deviceAttribute directory "uevent"
  .ok ⟨(lines value.toList).filterMap fun line =>
    (cut? '=' line).map fun (key, value) => (String.ofList key, String.ofList value)⟩

/-- The number of the device with a directory. -/
def numberAt (w : World) (directory : Path) : Except Failure Device.Number := do
  (Device.Number.parse (← w.deviceAttribute directory "dev")).mapError Device.NumberError.failure

/-- The device that a device is stacked on, if it is exactly one. -/
def singleBelow (w : World) (n : Device.Number) : Except Failure (Option Device.Number) :=
  let directory := (deviceLink n).join (Path.ofText "slaves")
  match w.list directory with
  | .error .notFound => .ok none
  | .error e => .error (e.failure.during s!"Failed to read {directory.quoted}")
  | .ok [name] => (w.numberAt (directory.join ⟨name⟩)).map some
  | .ok _ => .ok none

/-- The device under the file system at a path, if it is a single one. -/
def holding (w : World) (p : Path) : Attempt (Option Device.Number) :=
  match w.deviceBelow p with
  | .error .notFound => return none
  | .error e => throw ((Failure.of (deviceBelowMessage e)).during s!"Failed to stat {p.quoted}")
  | .ok n =>
    if n.major = 0 then do
      Attempt.log .debug .deviceTree
        s!"{p.quoted} is not backed by a single block device ({n.text})"
      return none
    else do
      match ← Attempt.ofExcept (w.singleBelow n) with
      | some below =>
        Attempt.log .debug .deviceTree
          s!"{p.quoted} is on {n.text}, which is stacked on {below.text}"
        return some below
      | none => return some n

/-- The disk with a directory, or the events that say why there is none. -/
def diskAt (w : World) (of : Device.Number) (child directory : Path) :
    Attempt (Option Device.Block) := do
  let properties ← Attempt.ofExcept (w.deviceProperties directory)
  match properties.get? "DEVTYPE" with
  | some "disk" =>
    match properties.get? "DEVNAME" with
    | none =>
      Attempt.log .debug .deviceTree
        s!"{child.quoted}: parent device does not have device node, ignoring"
      return none
    | some name =>
      let number ← Attempt.ofExcept (w.numberAt directory)
      if number.major = 0 then
        return none
      else
        let disk : Device.Block :=
          ⟨number, deviceNodes.join (Path.ofText name), directory, none⟩
        Attempt.log .debug .deviceTree s!"Device {of.text} is on disk {disk.node.quoted}"
        return some disk
  | some kind =>
    Attempt.log .debug .deviceTree
      s!"{child.quoted}: parent is a {kind}, not a raw disk, ignoring"
    return none
  | none =>
    Attempt.log .debug .deviceTree
      s!"{child.quoted}: parent doesn\x27t have a device type, ignoring"
    return none

/-- The whole disk that a partition is on. -/
def parentDisk (w : World) (n : Device.Number) : Attempt (Option Device.Block) :=
  match w.resolve (deviceLink n) with
  | .error .notFound => do
    Attempt.log .debug .deviceTree s!"Device {n.text} is not known to sysfs, ignoring"
    return none
  | .error e => throw (e.failure.during s!"Failed to resolve {(deviceLink n).quoted}")
  | .ok child =>
    if !w.existsAt (child.join (Path.ofText "partition")) then do
      Attempt.log .debug .deviceTree s!"{child.quoted}: not a partitioned device, ignoring"
      return none
    else
      match child.parent? with
      | none => return none
      | some directory => w.diskAt n child directory

/-- The bound of partition numbers. -/
def partitionNumberBound : Nat := UInt32.size

/-- The partition with a directory; `none` if the directory shows no partition to be used. -/
def partitionAt (w : World) (directory : Path) : Except Failure (Option Device.Block) := do
  if !w.isFile (directory.join (Path.ofText "partition")) then .ok none
  else
    match (← w.deviceProperties directory).get? "DEVNAME" with
    | none => .ok none
    | some name =>
      let value ← w.deviceAttribute directory "partition"
      match parseNumeral partitionNumberBound value.toList with
      | .error e =>
        .error ((Failure.of e.message).during s!"Bad partition number in {directory.quoted}")
      | .ok number =>
        let n ← w.numberAt directory
        if n.major = 0 then .ok none
        else .ok (some ⟨n, deviceNodes.join (Path.ofText name), directory, some number⟩)

/-- The partitions of a disk, in the order in which its directory is listed. -/
def partitionsOf (w : World) (disk : Device.Block) : Except Failure (List Device.Block) :=
  match w.list disk.directory with
  | .error e =>
    .error (e.failure.during s!"Failed to enumerate partitions of {disk.node.quoted}")
  | .ok names => do
    let found ← names.mapM fun name => w.partitionAt (disk.directory.join ⟨name⟩)
    .ok (found.filterMap id)

/-- The block devices as they are seen in a world. -/
def devices (w : World) : Devices :=
  { holding := w.holding
    parentDisk := w.parentDisk
    partitions := fun disk => Attempt.ofExcept (w.partitionsOf disk) }

end World

end PartitionUnits
