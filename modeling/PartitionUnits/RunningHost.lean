import PartitionUnits.FirmwareVariable
import PartitionUnits.Machine
import PartitionUnits.MountTable
import PartitionUnits.World

/-!
# The running host

The state of the running system, read from its files.

## Main Definitions

* `World.mountPointState` — whether a path is a mount point
* `World.host` — all that is asked of the host
-/

namespace PartitionUnits

open Text

namespace World

/-- The file that only the initrd has. -/
def initrdMarker : Path := Path.ofText "/etc/initrd-release"

/-- The file that only containers have. -/
def containerMarker : Path := Path.ofText "/run/systemd/container"

/-- The directory that is there if the firmware booted the system. -/
def firmwareDirectory : Path := Path.ofText "/sys/firmware/efi"

/-- The firmware variable in which the boot loader names the partition it was started from. -/
def loaderVariable : Path :=
  (firmwareDirectory.join (Path.ofText "efivars")).join
    (Path.ofText s!"LoaderDevicePartUUID-{Guid.loaderVendor.text}")

/-- The administrator's table of file systems. -/
def staticMountsFile : Path := Path.ofText "/etc/fstab"

/-- The kernel's table of active mounts. -/
def mountTableFile : Path := Path.ofText "/proc/mounts"

/-- Whether the system has the marker of an initrd. -/
def inInitrd (w : World) : Bool := w.existsAt initrdMarker

/-- The command that tells containers from machines. -/
def detectCommand (w : World) : Command :=
  let program := (w.which? "systemd-detect-virt").getD (Path.ofText "/usr/bin/systemd-detect-virt")
  { program := program.octets
    arguments := ["--container", "--quiet"].map fun s => encode s.toList }

/-- Whether the program runs in a container: the environment says so, or a marker does, or the
command that detects it.  If that cannot be run, it is taken not to. -/
def inContainer (w : World) : Traced Bool :=
  if ((w.environmentValue? "container").getD []) ≠ [] then return true
  else if w.existsAt containerMarker then return true
  else
    match w.detectCommand.acceptAny (w.start w.detectCommand) with
    | .ok (code, _) => return code = 0
    | .error f => do
      Traced.log .debug .host
        s!"Cannot detect container environment, assuming none: {f.message}"
      return false

/-- The partition that the boot loader names, if it names any. -/
def loaderPartition (w : World) : Except Failure (Option Guid) :=
  match w.readOctets loaderVariable with
  | .error .notFound => .ok none
  | .error e => .error (e.failure.during s!"Failed to read EFI variable {loaderVariable.quoted}")
  | .ok raw =>
    match FirmwareVariable.guid w.readers.guids raw with
    | .ok g => .ok (some g)
    | .error e =>
      .error (e.failure.during s!"Failed to parse EFI variable {loaderVariable.quoted}")

/-- The administrator's table, empty if there is none. -/
def staticMounts (w : World) : Except Failure StaticMounts :=
  match w.readText staticMountsFile with
  | .ok content => .ok (StaticMounts.parse content)
  | .error .notFound => .ok {}
  | .error e => .error (e.failure.during s!"Failed to read {staticMountsFile.text}")

/-- The paths at which something is mounted, by the mount table. -/
def mounts (w : World) : Except Failure (List (Except Failure Path)) :=
  (w.readers.mounts (w.opened mountTableFile)).mapError (·.during "Failed to read mount table")

/-- Whether a path is a mount point, once links are followed. -/
def mountPointState (w : World) (p : Path) : Except Failure MountPointState :=
  match w.status p with
  | .error .notFound => .ok .missing
  | .error e => .error (e.failure.during s!"Failed to stat {p.quoted}")
  | .ok _ => do
    let resolved ← (w.resolve p).mapError fun e => e.failure.during s!"Failed to resolve {p.quoted}"
    if ← findMount resolved (← w.mounts) then return .mountPoint else return .notMountPoint

/-- Whether a directory is empty. -/
def isEmptyDirectory (w : World) (p : Path) : Except Failure Bool :=
  match w.list p with
  | .ok names => .ok (names = [])
  | .error e => .error (e.failure.during s!"Failed to open directory {p.quoted}")

/-- The host as it is seen in a world; whether it is an initrd was found out at the start. -/
def host (w : World) (inInitrd : Bool) : Host :=
  { inInitrd
    inContainer := w.inContainer
    isEfiBoot := w.existsAt firmwareDirectory
    loaderPartition := w.loaderPartition
    staticMounts := w.staticMounts
    mountPointState := w.mountPointState
    isEmptyDirectory := w.isEmptyDirectory }

end World

end PartitionUnits
