import PartitionUnits.MountPlan
import PartitionUnits.Occupancy
import PartitionUnits.Outcome
import PartitionUnits.Partition.Role
import PartitionUnits.Settings

/-!
# Activation

For each role, whether to activate it and with which plan.

## Main Definitions

* `Decision` — leave the role alone, or write a plan
* `decideRoot`, `decideSwap`, `decideBoot`, `decideData` — the decisions for the roles
* `Rule.decide` — the decision for an elected partition

## Design Notes

A decision only asks questions of the machine; nothing is written before it is made.  The questions
are asked in a fixed order and the first one that settles the matter ends them, so a later failure
cannot spoil an earlier reason to leave the role alone.
-/

namespace PartitionUnits

/-- Leave a role alone, or write a plan for it. -/
inductive Decision where
  | skip (reason : SkipReason)
  | emit (plan : Plan)
deriving DecidableEq, Repr

/-- The device that stands for the root partition on the disk that the loader was started from. -/
def rootDevice : String := "/dev/gpt-auto-root"

/-- The request to mount the root partition that the firmware points to. -/
def rootRequest (inInitrd rw : Bool) : MountRequest :=
  { id := Role.root.id
    device := rootDevice
    mountPoint := if inInitrd then "/sysroot" else "/"
    rw
    description := Role.root.description
    milestone := some (if inInitrd then .initrdRootFs else .localFs) }

/-- Mount the root partition if the firmware says which disk it is on. -/
def decideRoot (settings : Settings) (h : Host) : Attempt Decision := do
  if !h.isEfiBoot then
    return .skip .notEfiBoot
  let loader ← (Attempt.ofExcept h.loaderPartition).during "Failed to read ESP partition UUID"
  if loader = none then
    return .skip .loaderPartitionUnknown
  return .emit (← (rootRequest h.inInitrd settings.rootWritable).plan)

/-- Swap on a partition unless the administrator has set up any swap. -/
def decideSwap (h : Host) (a : Assignment) : Attempt Decision := do
  let mounts ← (Attempt.ofExcept h.staticMounts).during "Failed to parse fstab"
  if mounts.hasType "swap" then
    return .skip (.staticallyConfigured "swap")
  return .emit (← planSwap a.node)

/-- Where the EFI system partition is mounted. -/
def bootMountPoint : String := "/boot"

/-- The request to mount the EFI system partition. -/
def bootRequest (node : String) : MountRequest :=
  { id := Role.boot.id
    device := node
    mountPoint := bootMountPoint
    fsType := some "vfat"
    rw := true
    options := some "umask=0077"
    description := Role.boot.description }

/-- How long the EFI system partition stays mounted without use. -/
def bootIdleSeconds : Nat := 120

/-- Whether what a probe says about a partition identifies it as the one that `loader` names. -/
def bootMismatch? (guids : Guid.Reader) (loader : Guid) (info : EntryInfo) : Option SkipReason :=
  if info.fsType ≠ some "vfat" then some .notVfat
  else
    match info.partitionId with
    | none => some .noPartitionId
    | some id =>
      match Guid.parse? guids id with
      | none => some (.invalidPartitionId id)
      | some guid => if guid = loader then none else some .notBootedFrom

/-- Mount the EFI system partition on access, if the firmware confirms that it is the one the
loader was started from. -/
def decideBoot (m : Machine) (a : Assignment) : Attempt Decision := do
  let path := Path.ofText bootMountPoint
  if !m.host.isEfiBoot then
    return .skip .notEfiBoot
  if m.host.inInitrd then
    return .skip .inInitrd
  if ← liftM m.host.inContainer then
    return .skip .inContainer
  match ← (Attempt.ofExcept m.host.loaderPartition).during "Failed to read ESP partition UUID" with
  | none => return .skip .loaderPartitionUnknown
  | some loader =>
    -- An automount is not overridden by the mount that the administrator has set up.
    let mounts ← (Attempt.ofExcept m.host.staticMounts).during "Failed to parse fstab"
    if mounts.mountsAt path then
      return .skip (.staticallyConfigured bootMountPoint)
    if ← liftM (m.host.isBusy path) then
      return .skip (.busy path)
    match ← (m.probe.entry (Path.ofText a.node)).during ("Failed to probe " ++ a.node) with
    | .ambiguous | .nothing => return .skip (.probeInconclusive a.node)
    | .found info =>
      match bootMismatch? m.guids loader info with
      | some reason => return .skip reason
      | none => return .emit (← (bootRequest a.node).planOnAccess bootIdleSeconds)

/-- The request to mount a data partition at its well-known place. -/
def dataRequest (role : Role) (a : Assignment) (mountPoint fsType : String) : MountRequest :=
  { id := role.id
    device := a.node
    mountPoint
    fsType := some fsType
    rw := a.rw
    description := role.description
    milestone := some .localFs }

/-- Mount a data partition at its well-known place, unless the place is occupied. -/
def decideData (role : Role) (m : Machine) (a : Assignment) : Attempt Decision := do
  match role.mountPoint? false with
  | none => throw (Failure.of s!"Role {role.id} has no mount point")
  | some mountPoint =>
    if ← liftM (m.host.isBusy (Path.ofText mountPoint)) then
      return .skip (.busy (Path.ofText mountPoint))
    match ← (m.probe.filesystem (Path.ofText a.node)).during ("Failed to probe " ++ a.node) with
    | .ambiguous | .nothing => return .skip (.probeInconclusive a.node)
    | .found info =>
      -- A partition without a superblock has not been formatted.
      match info.fsType with
      | none => return .skip (.probeInconclusive a.node)
      | some fsType => return .emit (← (dataRequest role a mountPoint fsType).plan)

/-- The decision for a partition that was elected by a rule. -/
def Rule.decide (r : Rule) (m : Machine) (a : Assignment) : Attempt Decision :=
  match r.role with
  | .swap => decideSwap m.host a
  | .boot => decideBoot m a
  | role => decideData role m a

end PartitionUnits
