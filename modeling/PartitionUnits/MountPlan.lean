import PartitionUnits.Unlock

/-!
# Plans for mounts

What has to be written to mount a device, to mount it on access, or to swap on it.

## Main Definitions

* `MountRequest` — what is to be mounted, where and how
* `MountRequest.plan` — a mount
* `MountRequest.planOnAccess` — a mount that is made when it is used
* `planSwap` — a swap device
-/

namespace PartitionUnits

/-- What is to be mounted, where and how. -/
structure MountRequest where
  /-- The name of the volume, if the device has to be unlocked. -/
  id : String
  device : String
  mountPoint : String
  fsType : Option String := none
  rw : Bool
  /-- Mount options besides the access mode. -/
  options : Option String := none
  description : String
  /-- The milestone that requires the mount and comes after it. -/
  milestone : Option Milestone := none
deriving DecidableEq, Repr

/-- Mount options together with the access mode. -/
def mountOptions (options : Option String) (rw : Bool) : String :=
  let mode := if rw then "rw" else "ro"
  match options with
  | some options => options ++ "," ++ mode
  | none => mode

namespace MountRequest

/-- The mount unit of a request, for the device and type that are mounted in the end. -/
def unit (r : MountRequest) (name device : String) (fsType : Option String) : UnitFile :=
  let base : UnitFile :=
    { name
      description := r.description
      body := .mount device r.mountPoint fsType (mountOptions r.options r.rw)
      check := some ⟨device, r.mountPoint, fsType⟩ }
  match r.milestone with
  | some m => (base.depends .before m.unit).dependedOnBy m.unit .requires
  | none => base

/-- Plan a mount, after unlocking the device if it is encrypted. -/
def plan (r : MountRequest) : Attempt Plan := do
  let shownType := r.fsType.getD "n/a"
  Attempt.log .debug .mountPlan s!"Adding {r.mountPoint}: {r.device} {shownType}"
  match UnitName.ofPath r.mountPoint ".mount" with
  | .error e => throw e.failure
  | .ok name =>
    if r.fsType = some luksType then do
      let layer ← Unlocking.plan r.id r.device r.rw name
      return {
        units := [layer.unit, r.unit name layer.mappedDevice none]
        dropIns := [layer.dropIn] }
    else
      return { units := [r.unit name r.device r.fsType] }

/-- The request for the mount behind an automount: never pulled in by itself. -/
def behindAutomount (r : MountRequest) : MountRequest :=
  { r with
    options := some (match r.options with
      | some options => options ++ ",noauto"
      | none => "noauto")
    milestone := none }

/-- The unit that makes the mount on access. -/
def automountUnit (r : MountRequest) (name : String) (idleSeconds : Nat) : UnitFile :=
  ({ name
     description := r.description
     body := .automount r.mountPoint idleSeconds : UnitFile }.depends .before
      Milestone.localFs.unit).dependedOnBy Milestone.localFs.unit .wants

/-- Plan a mount that is made on access and undone after some time without use. -/
def planOnAccess (r : MountRequest) (idleSeconds : Nat) : Attempt Plan := do
  let plan ← r.behindAutomount.plan
  match UnitName.ofPath r.mountPoint ".automount" with
  | .error e => throw e.failure
  | .ok name => return { plan with units := plan.units ++ [r.automountUnit name idleSeconds] }

end MountRequest

/-- The unit that swaps on a device. -/
def swapUnit (name device : String) : UnitFile :=
  ({ name
     description := "Swap Partition"
     body := .swap device : UnitFile }.depends .before
      Milestone.swap.unit).dependedOnBy Milestone.swap.unit .wants

/-- Plan a swap device. -/
def planSwap (device : String) : Attempt Plan := do
  Attempt.log .debug .mountPlan s!"Adding swap: {device}"
  match UnitName.ofPath device ".swap" with
  | .error e => throw e.failure
  | .ok name => return { units := [swapUnit name device] }

end PartitionUnits
