import PartitionUnits.Unit.Text

/-!
# Unlocking

An encrypted partition is mounted through a mapped device, which a service sets up first.

## Main Definitions

* `Unlocking` — the service, the mapped device, and the settings of its unit
* `Unlocking.plan` — what it takes to use an encrypted partition

## Design Notes

The service unlocks a volume by its name, and the mapped device appears under that name, so the
unit of the mapped device is known before the device is.  That unit's timeout is switched off
because the service has one of its own.
-/

namespace PartitionUnits

/-- The file system type of an encrypted container. -/
def luksType : String := "crypto_LUKS"

/-- What it takes to use an encrypted partition. -/
structure Unlocking where
  /-- The device node of the unlocked volume. -/
  mappedDevice : String
  unit : UnitFile
  dropIn : DropIn
deriving DecidableEq, Repr

namespace Unlocking

/-- The unit of the device that a volume appears as. -/
def deviceUnit (id : String) : String := "dev-mapper-" ++ UnitName.escape id ++ ".device"

/-- The service that unlocks a volume. -/
def serviceUnit (id : String) : String :=
  UnitName.instantiate "systemd-cryptsetup" (UnitName.escape id) ".service"

/-- The service that unlocks `source` as the volume `id` for the unit `consumer`, given the unit of
the source's device. -/
def service (id source : String) (rw : Bool) (consumer sourceUnit : String) : UnitFile :=
  let base : UnitFile :=
    { name := serviceUnit id
      description := "Cryptography Setup for %I"
      body := .unlock id source (!rw)
      documentation := [generatorManual, "man:systemd-cryptsetup@.service(8)"]
      defaultDependencies := false
      ignoreOnIsolate := true }
  base.depends .conflicts Milestone.umount.unit
    |>.depends .bindsTo (deviceUnit id)
    |>.depends .bindsTo sourceUnit
    |>.depends .before Milestone.umount.unit
    |>.depends .before Milestone.cryptsetup.unit
    |>.depends .before consumer
    |>.depends .after sourceUnit
    |>.dependedOnBy sourceUnit .wants
    |>.dependedOnBy Milestone.cryptsetup.unit .requires
    |>.dependedOnBy (deviceUnit id) .requires

/-- The settings that leave the waiting to the service. -/
def noTimeout (id : String) : DropIn :=
  { unit := deviceUnit id
    name := "50-job-timeout-sec-0"
    content := settingsText "Unit" [("JobTimeoutSec", "0")] }

/-- Set up unlocking of the partition `source` as the volume `id`, before the unit `consumer`
uses it. -/
def plan (id source : String) (rw : Bool) (consumer : String) : Attempt Unlocking :=
  match UnitName.ofPath source ".device" with
  | .error e => throw e.failure
  | .ok sourceUnit => do
    Attempt.log .debug .unlock s!"Adding {serviceUnit id} to unlock {source} as {id}"
    return {
      mappedDevice := "/dev/mapper/" ++ id
      unit := service id source rw consumer sourceUnit
      dropIn := noTimeout id }

end Unlocking

end PartitionUnits
