import PartitionUnits.Unit.Basic
import PartitionUnits.Unit.Name

/-!
# File system checks

How the wish to have a device checked before it is mounted turns into configuration.

## Main Definitions

* `CheckDependency` — the outcome
* `CheckRequest.resolve` — the decision

## Design Notes

The root file system is checked by a service of its own.  In the initrd that service checks the
file system about to become the root; everywhere else a check is an instance named after the
device.
-/

namespace PartitionUnits

open Text

/-- What a mount has to wait for. -/
inductive CheckDependency where
  /-- Nothing to check. -/
  | none
  /-- The root check is pulled in by the local file systems. -/
  | rootLink
  /-- The mount requires a service and is ordered after it. -/
  | service (name : String)
deriving DecidableEq, Repr

/-- The service that checks the root file system. -/
def rootCheckService : String := "systemd-fsck-root.service"

/-- Whether a text names a device. -/
def isDevicePath (path : String) : Bool :=
  "/dev/".toList.isPrefixOf path.toList || "/sys/".toList.isPrefixOf path.toList

/-- The type whose checking program is needed and missing; a type that is still to be found out
needs none. -/
def CheckRequest.missingHelper? (r : CheckRequest) (hasHelper : String → Bool) : Option String :=
  match r.fsType with
  | some fsType => if fsType ≠ "auto" ∧ !hasHelper fsType then some fsType else none
  | none => Option.none

/-- Decide how the device of a mount is checked. -/
def CheckRequest.resolve (r : CheckRequest) (inInitrd : Bool) (hasHelper : String → Bool) :
    Attempt CheckDependency :=
  if !isDevicePath r.device then do
    Attempt.log .warning .check
      s!"Checking was requested for {quoted r.device}, but it is not a device"
    return .none
  else
    match r.missingHelper? hasHelper with
    | some fsType => do
      Attempt.log .debug .check
        s!"Checking was requested for {quoted r.device}, but fsck.{fsType} does not exist"
      return .none
    | none =>
      if r.mountPoint = "/" then return .rootLink
      else if inInitrd ∧ r.mountPoint = "/sysroot" then return .service rootCheckService
      else
        match UnitName.ofPathInstance "systemd-fsck" r.device ".service" with
        | .ok name => return .service name
        | .error e => throw e.failure

end PartitionUnits
