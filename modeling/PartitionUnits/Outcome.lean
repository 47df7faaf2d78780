import PartitionUnits.Failure
import PartitionUnits.Path

/-!
# Outcomes

What became of each role, and of a pass as a whole.

## Main Definitions

* `SkipReason` — why a role was left alone
* `Outcome` — units were generated, or the role was left alone
* `Status` — what a pass has generated and what has failed, so far
* `Status.record` — the status after one more result

## Design Notes

Leaving a role alone is neither success nor failure and changes no status; a failure is recorded
and does not stop a pass.
-/

namespace PartitionUnits

open Text

/-- Why a role was left alone. -/
inductive SkipReason where
  | notEfiBoot
  | inInitrd
  | inContainer
  | loaderPartitionUnknown
  | staticallyConfigured (what : String)
  | busy (path : Path)
  | probeInconclusive (node : String)
  | notVfat
  | noPartitionId
  | invalidPartitionId (id : String)
  | notBootedFrom
deriving DecidableEq, Repr

/-- The wording of a reason. -/
def SkipReason.message : SkipReason → String
  | notEfiBoot => "not an EFI boot"
  | inInitrd => "running in initrd"
  | inContainer => "running in a container"
  | loaderPartitionUnknown => "EFI loader partition unknown"
  | staticallyConfigured what => s!"{what} specified in fstab"
  | busy path => s!"{path.quoted} already populated"
  | probeInconclusive node => s!"no or ambiguous probe results for {node}"
  | notVfat => "partition is not a FAT filesystem"
  | noPartitionId => "partition does not have a UUID"
  | invalidPartitionId id => s!"partition does not have a valid UUID: {quoted id}"
  | notBootedFrom => "partition does not appear to be the one we are booted from"

/-- What became of a role. -/
inductive Outcome where
  | emitted
  | skipped (reason : SkipReason)
deriving DecidableEq, Repr

/-- What a pass has generated and what has failed, in order. -/
structure Status where
  emitted : List String := []
  failed : List String := []
deriving DecidableEq, Repr, Inhabited

namespace Status

/-- Whether nothing has failed. -/
def isSuccess (s : Status) : Bool := s.failed = []

/-- The status after the result for one more subject. -/
def record (s : Status) (subject : String) : Except Failure Outcome → Traced Status
  | .ok .emitted => do
    Traced.log .info .pass s!"Generated units for {subject}"
    return { s with emitted := s.emitted ++ [subject] }
  | .ok (.skipped reason) => do
    Traced.log .debug .pass s!"Ignoring {subject}: {reason.message}"
    return s
  | .error f => do
    Traced.log .error .pass s!"Failed to set up {subject}: {f.message}"
    return { s with failed := s.failed ++ [subject] }

end Status

end PartitionUnits
