import PartitionUnits.Machine

/-!
# Occupancy

A mount point that something occupies is left alone, because a mount there would hide it.

## Main Definitions

* `Occupancy` — what was found at a path
* `Host.occupancy` — looks at a path
* `Occupancy.isBusy` — whether the path is to be left alone

## Design Notes

Every doubt counts as busy.  The contents of a directory are looked at only if nothing is mounted
on it.
-/

namespace PartitionUnits

/-- What was found at a path. -/
inductive Occupancy where
  | missing
  | mounted
  | empty
  | populated
  /-- Its contents could not be listed. -/
  | unlistable (cause : Failure)
  /-- It could not be told whether something is mounted there. -/
  | unknown (cause : Failure)
deriving DecidableEq, Repr

/-- Look at a path. -/
def Host.occupancy (h : Host) (p : Path) : Occupancy :=
  match h.mountPointState p with
  | .ok .missing => .missing
  | .ok .mountPoint => .mounted
  | .ok .notMountPoint =>
    match h.isEmptyDirectory p with
    | .ok true => .empty
    | .ok false => .populated
    | .error f => .unlistable f
  | .error f => .unknown f

namespace Occupancy

/-- Whether the path is to be left alone. -/
def isBusy : Occupancy → Bool
  | missing | empty => false
  | mounted | populated | unlistable _ | unknown _ => true

/-- Whether the contents of the path were looked at. -/
def wasListed : Occupancy → Bool
  | empty | populated | unlistable _ => true
  | missing | mounted | unknown _ => false

/-- The events that looking at a path leaves. -/
def events (p : Path) : Occupancy → List Event
  | missing | empty => []
  | mounted => [⟨.debug, .occupancy, s!"{p.quoted} is already a mount point"⟩]
  | populated => [⟨.debug, .occupancy, s!"{p.quoted} is not empty"⟩]
  | unlistable f =>
    [⟨.warning, .occupancy, s!"Failed to check if {p.quoted} is empty: {f.message}"⟩]
  | unknown f =>
    [⟨.warning, .occupancy,
      s!"Failed to determine whether {p.quoted} is a mount point: {f.message}"⟩]

end Occupancy

/-- Whether a path is to be left alone, with the events that looking at it leaves. -/
def Host.isBusy (h : Host) (p : Path) : Traced Bool :=
  { value := (h.occupancy p).isBusy, events := (h.occupancy p).events p }

end PartitionUnits
