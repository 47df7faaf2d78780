import PartitionUnits.Guid
import PartitionUnits.Partition.Table

/-!
# Roles of partitions

What a partition can be used for, and which flags allow it.

## Main Definitions

* `Role` — the uses, with their names and mount points
* `Admission` — the verdict of a rule on a partition's flags
* `Rule`, `rules` — the partition types that are known, in the order their roles are activated

## Design Notes

The EFI system partition is admitted whatever its flags say: they are often set to hide it from
other operating systems.
-/

namespace PartitionUnits

open PartitionUnits.Partition (Flags)

/-- What a partition can be used for. -/
inductive Role where
  | root
  | boot
  | home
  | serverData
  | swap
deriving DecidableEq, Repr, Inhabited

namespace Role

/-- The short name of a role, also the name of its unlocked volume. -/
def id : Role → String
  | root => "root"
  | boot => "boot"
  | home => "home"
  | serverData => "srv"
  | swap => "swap"

/-- Where the role is mounted, if it is. -/
def mountPoint? (inInitrd : Bool) : Role → Option String
  | root => some (if inInitrd then "/sysroot" else "/")
  | boot => some "/boot"
  | home => some "/home"
  | serverData => some "/srv"
  | swap => none

/-- The description of the role's unit. -/
def description : Role → String
  | root => "Root Partition"
  | boot => "EFI System Partition Automount"
  | home => "Home Partition"
  | serverData => "Server Data Partition"
  | swap => "Swap Partition"

end Role

/-- Why the flags of a partition rule out its use. -/
inductive Refusal where
  | noAuto
  | readOnlySwap
deriving DecidableEq, Repr

/-- The wording of a refusal. -/
def Refusal.message : Refusal → String
  | .noAuto => "marked no-auto"
  | .readOnlySwap => "marked as read-only swap partition, which is bogus"

/-- Whether the flags of a partition allow its use. -/
inductive Admission where
  | admitted (rw : Bool)
  | refused (reason : Refusal)
deriving DecidableEq, Repr

/-- A swap partition has to be writable and open to automatic use. -/
def admitSwap (f : Flags) : Admission :=
  if f.noAuto then .refused .noAuto
  else if f.readOnly then .refused .readOnlySwap
  else .admitted true

/-- An EFI system partition is used whatever its flags say. -/
def admitEfiSystem (_ : Flags) : Admission := .admitted true

/-- A data partition has to be open to automatic use; it may be read-only. -/
def admitData (f : Flags) : Admission :=
  if f.noAuto then .refused .noAuto else .admitted (!f.readOnly)

/-- What is done with partitions of one type. -/
structure Rule where
  typeId : Guid
  role : Role
  admission : Flags → Admission

/-- The partition types that are known, in the order their roles are activated. -/
def rules : List Rule := [
  ⟨.swap, .swap, admitSwap⟩,
  ⟨.efiSystem, .boot, admitEfiSystem⟩,
  ⟨.home, .home, admitData⟩,
  ⟨.serverData, .serverData, admitData⟩]

/-- The rule for a partition type. -/
def rule? (typeId : Guid) : Option Rule := rules.find? fun r => r.typeId = typeId

/-- The partition chosen for a role. -/
structure Assignment where
  role : Role
  node : String
  number : Nat
  rw : Bool
deriving DecidableEq, Repr

end PartitionUnits
