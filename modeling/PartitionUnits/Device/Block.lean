import PartitionUnits.Device.Number
import PartitionUnits.Path

/-!
# Block devices

A whole disk, or one of the partitions on it.
-/

namespace PartitionUnits.Device

/-- A whole disk or a partition. -/
structure Block where
  number : Number
  /-- The device node, such as `/dev/sda2`. -/
  node : Path
  /-- The directory of the device in the kernel's device tree. -/
  directory : Path
  /-- The partition number, `none` for a whole disk. -/
  partition : Option Nat
deriving DecidableEq, Repr, Inhabited

end PartitionUnits.Device
