import PartitionUnits.Text.Blank

/-!
# Partition tables

What a probe reports about the partition table of a disk.

## Main Definitions

* `Partition.Flags` — the attribute bits of an entry
* `Partition.Entry` — one entry
* `Partition.Table` — the table, with `Table.entry?` for the entry of a number
-/

namespace PartitionUnits.Partition

/-- The attribute bits of a partition. -/
structure Flags where
  bits : UInt64 := 0
deriving DecidableEq, Repr, Inhabited

/-- Bit 60 asks for read-only use. -/
def Flags.readOnly (f : Flags) : Bool := f.bits.toNat.testBit 60

/-- Bit 63 asks not to be used automatically. -/
def Flags.noAuto (f : Flags) : Bool := f.bits.toNat.testBit 63

/-- One entry of a partition table. -/
structure Entry where
  number : Nat
  /-- The partition type as the table spells it. -/
  typeText : String
  flags : Flags := {}
  partitionId : Option String := none
deriving DecidableEq, Repr, Inhabited

/-- A partition table: its kind, if there is one, and its entries. -/
structure Table where
  kind : Option String := none
  entries : List Entry := []
deriving DecidableEq, Repr, Inhabited

/-- Whether the table is a GUID partition table. -/
def Table.isGpt (t : Table) : Bool := t.kind = some "gpt"

/-- The first entry with a number. -/
def Table.entry? (t : Table) (number : Nat) : Option Entry :=
  t.entries.find? fun e => e.number = number

end PartitionUnits.Partition
