/-!
# Checksums

The cyclic redundancy check of 32 bits that guards the headers and tables of GUID partition tables.

## Main Definitions

* `Gpt.checksum` — the check value of octets

## Design Notes

The polynomial is applied bit by bit, least significant bit first, starting from all ones and
complemented at the end.
-/

namespace PartitionUnits.Gpt

/-- One bit of a division by the polynomial. -/
def divideBit (r : UInt32) : UInt32 :=
  if r &&& 1 = 1 then (r >>> 1) ^^^ 0xEDB88320 else r >>> 1

/-- The remainder after one more octet. -/
def divideOctet (r : UInt32) (b : UInt8) : UInt32 :=
  (List.range 8).foldl (fun r _ => divideBit r) (r ^^^ b.toUInt32)

/-- The check value of octets. -/
def checksum (octets : List UInt8) : UInt32 := octets.foldl divideOctet 0xFFFFFFFF ^^^ 0xFFFFFFFF

/-- The check value of the nine digits from 1 to 9. -/
example : checksum [0x31, 0x32, 0x33, 0x34, 0x35, 0x36, 0x37, 0x38, 0x39] = 0xCBF43926 := by
  decide +kernel

end PartitionUnits.Gpt
