import PartitionUnits.FileSystem.Error
import PartitionUnits.FileSystem.Tree
import PartitionUnits.Gpt.Checksum
import PartitionUnits.Guid
import PartitionUnits.Partition.Table
import PartitionUnits.Text.Numeral

/-!
# GUID partition tables

The partition table as it is stored on a disk: a header near the start, a copy near the end, and an
array of entries that either header points to.

## Main Definitions

* `Gpt.Record`, `Gpt.Reader` — one entry of the array, and whoever reads the array
* `Gpt.Record.entry?` — an entry as it is reported
* `Gpt.Header`, `Gpt.HeaderError` — what the header says, or why it cannot be used
* `Gpt.Error` — why a table cannot be read
* `Gpt.read`, `Gpt.readStandard` — the entries of the table on a disk

## Design Notes

What a disk's table says is up to a reader, and a world has one; the rest of this module is the
reader that follows the standard, for worlds that are given in full.  A header that can be read and
carries the right signature and checksum is believed.  The copy is used only if the first header is
not; once a header has been chosen there is no second chance.  The checksum covers the first 92
octets whatever length the header claims.
-/

namespace PartitionUnits.Gpt

/-- The sizes of a disk's blocks that are tried, in order. -/
def blockSizes : List Nat := [512, 4096]

/-- One entry of the array. -/
structure Record where
  number : Nat
  typeId : Guid
  flags : Partition.Flags := {}
  partitionId : Guid
deriving DecidableEq, Repr

/-- The entry as it is reported, unless it is unused. -/
def Record.entry? (r : Record) : Option Partition.Entry :=
  if r.typeId = Guid.nil then none
  else
    some {
      number := r.number
      typeText := r.typeId.text
      flags := r.flags
      partitionId := some r.partitionId.text }

/-- Reads the table on a disk for blocks of one size, from what opening and reading the disk
give. -/
abbrev Reader :=
  Except FileError (Except FileError Content) → Nat → Except Failure (List Record)

/-! ## The standard reader -/

/-- The number of octets of a header that count. -/
def headerSize : Nat := 92

/-- The number of octets of an entry. -/
def entrySize : Nat := 128

/-- The value of octets, the least significant one first. -/
def littleEndian : Octets → Nat
  | [] => 0
  | b :: bs => b.toNat + 256 * littleEndian bs

/-- The value of some octets in the middle, the least significant one first. -/
def fieldAt (octets : Octets) (start count : Nat) : Nat :=
  littleEndian ((octets.drop start).take count)

/-- What a header says about the entries. -/
structure Header where
  firstBlock : Nat
  count : Nat
  entrySize : Nat
  checksum : Nat
deriving DecidableEq, Repr

/-- Why a header cannot be used. -/
inductive HeaderError where
  | unreadable (e : FileError)
  | badSignature
  | badChecksum
deriving DecidableEq, Repr

/-- The wording of a header error. -/
def HeaderError.message : HeaderError → String
  | .unreadable e => s!"Header IO Error: {e.message}"
  | .badSignature => "Invalid GPT Signature, the header does not exist or is invalid"
  | .badChecksum => "CRC32 Checksum Mismatch, the header is corrupted"

/-- Why a table cannot be read. -/
inductive Error where
  | unreadable (e : FileError)
  | header (e : HeaderError)
  | startTooLarge
  | badTableChecksum
  | strangeEntrySize
deriving DecidableEq, Repr

/-- The wording of a table error. -/
def Error.message : Error → String
  | .unreadable e => s!"GPT IO Error: {e.message}"
  | .header e => s!"GPT Header Error: {e.message}"
  | .startTooLarge => "GPT IO Error: partition overflow - start offset"
  | .badTableChecksum => "GPT IO Error: partition table CRC mismatch"
  | .strangeEntrySize => "GPT IO Error: unknown size of partition entries"

/-- The error as a failure. -/
def Error.failure (e : Error) : Failure := Failure.of e.message

/-- A stretch of a disk. -/
def stretch (disk : Except FileError Content) (offset count : Nat) : Except FileError Octets := do
  match (← disk).read? offset count with
  | some octets => .ok octets
  | none => .error .shortRead

/-- The first octets of every header. -/
def signature : Octets := Text.encode "EFI PART".toList

/-- The header at an offset of a disk. -/
def Header.read (disk : Except FileError Content) (offset : Nat) : Except HeaderError Header := do
  let octets ← (stretch disk offset headerSize).mapError .unreadable
  if octets.take 8 ≠ signature then .error .badSignature
  else if fieldAt octets 16 4 ≠
      (Gpt.checksum (octets.take 16 ++ [0, 0, 0, 0] ++ octets.drop 20)).toNat then
    .error .badChecksum
  else
    .ok ⟨fieldAt octets 72 8, fieldAt octets 80 4, fieldAt octets 84 4, fieldAt octets 88 4⟩

/-- The header to believe: the first one, or its copy in the last block of the disk. -/
def Header.choose (disk : Except FileError Content) (size blockSize : Nat) :
    Except HeaderError Header :=
  match Header.read disk blockSize with
  | .ok h => .ok h
  | .error e =>
    if size < 3 * blockSize then .error e
    else
      match Header.read disk (blockSize * (size / blockSize - 1)) with
      | .ok h => .ok h
      | .error _ => .error e

/-- Octets in groups of a size. -/
def groups (size : Nat) : Nat → Octets → List Octets
  | 0, _ => []
  | n + 1, octets => octets.take size :: groups size n (octets.drop size)

/-- An entry of the array, which is in use if it is not all zero. -/
def recordOf? (number : Nat) (octets : Octets) : Option Record :=
  if octets.all (· = 0) then none
  else
    some {
      number
      typeId := Guid.ofMixedEndian (octets.take 16)
      flags := ⟨UInt64.ofNat (fieldAt octets 48 8)⟩
      partitionId := Guid.ofMixedEndian ((octets.drop 16).take 16) }

/-- The entries that a header points to. -/
def Header.records (h : Header) (disk : Except FileError Content) (blockSize : Nat) :
    Except Error (List Record) := do
  let start := h.firstBlock * blockSize
  if start ≥ UInt64.size then .error .startTooLarge
  else if start ≥ Text.signedBound64 then .error (.unreadable .invalid)
  else if h.entrySize ≠ Gpt.entrySize then .error .strangeEntrySize
  else
    let octets ← (stretch disk start (h.count * Gpt.entrySize)).mapError .unreadable
    if (Gpt.checksum octets).toNat ≠ h.checksum then .error .badTableChecksum
    else
      .ok (((groups Gpt.entrySize h.count octets).zipIdx 1).filterMap fun (entry, number) =>
        recordOf? number entry)

/-- The entries of the table on a disk, for blocks of one size. -/
def readBlocks (disk : Except FileError Content) (size blockSize : Nat) :
    Except Error (List Record) := do
  let h ← (Header.choose disk size blockSize).mapError .header
  h.records disk blockSize

/-- The entries of the table on a disk, for blocks of one size. -/
def read (opened : Except FileError (Except FileError Content)) (blockSize : Nat) :
    Except Error (List Record) := do
  let disk ← opened.mapError .unreadable
  readBlocks disk ((disk.map Content.size).toOption.getD 0) blockSize

/-- The reader that follows the standard. -/
def readStandard : Reader := fun opened blockSize =>
  (read opened blockSize).mapError Error.failure

end PartitionUnits.Gpt
