import PartitionUnits.Text.Blank

/-!
# GUIDs

Partition types, partitions and firmware vendors are named by numbers of 128 bits.

## Main Definitions

* `Guid` — the number
* `Guid.Reader`, `Guid.parse?` — reads textual forms
* `Guid.readForms` — the reader of the usual forms
* `Guid.text` — the hyphenated form in lower case
* `Guid.ofMixedEndian` — reads the 16 octets of a partition table

## Design Notes

Which texts are GUIDs is up to a reader, and whoever reads texts takes it as an argument.
`Guid.readForms` is the one that programs use: all of its forms carry the same 32 digits, so
spelling never enters the value.
-/

namespace PartitionUnits

open Text

/-- A globally unique identifier. -/
structure Guid where
  bits : BitVec 128
deriving DecidableEq, Repr, Inhabited

namespace Guid

/-- The value of a digit of base 16, in either case. -/
def hexValue? (c : Char) : Option Nat :=
  if '0' ≤ c ∧ c ≤ '9' then some (c.toNat - '0'.toNat)
  else if 'a' ≤ c ∧ c ≤ 'f' then some (c.toNat - 'a'.toNat + 10)
  else if 'A' ≤ c ∧ c ≤ 'F' then some (c.toNat - 'A'.toNat + 10)
  else none

/-- Read digits of base 16 onto a value. -/
def readHex (value : Nat) : List Char → Option Nat
  | [] => some value
  | c :: cs => (hexValue? c).bind fun d => readHex (value * 16 + d) cs

/-- Exactly 32 digits. -/
def ofDigits? (cs : List Char) : Option Guid :=
  if cs.length = 32 then (readHex 0 cs).map fun n => ⟨BitVec.ofNat 128 n⟩ else none

/-- Five groups of 8, 4, 4, 4 and 12 digits with hyphens between them. -/
def ofHyphenated? (cs : List Char) : Option Guid :=
  let groups := cs.splitOn '-'
  if groups.map List.length = [8, 4, 4, 4, 12] then ofDigits? groups.flatten else none

/-- The scheme in front of a GUID that is written as a uniform resource name. -/
def scheme : List Char := "urn:uuid:".toList

/-- Reads GUIDs from texts. -/
abbrev Reader := String → Option Guid

/-- A GUID in a textual form that a reader knows.  Blanks around it do not matter. -/
def parse? (reader : Reader) (s : String) : Option Guid := reader (String.ofList (trim s.toList))

/-- The reader of the usual forms: 32 digits, the hyphenated form, that form in braces, or that form
after its scheme.  Case does not matter. -/
def readForms : Reader := fun s =>
  let cs := s.toList
  if cs.length = 32 then ofDigits? cs
  else if cs.length = 36 then ofHyphenated? cs
  else if cs.head? = some (Char.ofNat 0x7B) ∧ cs.getLast? = some (Char.ofNat 0x7D) then
    ofHyphenated? cs.tail.dropLast
  else if (cs.take scheme.length).map Char.toLower = scheme then
    ofHyphenated? (cs.drop scheme.length)
  else none

/-- The digit at a place, the last one being place 0. -/
def digitAt (g : Guid) (place : Nat) : Char := Nat.digitChar ((g.bits.toNat >>> (4 * place)) % 16)

/-- The digits from one place down to another, `count` of them. -/
def digitsFrom (g : Guid) (place count : Nat) : List Char :=
  (List.range count).map fun i => g.digitAt (place - i)

/-- The hyphenated form in lower case. -/
def text (g : Guid) : String :=
  String.ofList (['-'].intercalate
    [g.digitsFrom 31 8, g.digitsFrom 23 4, g.digitsFrom 19 4, g.digitsFrom 15 4,
      g.digitsFrom 11 12])

/-- The value of octets, the most significant one first. -/
def bigEndian (octets : List UInt8) : Nat := octets.foldl (fun n b => n * 256 + b.toNat) 0

/-- A GUID as stored in a partition table: the first three groups have their least significant
octet first. -/
def ofMixedEndian (octets : List UInt8) : Guid :=
  let group (start count : Nat) := (octets.drop start).take count
  ⟨BitVec.ofNat 128 (bigEndian ((group 0 4).reverse ++ (group 4 2).reverse ++
    (group 6 2).reverse ++ group 8 8))⟩

/-- The GUID that stands for "none". -/
def nil : Guid := ⟨0⟩

/-- Partition type of an EFI system partition. -/
def efiSystem : Guid := ⟨0xc12a7328f81f11d2ba4b00a0c93ec93b#128⟩

/-- Partition type of a swap partition. -/
def swap : Guid := ⟨0x0657fd6da4ab43c484e50933c84b4f4f#128⟩

/-- Partition type of a home partition. -/
def home : Guid := ⟨0x933ac7e12eb44f13b8440e14e2aef915#128⟩

/-- Partition type of a server data partition. -/
def serverData : Guid := ⟨0x3b8f842520e04f3b907f1a25a76f98e8#128⟩

/-- The vendor under which the boot loader publishes its firmware variables. -/
def loaderVendor : Guid := ⟨0x4a67b0820a4c41cfb6c7440b29bb8c4f#128⟩

end Guid

end PartitionUnits
