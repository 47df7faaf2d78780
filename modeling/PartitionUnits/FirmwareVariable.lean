import PartitionUnits.Failure
import PartitionUnits.Guid
import PartitionUnits.Path

/-!
# Firmware variables

A firmware variable is four octets of attributes and a payload.  The variables read here hold a
GUID as text of 16-bit units.

## Main Definitions

* `Utf16.decode?` — the text of well-formed 16-bit units
* `FirmwareVariable.guid` — the GUID that a variable holds

## Design Notes

The text ends at the first unit that is zero, or with the payload; what follows the zero does not
matter.
-/

namespace PartitionUnits

open Text

namespace Utf16

/-- Whether a unit begins a pair. -/
def isHigh (u : Nat) : Bool := 0xD800 ≤ u && u < 0xDC00

/-- Whether a unit ends a pair. -/
def isLow (u : Nat) : Bool := 0xDC00 ≤ u && u < 0xE000

/-- The text that 16-bit units encode, if every half of a pair has its other half. -/
def decode? : List Nat → Option (List Char)
  | [] => some []
  | [u] => if isHigh u || isLow u then none else some [Char.ofNat u]
  | u :: v :: rest =>
    if isHigh u then
      if isLow v then
        (decode? rest).map (Char.ofNat (0x10000 + (u - 0xD800) * 0x400 + (v - 0xDC00)) :: ·)
      else none
    else if isLow u then none
    else (decode? (v :: rest)).map (Char.ofNat u :: ·)

end Utf16

/-- Why a variable holds no GUID. -/
inductive VariableError where
  | tooShort (size : Nat)
  | oddPayload (size : Nat)
  | notText
  | notGuid (text : String)
deriving DecidableEq, Repr

/-- A malformed variable as a failure. -/
def VariableError.failure : VariableError → Failure
  | .tooShort size => Failure.of s!"Variable is too short ({size} bytes)"
  | .oddPayload size => Failure.of s!"Payload has odd length ({size} bytes)"
  | .notText =>
    (Failure.of "invalid utf-16: lone surrogate found").during "Payload is not valid UTF-16"
  | .notGuid text => Failure.of s!"Not a valid UUID: {quoted text}"

namespace FirmwareVariable

/-- The number of octets in front of the payload. -/
def attributeSize : Nat := 4

/-- Octets in pairs as 16-bit units, the less significant octet first. -/
def units : Octets → List Nat
  | a :: b :: rest => (a.toNat + 256 * b.toNat) :: units rest
  | _ => []

/-- The GUID that a variable holds, in a form that a reader knows. -/
def guid (guids : Guid.Reader) (raw : Octets) : Except VariableError Guid :=
  if raw.length < attributeSize then .error (.tooShort raw.length)
  else
    let payload := raw.drop attributeSize
    if payload.length % 2 ≠ 0 then .error (.oddPayload payload.length)
    else
      match Utf16.decode? ((units payload).takeWhile (· ≠ 0)) with
      | none => .error .notText
      | some cs =>
        let text := String.ofList cs
        match Guid.parse? guids text with
        | some g => .ok g
        | none => .error (.notGuid text)

end FirmwareVariable

end PartitionUnits
