import PartitionUnits.Failure
import PartitionUnits.Text.Blank
import PartitionUnits.Text.Numeral
import PartitionUnits.Text.Quoted

/-!
# Device numbers

The kernel names a block device by a pair of numbers.

## Main Definitions

* `Device.Number` — the pair
* `Device.Number.text` — both numbers in decimal with a colon between them
* `Device.Number.parse` — reads that form
-/

namespace PartitionUnits.Device

open Text

/-- The number of a block device. -/
structure Number where
  major : UInt64
  minor : UInt64
deriving DecidableEq, Repr, Inhabited

/-- Why a text is not a device number. -/
inductive NumberError where
  | noColon (text : String)
  | badMajor (text : String) (cause : NumeralError)
  | badMinor (text : String) (cause : NumeralError)
deriving DecidableEq, Repr

/-- A malformed device number as a failure. -/
def NumberError.failure : NumberError → Failure
  | .noColon text => Failure.of ("Bad device number: " ++ quoted text)
  | .badMajor text cause =>
    (Failure.of cause.message).during ("Bad major in device number: " ++ quoted text)
  | .badMinor text cause =>
    (Failure.of cause.message).during ("Bad minor in device number: " ++ quoted text)

namespace Number

/-- The characters of a device number's text. -/
def chars (n : Number) : List Char :=
  Nat.toDigits 10 n.major.toNat ++ ':' :: Nat.toDigits 10 n.minor.toNat

/-- Both numbers in decimal, with a colon between them. -/
def text (n : Number) : String := String.ofList n.chars

/-- Values from here on do not fit a device number. -/
def bound : Nat := UInt64.size

/-- Read a device number; blanks around it do not matter. -/
def parse (s : String) : Except NumberError Number :=
  let trimmed := trim s.toList
  let shown := String.ofList trimmed
  match cut? ':' trimmed with
  | none => .error (.noColon shown)
  | some (majorText, minorText) =>
    match parseNumeral bound majorText with
    | .error e => .error (.badMajor shown e)
    | .ok major =>
      match parseNumeral bound minorText with
      | .error e => .error (.badMinor shown e)
      | .ok minor => .ok ⟨UInt64.ofNat major, UInt64.ofNat minor⟩

end Number

end PartitionUnits.Device
