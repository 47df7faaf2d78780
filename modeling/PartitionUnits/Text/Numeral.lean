/-!
# Decimal numerals

Numbers in device numbers, partition numbers and mount tables are decimal numerals below a bound.

## Main Definitions

* `NumeralError` — why a text is not a numeral below the bound
* `parseNumeral` — an optional plus sign and at least one ASCII digit
* `parseSigned?` — the same with an optional minus sign

## Design Notes

Digits are read from the left, and the first fault met decides the error: at one digit a character
that is no digit comes before a value that has grown too large.
-/

namespace PartitionUnits.Text

/-- The bound of signed words of 32 bits. -/
def signedBound32 : Nat := 0x80000000

/-- The bound of signed words of 64 bits. -/
def signedBound64 : Nat := 0x8000000000000000

/-- Why a text is not a numeral below the bound. -/
inductive NumeralError where
  | empty
  | invalidDigit
  | tooLarge
deriving DecidableEq, Repr

/-- The wording of a numeral error. -/
def NumeralError.message : NumeralError → String
  | .empty => "cannot parse integer from empty string"
  | .invalidDigit => "invalid digit found in string"
  | .tooLarge => "number too large to fit in target type"

/-- The value of an ASCII digit. -/
def digitValue? (c : Char) : Option Nat :=
  if '0' ≤ c ∧ c ≤ '9' then some (c.toNat - '0'.toNat) else none

/-- Read digits onto `value`, which has to stay below `bound`. -/
def readDigits (bound : Nat) : Nat → List Char → Except NumeralError Nat
  | value, [] => .ok value
  | value, c :: cs =>
    match digitValue? c with
    | none => .error .invalidDigit
    | some d =>
      if value * 10 + d < bound then readDigits bound (value * 10 + d) cs else .error .tooLarge

/-- An optional plus sign and at least one digit, with a value below `bound`. -/
def parseNumeral (bound : Nat) : List Char → Except NumeralError Nat
  | [] => .error .empty
  | ['+'] => .error .invalidDigit
  | '+' :: cs => readDigits bound 0 cs
  | cs => readDigits bound 0 cs

/-- A numeral with an optional sign, from `-bound` up to `bound` itself excluded. -/
def parseSigned? (bound : Nat) : List Char → Option Int
  | ['-'] => none
  | '-' :: cs =>
    match readDigits (bound + 1) 0 cs with
    | .ok n => some (-(n : Int))
    | .error _ => none
  | cs =>
    match parseNumeral bound cs with
    | .ok n => some n
    | .error _ => none

end PartitionUnits.Text
