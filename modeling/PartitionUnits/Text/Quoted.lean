import PartitionUnits.Text.Printable
import PartitionUnits.Text.Utf8

/-!
# Quoted text

Messages show texts and paths in double quotes, so that blanks, line ends and invisible characters
in them can be told apart.

## Main Definitions

* `quotedChar` — one character inside the quotes
* `quoted` — a text in quotes
* `quotedOctets` — octets in quotes, read as UTF-8

## Design Notes

An apostrophe needs no escape inside double quotes.  Characters without a visible form of their own
are written by code point, octets that are not UTF-8 by value.
-/

namespace PartitionUnits.Text

/-- The digits of `n` in base 16, lower case. -/
def hexDigits (n : Nat) : List Char := Nat.toDigits 16 n

/-- One character inside double quotes. -/
def quotedChar (c : Char) : List Char :=
  if c = '\x00' then ['\\', '0']
  else if c = '\t' then ['\\', 't']
  else if c = '\r' then ['\\', 'r']
  else if c = '\n' then ['\\', 'n']
  else if c = '\\' then ['\\', '\\']
  else if c = '"' then ['\\', '"']
  else if isGraphemeExtender c || isUnprintable c then
    ['\\', 'u', Char.ofNat 0x7B] ++ hexDigits c.toNat ++ [Char.ofNat 0x7D]
  else [c]

/-- A text in double quotes. -/
def quoted (s : String) : String :=
  String.ofList ('"' :: s.toList.flatMap quotedChar ++ ['"'])

/-- An octet by value, in two upper-case digits of base 16. -/
def quotedOctet (b : UInt8) : List Char :=
  let digits := (hexDigits b.toNat).map Char.toUpper
  ['\\', 'x'] ++ List.replicate (2 - digits.length) '0' ++ digits

/-- One piece of decoded octets inside double quotes. -/
def Piece.quoted : Piece → List Char
  | .scalar c => quotedChar c
  | .stray octets => octets.flatMap quotedOctet

/-- Octets in double quotes, read as UTF-8. -/
def quotedOctets (octets : List UInt8) : String :=
  String.ofList ('"' :: (pieces octets).flatMap Piece.quoted ++ ['"'])

end PartitionUnits.Text
