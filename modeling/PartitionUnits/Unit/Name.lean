import PartitionUnits.Failure
import PartitionUnits.Text.Quoted

/-!
# Unit names

A unit is named after the path it is about: the path is escaped, and a suffix tells the kind of the
unit.

## Main Definitions

* `UnitName.escape` — any text as part of a unit name
* `UnitName.escapePath` — an absolute path as part of a unit name
* `UnitName.ofPath`, `UnitName.ofPathInstance`, `UnitName.instantiate` — whole unit names

## Design Notes

Escaping works on the octets of a text.  A slash becomes a hyphen, and a hyphen is escaped itself,
so that the two cannot be confused; a dot is escaped where it would start the name.
-/

namespace PartitionUnits

open Text

/-- Why a path has no unit name. -/
inductive PathNameError where
  | notAbsolute (path : String)
  | notNormalized (path : String)
deriving DecidableEq, Repr

/-- The wording of the error. -/
def PathNameError.message : PathNameError → String
  | .notAbsolute path => s!"Path {quoted path} is not absolute"
  | .notNormalized path => s!"Path {quoted path} is not normalized"

namespace UnitName

/-- Whether an octet stands for itself in a unit name, other than a dot at its start. -/
def isPlain (b : UInt8) : Bool :=
  (0x30 ≤ b && b ≤ 0x39) || (0x41 ≤ b && b ≤ 0x5A) || (0x61 ≤ b && b ≤ 0x7A) ||
    b == 0x3A || b == 0x5F || b == 0x2E

/-- The octet as a backslash, an `x` and two digits of base 16. -/
def escapeByValue (b : UInt8) : List Char :=
  ['\\', 'x', Nat.digitChar (b.toNat / 16), Nat.digitChar (b.toNat % 16)]

/-- One octet of a text that is not its first. -/
def escapeOctet (b : UInt8) : List Char :=
  if b = 0x2F then ['-']
  else if isPlain b then [Char.ofNat b.toNat]
  else escapeByValue b

/-- The first octet of a text. -/
def escapeFirst (b : UInt8) : List Char :=
  if b = 0x2E then escapeByValue b else escapeOctet b

/-- Octets as part of a unit name. -/
def escapeOctets : List UInt8 → List Char
  | [] => []
  | b :: bs => escapeFirst b ++ bs.flatMap escapeOctet

/-- A text as part of a unit name. -/
def escape (s : String) : String := String.ofList (escapeOctets (encode s.toList))

/-- The pieces of a path between slashes, empty ones left out. -/
def segments (path : String) : List (List Char) := (path.toList.splitOn '/').filter (· ≠ [])

/-- An absolute path as part of a unit name; the root directory is a lone hyphen. -/
def escapePath (path : String) : Except PathNameError String :=
  if path.toList.head? ≠ some '/' then .error (.notAbsolute path)
  else if ['.', '.'] ∈ segments path then .error (.notNormalized path)
  else if segments path = [] then .ok "-"
  else .ok (escape (String.ofList (['/'].intercalate (segments path))))

/-- The unit for a path, of the kind that the suffix tells. -/
def ofPath (path suffix : String) : Except PathNameError String :=
  (escapePath path).map (· ++ suffix)

/-- An instance of a template, by the instance's name. -/
def instantiate (template instanceName suffix : String) : String :=
  template ++ "@" ++ instanceName ++ suffix

/-- An instance of a template, for a path. -/
def ofPathInstance (template path suffix : String) : Except PathNameError String :=
  (escapePath path).map fun name => instantiate template name suffix

end UnitName

/-- A missing unit name as a failure. -/
def PathNameError.failure (e : PathNameError) : Failure := Failure.of e.message

end PartitionUnits
