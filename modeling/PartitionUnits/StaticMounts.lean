import PartitionUnits.Path
import PartitionUnits.Text.Lines

/-!
# Static mounts

The administrator's table of file systems, one per line.

## Main Definitions

* `StaticMount`, `StaticMounts` — a line, and the table
* `StaticMounts.parse` — reads the table
* `StaticMounts.hasType`, `StaticMounts.mountsAt` — the two questions asked of it

## Design Notes

A field may hold white space and other octets as a backslash and three octal digits.  The escapes
are undone on octets and the result is read as UTF-8, so an escaped character of several octets is
one character again.
-/

namespace PartitionUnits

open Text

/-- One line of the table. -/
structure StaticMount where
  source : String
  mountPoint : String
  fsType : String
  options : String
deriving DecidableEq, Repr, Inhabited

/-- The value of an octet that is an octal digit. -/
def octalValue? (b : UInt8) : Option Nat :=
  if 0x30 ≤ b ∧ b ≤ 0x37 then some (b.toNat - 0x30) else none

/-- The octet that three octal digits stand for, if they stand for one. -/
def octalOctet? (a b c : UInt8) : Option UInt8 := do
  let value := (← octalValue? a) * 64 + (← octalValue? b) * 8 + (← octalValue? c)
  if value < 256 then some (UInt8.ofNat value) else none

/-- Undo octal escapes; a backslash that does not begin one stands for itself. -/
def unescapeOctal : List UInt8 → List UInt8
  | 0x5C :: a :: b :: c :: rest =>
    match octalOctet? a b c with
    | some octet => octet :: unescapeOctal rest
    | none => 0x5C :: unescapeOctal (a :: b :: c :: rest)
  | b :: rest => b :: unescapeOctal rest
  | [] => []

namespace StaticMount

/-- A field of a line as the text it stands for. -/
def field (cs : List Char) : String := String.ofList (decodeLossy (unescapeOctal (encode cs)))

/-- A line of the table; `none` for a comment, a blank line and a line of one field. -/
def ofLine? (line : List Char) : Option StaticMount :=
  let trimmed := trim line
  if trimmed.head? = some '#' then none
  else
    match (words isBlank trimmed).map field with
    | source :: mountPoint :: rest =>
      some ⟨source, mountPoint, rest[0]?.getD "auto", rest[1]?.getD "defaults"⟩
    | _ => none

end StaticMount

/-- The table of file systems. -/
structure StaticMounts where
  mounts : List StaticMount := []
deriving DecidableEq, Repr, Inhabited

namespace StaticMounts

/-- Read the table. -/
def parse (content : String) : StaticMounts :=
  ⟨(lines content.toList).filterMap StaticMount.ofLine?⟩

/-- Whether some line has a file system type. -/
def hasType (t : StaticMounts) (fsType : String) : Bool := t.mounts.any (·.fsType = fsType)

/-- Whether some line mounts a path. -/
def mountsAt (t : StaticMounts) (p : Path) : Bool :=
  t.mounts.any fun m => (Path.ofText m.mountPoint).plainComponents = p.plainComponents

end StaticMounts

end PartitionUnits
