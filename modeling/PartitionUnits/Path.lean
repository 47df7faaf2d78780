import PartitionUnits.Text.Blank
import PartitionUnits.Text.Quoted

/-!
# Paths

A path is a sequence of octets.  Its meaning is a list of components; its text matters where it is
shown.

## Main Definitions

* `Path` — the octets of a path
* `Path.components` — what a path names, step by step
* `Path.SameAs` — two paths with the same components
* `Path.join` — a path below another one
* `Path.parent?` — the path without its last component

## Design Notes

Repeated and trailing slashes and inner `.` components do not matter to the components of a path.
A `.` at the start of a relative path does: `./a` and `a` differ.  `Path.parent?` keeps the text of
the path up to the end of the component before the last one, so that a message shows the parent as
it was written.
-/

namespace PartitionUnits

open Text

/-- A file name or a path as octets; none of them need to be text. -/
abbrev Octets := List UInt8

/-- The octet `/`. -/
def slash : UInt8 := 0x2F

/-- The octet `.`. -/
def dot : UInt8 := 0x2E

/-- A path in the file system. -/
structure Path where
  octets : Octets
deriving DecidableEq, Repr, Inhabited

/-- One step of a path. -/
inductive Component where
  | root
  | here
  | up
  | name (octets : Octets)
deriving DecidableEq, Repr

namespace Path

/-- The path written as a text. -/
def ofText (s : String) : Path := ⟨encode s.toList⟩

/-- The path as a text, with a replacement character for each ill-formed group of octets. -/
def text (p : Path) : String := String.ofList (decodeLossy p.octets)

/-- The path in quotes. -/
def quoted (p : Path) : String := quotedOctets p.octets

/-- Whether the path starts at the root directory. -/
def isAbsolute (p : Path) : Bool := p.octets.head? = some slash

/-- The pieces between the slashes of a path, those that say nothing included. -/
def segments (p : Path) : List Octets :=
  (if p.isAbsolute then p.octets.tail else p.octets).splitOn slash

/-- Whether a piece between slashes says nothing: it is empty or a lone dot. -/
def isFiller (segment : Octets) : Bool := segment = [] || segment = [dot]

/-- Whether a relative path starts with a lone dot. -/
def startsHere (p : Path) : Bool := !p.isAbsolute && p.segments.head? = some [dot]

/-- One piece between slashes as a component. -/
def componentOf (segment : Octets) : Component :=
  if segment = [dot, dot] then .up else .name segment

/-- What the path names, step by step. -/
def components (p : Path) : List Component :=
  (if p.isAbsolute then [.root] else if p.startsHere then [.here] else []) ++
    (p.segments.filter (!isFiller ·)).map componentOf

/-- The components of a path without a leading lone dot. -/
def plainComponents (p : Path) : List Component := p.components.filter (· ≠ .here)

/-- Two paths are the same if their components are. -/
def SameAs (p q : Path) : Prop := p.components = q.components

instance (p q : Path) : Decidable (p.SameAs q) := inferInstanceAs (Decidable (_ = _))

/-- A path below another one; an absolute path stands for itself. -/
def join (p q : Path) : Path :=
  if q.isAbsolute then q
  else if p.octets = [] ∨ p.octets.getLast? = some slash then ⟨p.octets ++ q.octets⟩
  else ⟨p.octets ++ slash :: q.octets⟩

/-- The pieces of a path without those at the end that say nothing. -/
def dropFillers (segments : List Octets) : List Octets :=
  (segments.reverse.dropWhile isFiller).reverse

/-- The path without its last component; `none` for the root directory and the empty path. -/
def parent? (p : Path) : Option Path :=
  let lead : Octets := if p.isAbsolute then [slash] else []
  match dropFillers p.segments with
  | [] => if p.startsHere then some ⟨[]⟩ else none
  | kept =>
    match dropFillers kept.dropLast with
    | [] => some ⟨if p.startsHere then [dot] else lead⟩
    | before => some ⟨lead ++ [slash].intercalate before⟩

end Path

end PartitionUnits
