import PartitionUnits.FileSystem.Error
import PartitionUnits.FileSystem.Tree

/-!
# Finding entries

How a path leads to an entry, through links.

## Main Definitions

* `Tree.locate` — the location that a path leads to
* `Tree.slot` — where an entry of a path's last name is or would be
* `Tree.find`, `Tree.canonical`, `Tree.list` — what is found through paths

## Design Notes

A path is walked name by name.  A link stands for the names of its target, and a walk may pass at
most `maxLinks` of them; the recursion is on that number outside and on the names inside, so no
walk needs fuel.  A slash at the end of a path asks for a directory, which is what a lone dot as
the last name asks for too.
-/

namespace PartitionUnits

namespace Path

/-- The names of a path, lone dots and double dots included. -/
def names (p : Path) : List Name := p.segments.filter (· ≠ [])

/-- Whether a path has names and ends in a slash. -/
def asksForDirectory (p : Path) : Bool :=
  p.names ≠ [] && p.octets.getLast? = some slash

/-- The names to walk, with a lone dot for a slash at the end. -/
def steps (p : Path) : List Name := p.names ++ if p.asksForDirectory then [[dot]] else []

/-- The longest path that the system takes, in octets. -/
def maxLength : Nat := 4095

/-- Why a path cannot be walked at all. -/
def fault? (p : Path) : Option FileError :=
  if 0 ∈ p.octets then some .nulOctet
  else if p.octets = [] then some .notFound
  else if p.octets.length > maxLength then some .nameTooLong
  else none

end Path

namespace Tree

/-- The longest name in a directory, in octets. -/
def maxNameLength : Nat := 255

/-- The most links on one walk. -/
def maxLinks : Nat := 40

/-- Walk names from a location.  What to do at a link that is to be followed is left to
`atLink`, which is given the link's directory, its target and the names that remain. -/
def walkWith (t : Tree) (follow : Bool)
    (atLink : Location → Path → List Name → Except FileError Location) :
    Location → List Name → Except FileError Location
  | here, [] => .ok here
  | here, name :: rest =>
    if !t.isDirectoryAt here then .error .notDirectory
    else if name = [dot] then walkWith t follow atLink here rest
    else if name = [dot, dot] then walkWith t follow atLink here.dropLast rest
    else if name.length > maxNameLength then .error .nameTooLong
    else
      match t.entry? (here ++ [name]) with
      | none => .error .notFound
      | some (.link target) =>
        if rest = [] && !follow then .ok (here ++ [name]) else atLink here ⟨target⟩ rest
      | some _ => walkWith t follow atLink (here ++ [name]) rest

/-- Walk names from a location, past at most `links` links. -/
def walk (t : Tree) (follow : Bool) : Nat → Location → List Name → Except FileError Location
  | 0 => t.walkWith follow fun _ _ _ => .error .tooManyLinks
  | links + 1 => t.walkWith follow fun here target rest =>
      t.walk follow links (if target.isAbsolute then [] else here) (target.steps ++ rest)

/-- The location that a path leads to, through a link at its end or not.  Relative paths start at
the root directory. -/
def locate (t : Tree) (follow : Bool) (p : Path) : Except FileError Location :=
  match p.fault? with
  | some e => .error e
  | none => t.walk follow maxLinks [] p.steps

/-- The entry that a path leads to. -/
def find (t : Tree) (follow : Bool) (p : Path) : Except FileError Entry := do
  let l ← t.locate follow p
  match t.entry? l with
  | some e => .ok e
  | none => .error .notFound

/-- Whether a path leads to anything. -/
def existsAt (t : Tree) (p : Path) : Bool := (t.find true p).toBool

/-- Whether a path leads to a directory. -/
def isDirectory (t : Tree) (p : Path) : Bool :=
  match t.find true p with
  | .ok (.directory _) => true
  | _ => false

/-- The path without links to what a path leads to. -/
def canonical (t : Tree) (p : Path) : Except FileError Path := (t.locate true p).map Location.path

/-- The names in the directory that a path leads to. -/
def list (t : Tree) (p : Path) : Except FileError (List Name) := do
  let l ← t.locate true p
  if t.isDirectoryAt l then .ok (t.names l) else .error .notDirectory

/-- Where the last name of a path is or would be. -/
structure Slot where
  directory : Location
  /-- The last name; `none` if the path ends at a directory that has no name there: the root, a
  lone dot or a double dot. -/
  name? : Option Name
  /-- Whether the path ends in a slash. -/
  asksForDirectory : Bool
deriving DecidableEq, Repr

/-- Find the directory that a path's last name is in. -/
def slot (t : Tree) (p : Path) : Except FileError Slot :=
  match p.fault? with
  | some e => .error e
  | none =>
    match p.names.getLast? with
    | none => .ok ⟨[], none, false⟩
    | some name => do
      let directory ← t.walk true maxLinks [] p.names.dropLast
      if !t.isDirectoryAt directory then .error .notDirectory
      else if name = [dot] ∨ name = [dot, dot] then .ok ⟨directory, none, p.asksForDirectory⟩
      else .ok ⟨directory, some name, p.asksForDirectory⟩

end Tree

end PartitionUnits
