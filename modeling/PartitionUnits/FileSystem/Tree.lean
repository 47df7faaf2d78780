import PartitionUnits.Path

/-!
# The file system tree

Directories, regular files and symbolic links, each at a location below the root directory.

## Main Definitions

* `Content` — what a regular file holds
* `Entry` — a directory, a regular file or a link
* `Tree` — the entries by location
* `Tree.entry?`, `Tree.insert`, `Tree.erase` — look up, add and remove an entry

## Design Notes

The tree is flat: a location is the list of names from the root, and an entry stands beside its
location.  Adding an entry that was not there and removing it again gives back the same tree, not
only one with the same entries.  A disk image is kept as its size and the places where it is not
zero, because images are large.
-/

namespace PartitionUnits

/-- How a run of a program ends. -/
inductive Ending where
  | exited (code : Nat)
  | killed
deriving DecidableEq, Repr

/-- One run of a program: what it prints and how it ends. -/
structure ProgramRun where
  output : Octets := []
  errors : Octets := []
  ending : Ending := .exited 0
deriving DecidableEq, Repr

/-- A program, by what it does. -/
inductive Program where
  /-- It answers to its last argument. -/
  | answering (answers : List (Octets × ProgramRun)) (otherwise : ProgramRun)
  /-- It runs scripts. -/
  | shell
  /-- It is a utility that scripts know by the same name. -/
  | utility (name : String)
deriving DecidableEq, Repr

/-- What a regular file holds. -/
inductive Content where
  | octets (data : Octets)
  /-- Zero, except for the data placed at some offsets; later data cover earlier ones. -/
  | image (size : Nat) (data : List (Nat × Octets))
  | program (p : Program)
deriving DecidableEq, Repr

namespace Content

/-- Place data that begin at `start` over a stretch that begins at `offset`. -/
def cover (offset : Nat) (stretch : Octets) (start : Nat) (data : Octets) : Octets :=
  let visible := (data.drop (offset - start)).take (stretch.length - (start - offset))
  stretch.take (start - offset) ++ visible ++ stretch.drop (start - offset + visible.length)

/-- The number of octets in a file. -/
def size : Content → Nat
  | octets data => data.length
  | image size _ => size
  | program _ => 0

/-- A stretch of a file; `none` if the file ends before it does. -/
def read? (c : Content) (offset count : Nat) : Option Octets :=
  if c.size < offset + count then none
  else
    match c with
    | octets data => some ((data.drop offset).take count)
    | image _ data =>
      some (data.foldl (fun stretch (start, d) => cover offset stretch start d)
        (List.replicate count 0))
    | program _ => some []

/-- All of a file. -/
def all (c : Content) : Octets := (c.read? 0 c.size).getD []

end Content

/-- What is at a location: a directory or a file with its permissions, or a link. -/
inductive Entry where
  | directory (mode : Nat)
  | file (mode : Nat) (content : Content)
  | link (target : Octets)
deriving DecidableEq, Repr

/-- Whether an entry is a directory. -/
def Entry.isDirectory : Entry → Bool
  | directory _ => true
  | file .. | link _ => false

/-- The name of an entry in its directory. -/
abbrev Name := Octets

/-- The names from the root directory to an entry. -/
abbrev Location := List Name

namespace Location

/-- The path of a location. -/
def path (l : Location) : Path :=
  match l with
  | [] => ⟨[slash]⟩
  | _ => ⟨l.flatMap fun name => slash :: name⟩

end Location

/-- The entries of a file system by location. -/
structure Tree where
  entries : List (Location × Entry) := []
deriving DecidableEq, Repr, Inhabited

namespace Tree

/-- The permissions of a new directory. -/
def directoryMode : Nat := 0o755

/-- The permissions of a generated file. -/
def fileMode : Nat := 0o644

/-- What is at a location; the root directory is always there. -/
def entry? (t : Tree) (l : Location) : Option Entry :=
  if l = [] then some (.directory directoryMode) else t.entries.lookup l

/-- Whether a directory is at a location. -/
def isDirectoryAt (t : Tree) (l : Location) : Bool :=
  ((t.entry? l).map Entry.isDirectory).getD false

/-- The tree without what is at a location. -/
def erase (t : Tree) (l : Location) : Tree := ⟨t.entries.filter (·.1 ≠ l)⟩

/-- The tree with an entry at a location, in place of what was there. -/
def insert (t : Tree) (l : Location) (e : Entry) : Tree := ⟨(l, e) :: (t.erase l).entries⟩

/-- The tree without what is at a location and below it. -/
def eraseAll (t : Tree) (l : Location) : Tree := ⟨t.entries.filter (!l.isPrefixOf ·.1)⟩

/-- The names in a directory. -/
def names (t : Tree) (l : Location) : List Name :=
  t.entries.filterMap fun (at_, _) => if at_.dropLast = l then at_.getLast? else none

@[simp] theorem entry?_root (t : Tree) : t.entry? [] = some (.directory directoryMode) := rfl

/-- Removing what is not there changes nothing. -/
theorem erase_eq_self {t : Tree} {l : Location} (h : l ∉ t.entries.map Prod.fst) :
    t.erase l = t := by
  have hkeep : t.entries.filter (·.1 ≠ l) = t.entries :=
    List.filter_eq_self.2 fun x hx => by
      simp only [ne_eq, decide_eq_true_eq]
      rintro rfl
      exact h (List.mem_map_of_mem hx)
  simp only [erase, hkeep]

/-- Removing what was added where nothing was gives back the tree. -/
theorem erase_insert {t : Tree} {l : Location} (e : Entry) (h : l ∉ t.entries.map Prod.fst) :
    (t.insert l e).erase l = t := by
  have hdrop : (t.insert l e).erase l = (t.erase l).erase l := by simp [insert, erase]
  rw [hdrop, erase_eq_self h, erase_eq_self h]

end Tree

end PartitionUnits
