import PartitionUnits.FileSystem.Lookup

/-!
# Changes

The single steps by which the file system changes.  Each happens as a whole or not at all.

## Main Definitions

* `Draw` — what is drawn for the end of a temporary file's name
* `Change` — a step
* `Tree.apply` — the tree after a step, and the path it acted on or why it failed

## Design Notes

A step answers with the path that it acted on, which for a temporary file is the path of the first
drawn name that is not taken.  What is drawn comes with the step, so a run is determined by its
steps and a statement can speak of every draw.  A failed step leaves the tree as it was: this is
`apply_error`.  Asking whether a path leads to a directory is a step too, since what the answer is
depends on when it is asked.
-/

namespace PartitionUnits

/-- The text that the names of temporary files start with. -/
def temporaryMark : List Char := ".#gpt-auto-".toList

/-- The start of the names of temporary files. -/
def temporaryStart : Name := Text.encode temporaryMark

/-- Whether an octet can be drawn: it is a letter or a digit. -/
def isDrawable (b : UInt8) : Bool :=
  (0x30 ≤ b && b ≤ 0x39) || (0x41 ≤ b && b ≤ 0x5A) || (0x61 ≤ b && b ≤ 0x7A)

/-- What is drawn for the end of a temporary file's name: six letters or digits. -/
structure Draw where
  octets : Octets
  length_eq : octets.length = 6
  drawable : ∀ b ∈ octets, isDrawable b = true
deriving DecidableEq, Repr

namespace Draw

/-- The name of the temporary file for which this was drawn. -/
def name (draw : Draw) : Name := temporaryStart ++ draw.octets

/-- A digit of base 10 as an octet. -/
def digit (i : Fin 10) : UInt8 := 0x30 + UInt8.ofNat i

theorem isDrawable_digit : ∀ i : Fin 10, isDrawable (digit i) = true := by decide

/-- The last six digits of a number. -/
def ofNumber (n : Nat) : Draw where
  octets := [100000, 10000, 1000, 100, 10, 1].map fun place => digit (Fin.ofNat 10 (n / place))
  length_eq := rfl
  drawable := by
    intro b hb
    obtain ⟨place, -, rfl⟩ := List.mem_map.mp hb
    exact isDrawable_digit _

/-- Draws for runs that need no others; where they begin does not matter. -/
def standard : List Draw := (List.range 4096).map fun n => ofNumber (271828 + n)

end Draw

/-- A single step on the file system. -/
inductive Change where
  /-- Make an empty file in a directory, of the first drawn name that is not taken. -/
  | createTemporary (directory : Path) (draws : List Draw)
  /-- Put content into a file. -/
  | write (file : Path) (content : Octets)
  /-- Set the permissions of a file. -/
  | setMode (file : Path) (mode : Nat)
  /-- Give a file another name, which must not be taken. -/
  | rename (file target : Path)
  | makeDirectory (directory : Path)
  | makeLink (target link : Path)
  | removeFile (file : Path)
  | removeDirectory (directory : Path)
  /-- Ask whether a path leads to a directory. -/
  | checkDirectory (directory : Path)
deriving DecidableEq, Repr

namespace Tree

/-- The location of a regular file that a path leads to, not through a link at its end. -/
def fileAt (t : Tree) (p : Path) : Except FileError (Location × Nat × Content) := do
  let l ← t.locate false p
  match t.entry? l with
  | some (.file mode content) => .ok (l, mode, content)
  | some (.directory _) => .error .isDirectory
  | some (.link _) => .error .tooManyLinks
  | none => .error .notFound

/-- The location for a new entry of a path's last name, which must not be taken. -/
def vacancy (t : Tree) (p : Path) : Except FileError (Location × Bool) := do
  let s ← t.slot p
  match s.name? with
  | none => .error .alreadyExists
  | some name =>
    if name.length > maxNameLength then .error .nameTooLong
    else if (t.entry? (s.directory ++ [name])).isSome then .error .alreadyExists
    else .ok (s.directory ++ [name], s.asksForDirectory)

/-- Make an empty file that only its owner can use, of the first drawn name that is not taken. -/
def createTemporary (t : Tree) (directory : Path) : List Draw → Except FileError (Tree × Path)
  | [] => .error .allNamesTaken
  | draw :: rest =>
    let file := directory.join ⟨draw.name⟩
    match t.vacancy file with
    | .ok (l, _) => .ok (t.insert l (.file 0o600 (.octets [])), file)
    | .error .alreadyExists => createTemporary t directory rest
    | .error e => .error e

/-- Put content into a file. -/
def write (t : Tree) (file : Path) (content : Octets) : Except FileError Tree := do
  let (l, mode, _) ← t.fileAt file
  .ok (t.insert l (.file mode (.octets content)))

/-- Set the permissions of a file. -/
def setMode (t : Tree) (file : Path) (mode : Nat) : Except FileError Tree := do
  let (l, _, content) ← t.fileAt file
  .ok (t.insert l (.file mode content))

/-- Give a file another name, which must not be taken. -/
def rename (t : Tree) (file target : Path) : Except FileError Tree := do
  let (l, mode, content) ← t.fileAt file
  let (l', asksForDirectory) ← t.vacancy target
  if asksForDirectory then .error .notDirectory
  else .ok ((t.erase l).insert l' (.file mode content))

/-- Make a directory. -/
def makeDirectory (t : Tree) (directory : Path) : Except FileError Tree := do
  let (l, _) ← t.vacancy directory
  .ok (t.insert l (.directory directoryMode))

/-- Make a link. -/
def makeLink (t : Tree) (target link : Path) : Except FileError Tree :=
  match target.fault? with
  | some e => .error e
  | none => do
    let (l, asksForDirectory) ← t.vacancy link
    if asksForDirectory then .error .notFound else .ok (t.insert l (.link target.octets))

/-- Remove a file or a link. -/
def removeFile (t : Tree) (file : Path) : Except FileError Tree := do
  let s ← t.slot file
  match s.name? with
  | none => .error .isDirectory
  | some name =>
    match t.entry? (s.directory ++ [name]) with
    | none => .error .notFound
    | some (.directory _) => .error .isDirectory
    | some _ =>
      if s.asksForDirectory then .error .notDirectory else .ok (t.erase (s.directory ++ [name]))

/-- Remove an empty directory. -/
def removeDirectory (t : Tree) (directory : Path) : Except FileError Tree := do
  let s ← t.slot directory
  match s.name? with
  | none => .error .invalid
  | some name =>
    let l := s.directory ++ [name]
    match t.entry? l with
    | none => .error .notFound
    | some (.directory _) => if t.names l = [] then .ok (t.erase l) else .error .notEmpty
    | some _ => .error .notDirectory

/-- The path that a step on a given path answers with. -/
def answerAt (p : Path) (r : Except FileError Tree) : Except FileError (Tree × Path) :=
  r.map fun t => (t, p)

/-- The tree after a step and the path it acted on, or why it failed. -/
def attempt (t : Tree) : Change → Except FileError (Tree × Path)
  | .createTemporary directory draws => t.createTemporary directory draws
  | .write file content => answerAt file (t.write file content)
  | .setMode file mode => answerAt file (t.setMode file mode)
  | .rename file target => answerAt target (t.rename file target)
  | .makeDirectory directory => answerAt directory (t.makeDirectory directory)
  | .makeLink target link => answerAt link (t.makeLink target link)
  | .removeFile file => answerAt file (t.removeFile file)
  | .removeDirectory directory => answerAt directory (t.removeDirectory directory)
  | .checkDirectory directory =>
    if t.isDirectory directory then .ok (t, directory) else .error .notDirectory

/-- Take a step: the answer, and the tree afterwards. -/
def apply (t : Tree) (c : Change) : Except FileError Path × Tree :=
  match t.attempt c with
  | .ok (t', p) => (.ok p, t')
  | .error e => (.error e, t)

/-- A failed step changes nothing. -/
theorem apply_error {t : Tree} {c : Change} {e : FileError} (h : (t.apply c).1 = .error e) :
    (t.apply c).2 = t := by
  unfold apply at h ⊢
  split at h
  · simp at h
  · rfl

end Tree

end PartitionUnits
