import PartitionUnits.Command
import PartitionUnits.Device.Number
import PartitionUnits.FileSystem.Refusals
import PartitionUnits.Gpt.Table
import PartitionUnits.MountTable
import PartitionUnits.Shell.Run

/-!
# Worlds

The surroundings that the running machine is read from: its files, its environment, and the devices
under its file systems.

## Main Definitions

* `Readers` — how the formats of others are read
* `World` — the surroundings
* `World.status`, `World.resolve`, `World.opened`, `World.list`, … — what is asked of its files
* `Program.run` — what a program does
* `World.which?`, `World.start` — find a program, and run one

## Design Notes

What the system or a format of others decides is a parameter of the world: the order in which a
directory is listed, because none is promised, the lookups that are refused, and the readers of
GUIDs, disks and the mount table.  Statements about all worlds are about all of these.

Refusals are for lookups; a directory is listed as a whole, so one that breaks off is one that is
refused.  The steps that change files (`Change`) fail for reasons that are in the tree and for no
others: a step that is refused for another reason is left out here, but for the making of one file,
which `AllOrNothing` shows to be safe whatever is refused.
-/

namespace PartitionUnits

open Text

/-- How the formats of others are read. -/
structure Readers where
  guids : Guid.Reader := Guid.readForms
  disks : Gpt.Reader := Gpt.readStandard
  mounts : MountTable.Reader := MountTable.readLines

/-- The surroundings of the program. -/
structure World where
  tree : Tree := {}
  refusals : Refusals := .none
  readers : Readers := {}
  environment : List (String × Octets) := []
  /-- The device under the file system at a path, or why it cannot be told. -/
  devicesBelow : List (Path × Except FileError Device.Number) := []
  /-- The order in which the names of a directory are listed. -/
  listingOrder : Path → List Name → List Name := fun _ names => names

/-- The run with an exit code that the system can pass on. -/
def ProgramRun.normal (r : ProgramRun) : ProgramRun :=
  match r.ending with
  | .exited code => { r with ending := .exited (code % 256) }
  | .killed => r

/-- The run of a program under a name, with arguments and an environment. -/
def Program.run (name : Octets) (arguments : List Octets) (environment : List (String × Octets)) :
    Program → ProgramRun
  | answering answers otherwise =>
    ((arguments.getLast?.bind (List.lookup · answers)).getD otherwise).normal
  | shell => Shell.run name arguments environment
  | utility known =>
    match Shell.utility? ⟨known, 0⟩ known (arguments.map Shell.charsOf) with
    | some e =>
      ({ output := Shell.octetsOf e.output
         errors := Shell.octetsOf e.errors
         ending := e.ending.getD (.exited e.status) } : ProgramRun)
    | none => {}

namespace World

/-- The value of an environment variable. -/
def environmentValue? (w : World) (name : String) : Option Octets := w.environment.lookup name

/-- The value of an environment variable, if it is text. -/
def textVariable? (w : World) (name : String) : Option String :=
  ((w.environmentValue? name).bind decode?).map String.ofList

/-- What is at a path, where a link stands for itself. -/
def status (w : World) (p : Path) : Except FileError Entry :=
  w.refusals.answer .status p (w.tree.find false p)

/-- What a path leads to. -/
def target (w : World) (p : Path) : Except FileError Entry :=
  w.refusals.answer .target p (w.tree.find true p)

/-- Whether a path leads to anything. -/
def existsAt (w : World) (p : Path) : Bool := (w.target p).toBool

/-- Whether a path leads to a regular file. -/
def isFile (w : World) (p : Path) : Bool :=
  match w.target p with
  | .ok (.file ..) => true
  | _ => false

/-- The path without links to what a path leads to. -/
def resolve (w : World) (p : Path) : Except FileError Path :=
  w.refusals.answer .resolution p (w.tree.canonical p)

/-- What comes of opening what a path leads to, and then of reading it: a directory can be opened
but holds no octets. -/
def opened (w : World) (p : Path) : Except FileError (Except FileError Content) := do
  match ← w.refusals.answer .opening p (w.tree.find true p) with
  | .file _ content => .ok (w.refusals.answer .reading p (.ok content))
  | .directory _ => .ok (.error .isDirectory)
  | .link _ => .error .tooManyLinks

/-- The octets of the file that a path leads to. -/
def readOctets (w : World) (p : Path) : Except FileError Octets := do
  (← w.opened p).map Content.all

/-- The text of the file that a path leads to. -/
def readText (w : World) (p : Path) : Except FileError String := do
  match decode? (← w.readOctets p) with
  | some cs => .ok (String.ofList cs)
  | none => .error .notText

/-- The names in a directory. -/
def children (w : World) (p : Path) : Except FileError (List Name) :=
  w.refusals.answer .listing p (w.tree.list p)

/-- The names in a directory, in the order of the world. -/
def list (w : World) (p : Path) : Except FileError (List Name) :=
  (w.children p).map (w.listingOrder p)

/-- Whether a path leads to something that a user of all permissions can execute or enter. -/
def isExecutable (w : World) (p : Path) : Bool :=
  match w.target p with
  | .ok (.directory _) => true
  | .ok (.file mode _) => mode &&& 0o111 ≠ 0
  | _ => false

/-- The directories to look for programs in. -/
def searchPath (w : World) : List Path :=
  (((w.environmentValue? "PATH").getD []).splitOn 0x3A).map fun directory => ⟨directory⟩

/-- The program of a name: in the first directory of the search path that has it, or relative to
the root directory if the name has a slash in it. -/
def which? (w : World) (name : String) : Option Path :=
  let p := Path.ofText name
  let candidates :=
    if slash ∈ p.octets then [(⟨[slash]⟩ : Path).join p]
    else w.searchPath.map (·.join p)
  candidates.find? w.isExecutable

/-- The program that runs a script, from the script's first line. -/
def interpreter? (data : Octets) : Option Path :=
  match data with
  | 0x23 :: 0x21 :: rest =>
    let line := (rest.takeWhile (· ≠ 0x0A)).dropWhile fun b => b = 0x20 || b = 0x09
    some ⟨line.takeWhile fun b => b ≠ 0x20 && b ≠ 0x09⟩
  | _ => none

/-- The environment of commands, in which messages are plain. -/
def commandEnvironment (w : World) : List (String × Octets) :=
  ("LC_ALL", encode ['C']) :: w.environment

/-- What comes of executing a file as it is, under a name: only programs run. -/
def execute (w : World) (p : Path) (name : Octets) (arguments : List Octets) :
    Except FileError ProgramRun := do
  match ← w.target p with
  | .directory _ | .link _ => .error .permission
  | .file mode content =>
    if mode &&& 0o111 = 0 then .error .permission
    else
      match content with
      | .program program => .ok (program.run name arguments w.commandEnvironment)
      | .image .. => .error .execFormat
      | .octets data =>
        match interpreter? data with
        | none => .error .execFormat
        | some interpreter =>
          match w.target interpreter with
          | .error e => .error e
          | .ok (.file mode _) =>
            if mode &&& 0o111 = 0 then .error .permission else .error .execFormat
          | .ok _ => .error .permission

/-- Execute the first of some files that can be; a file that must not be executed is remembered. -/
def executeFirst (w : World) (name : Octets) (arguments : List Octets) :
    FileError → List Path → Except FileError ProgramRun
  | last, [] => .error last
  | last, p :: rest =>
    match w.execute p name arguments with
    | .error .notFound | .error .notDirectory => executeFirst w name arguments last rest
    | .error .permission => executeFirst w name arguments .permission rest
    | outcome => outcome

/-- Start a command; a program without a slash in its name is looked for. -/
def start (w : World) (c : Command) : Except FileError ProgramRun :=
  if (c.program :: c.arguments).any (0 ∈ ·) then .error .nulInArgument
  else if c.program = [] then .error .notFound
  else if slash ∈ c.program then w.execute ⟨c.program⟩ c.program c.arguments
  else
    w.executeFirst c.program c.arguments .notFound (w.searchPath.map (·.join ⟨c.program⟩))

/-- The device under the file system at a path; a path that is not known does not exist. -/
def deviceBelow (w : World) (p : Path) : Except FileError Device.Number :=
  (w.devicesBelow.lookup p).getD (.error .notFound)

end World

end PartitionUnits
