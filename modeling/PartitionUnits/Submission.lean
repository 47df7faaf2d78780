import PartitionUnits.FileSystem.NewFile
import PartitionUnits.Unit.Text

/-!
# Submission

A plan is applied to a directory as a whole: if any part of it cannot be, what was made before is
removed again.

## Main Definitions

* `Destination` — the directory, and what decides about checks
* `Action`, `Destination.actions` — what a plan makes, in order
* `applyActions` — makes it, or removes what was made
* `Destination.submit` — applies a plan

## Design Notes

All files come before any link to them, so that an interruption never leaves a link without the
files it needs.  Directories that were there already are used and never removed.  What was made is
removed in reverse order, and only then is the temporary file of the failed part let go.

A step fails here for what is in the tree.  A full disk or a missing right may stop a submission as
well, at any of its steps; what that leaves is said for single files only (`AllOrNothing`).
-/

namespace PartitionUnits

/-- Where plans are applied. -/
structure Destination where
  directory : Path
  inInitrd : Bool
  /-- Whether the program to check a file system type is there. -/
  hasHelper : String → Bool
  /-- What is drawn for the name of the temporary file of a new file. -/
  draws : Path → List Draw := fun _ => Draw.standard

/-- Something that a plan makes. -/
inductive Action where
  | makeFile (path : Path) (content : String) (draws : List Draw)
  /-- Make a directory unless it is there. -/
  | ensureDirectory (path : Path)
  | makeLink (target link : Path)
  /-- A dependency that no link can express. -/
  | refuse (edge : Edge)
deriving DecidableEq, Repr

/-- Something that was made. -/
inductive Artifact where
  | file (path : Path)
  | directory (path : Path)
deriving DecidableEq, Repr

/-- The path of an artifact. -/
def Artifact.path : Artifact → Path
  | file p | directory p => p

/-- The step that removes an artifact. -/
def Artifact.removal : Artifact → Change
  | file p => .removeFile p
  | directory p => .removeDirectory p

/-- Do one thing: what was made, if anything. -/
def Action.perform : Action → Script (Except Aborted (Option Artifact))
  | makeFile path content draws => do
    match ← newFile path (Text.encode content.toList) draws with
    | .ok () => return .ok (some (.file path))
    | .error a =>
      let failure := a.failure.during s!"Failed to create unit file {path.quoted}"
      return .error { a with failure }
  | ensureDirectory path => do
    match ← Script.perform (.makeDirectory path) with
    | .ok _ => return .ok (some (.directory path))
    | .error e =>
      let failed : Except Aborted (Option Artifact) :=
        .error { failure := e.failure.during s!"Failed to create directory {path.quoted}" }
      if e = .alreadyExists then
        match ← Script.perform (.checkDirectory path) with
        | .ok _ => return .ok none
        | .error _ => return failed
      else
        return failed
  | makeLink target link => do
    match ← Script.perform (.makeLink target link) with
    | .ok _ => return .ok (some (.file link))
    | .error e =>
      return .error { failure := e.failure.during s!"Failed to create symlink {link.quoted}" }
  | refuse e =>
    let refusal := s!"Cannot add {e.relation.setting} dependency of {e.source} on {e.target} " ++
      "without modifying it"
    return .error { failure := Failure.of refusal }

/-- Remove what was made, the latest first; what cannot be removed is reported. -/
def rollBack : List Artifact → Script (List Event)
  | [] => return []
  | a :: earlier => do
    match ← Script.perform a.removal with
    | .ok _ => rollBack earlier
    | .error e =>
      let events ← rollBack earlier
      let complaint := s!"Failed to remove {a.path.quoted} while rolling back: {e.message}"
      return ⟨.warning, .submission, complaint⟩ :: events

/-- Do one thing after the other, given what was made before, the latest first: all that was made,
or the failure after everything has been removed again. -/
def applyActions : List Artifact → List Action → Script (Traced (Except Aborted (List Artifact)))
  | made, [] => return { value := .ok made }
  | made, a :: rest => do
    match ← a.perform with
    | .ok artifact => applyActions (artifact.toList ++ made) rest
    | .error aborted =>
      let events ← rollBack made
      return { value := .error aborted, events }

namespace Destination

/-- A unit of a plan with what it waits for and its text. -/
structure Rendered where
  unit : UnitFile
  check : CheckDependency
deriving DecidableEq, Repr

/-- Decide about the check of each unit. -/
def render (d : Destination) (units : List UnitFile) : Attempt (List Rendered) :=
  units.mapM fun u => do
    match u.check with
    | some request => return ⟨u, ← request.resolve d.inInitrd d.hasHelper⟩
    | none => return ⟨u, .none⟩

/-- Make an entry's directory and then the entry. -/
def withDirectory (p : Path) (a : Action) : List Action :=
  p.parent?.toList.map .ensureDirectory ++ [a]

/-- The file of a unit. -/
def unitFile (d : Destination) (r : Rendered) : Action :=
  let p := d.directory.join (Path.ofText r.unit.name)
  .makeFile p (r.unit.text r.check) (d.draws p)

/-- The file of a drop-in and its directory. -/
def dropInFile (d : Destination) (dropIn : DropIn) : List Action :=
  let p := d.directory.join dropIn.path
  withDirectory p (.makeFile p dropIn.content (d.draws p))

/-- The link that declares a dependency of another unit on a unit. -/
def edgeLink (d : Destination) (u : UnitFile) (e : Edge) : List Action :=
  match e.relation.linkSuffix? with
  | none => [.refuse e]
  | some suffix =>
    let link := (d.directory.join (Path.ofText (e.source ++ suffix))).join (Path.ofText u.name)
    withDirectory link (.makeLink ((Path.ofText "..").join (Path.ofText u.name)) link)

/-- Where the service manager keeps the units of the system. -/
def systemUnits : Path := Path.ofText "/usr/lib/systemd/system"

/-- The link that pulls in the check of the root file system. -/
def rootCheckLink (d : Destination) : List Action :=
  let service := Path.ofText rootCheckService
  let link := (d.directory.join (Path.ofText (Milestone.localFs.unit ++ ".wants"))).join service
  withDirectory link (.makeLink (systemUnits.join service) link)

/-- The links of a unit. -/
def links (d : Destination) (r : Rendered) : List Action :=
  r.unit.reverseEdges.flatMap (d.edgeLink r.unit) ++
    if r.check = .rootLink then d.rootCheckLink else []

/-- Everything that a plan makes, in order: the files first, then the links. -/
def actions (d : Destination) (rendered : List Rendered) (dropIns : List DropIn) : List Action :=
  rendered.map d.unitFile ++ dropIns.flatMap d.dropInFile ++ rendered.flatMap d.links

/-- Apply a plan: all of it, or an error says why not. -/
def submit (d : Destination) (plan : Plan) : Script (Traced (Except Failure Unit)) :=
  let rendered := (d.render plan.units).run
  match rendered.value with
  | .error f => return { value := .error f, events := rendered.events }
  | .ok units => do
    let applied ← applyActions [] (d.actions units plan.dropIns)
    match applied.value with
    | .ok made =>
      let summary := s!"Created {made.length} files and directories"
      return {
        value := .ok ()
        events := rendered.events ++ applied.events ++ [⟨.debug, .submission, summary⟩] }
    | .error aborted =>
      aborted.release
      return { value := .error aborted.failure, events := rendered.events ++ applied.events }

end Destination

end PartitionUnits
