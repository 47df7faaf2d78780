import PartitionUnits.ArgumentSource
import PartitionUnits.LiveSite
import PartitionUnits.Usage

/-!
# The program

What the program does from its arguments to its exit code.

## Main Definitions

* `Threshold` — which events are shown
* `Ended` — how the program ended
* `runProgram` — the whole program

## Design Notes

The program ends early, without touching any file, if its arguments are not understood or ask for
help, in a container, and if the kernel command line switches it off.  Events are shown by the
threshold that is in force when they happen; a verbose configuration changes it from then on.
-/

namespace PartitionUnits

open Text

/-- The least level that is shown; `none` shows nothing. -/
abbrev Threshold := Option Level

/-- The levels in order. -/
def Level.rank : Level → Nat
  | .debug => 0
  | .info => 1
  | .warning => 2
  | .error => 3

/-- Whether an event is shown. -/
def Threshold.shows (t : Threshold) (e : Event) : Bool :=
  match t with
  | none => false
  | some least => least.rank ≤ e.level.rank

/-- The threshold with a name. -/
def Threshold.ofName? (name : String) : Option Threshold :=
  match name with
  | "off" => some none
  | "error" => some (some .error)
  | "warn" => some (some .warning)
  | "info" => some (some .info)
  | "debug" => some (some .debug)
  | _ => none

/-- The threshold that the environment sets, or else a standard one. -/
def World.threshold (w : World) (standard : Level) : Threshold :=
  ((w.textVariable? "RUST_LOG").bind Threshold.ofName?).getD (some standard)

/-- How a run of the program ended. -/
structure Ended where
  exitCode : Nat
  /-- The events that were shown. -/
  shown : List Event := []
  world : World

/-- A pass over the running machine, into a directory. -/
def livePass (settings : Settings) (directory : Path) (w : World) : Site.Progress World :=
  (liveSite w.beginning directory).run settings w

/-- The settings of the program: those of the kernel command line, or the standard ones if it
cannot be read. -/
def programSettings (source : ArgumentSource) (w : World) : Traced Settings :=
  let read := (source.settings w).run
  match read.value with
  | .ok settings => { value := settings, events := read.events }
  | .error f =>
    let complaint := s!"Failed to parse kernel command line, ignoring: {f.message}"
    { value := {}, events := read.events ++ [⟨.warning, .program, complaint⟩] }

/-- The exit code after a pass. -/
def Status.exitCode (s : Status) : Nat := if s.isSuccess then 0 else 1

/-- The program with its directory and its settings: the exit code, and the files afterwards. -/
def runConfigured (settings : Settings) (source : ArgumentSource) (directory : Path) (w : World) :
    Traced Nat × World :=
  let announced : Event := ⟨.debug, .program, s!"Using kernel command line from {source.shown}"⟩
  if !settings.enabled then
    ({ value := 0, events := [announced, ⟨.debug, .program, "Disabled, exiting"⟩] }, w)
  else
    let writing : Event := ⟨.debug, .program, s!"Writing units to {directory.quoted}"⟩
    let finished := livePass settings directory w
    ({ value := finished.status.value.exitCode
       events := announced :: writing :: finished.status.events }, finished.state)

/-- The program outside a container. -/
def runOutside (directory : Path) (w : World) : Ended :=
  let source := ArgumentSource.standard w
  let settings := programSettings source w
  let first := w.threshold .info
  let switched : List Event :=
    if settings.value.verbose then [⟨.info, .program, "Log level set to DEBUG"⟩] else []
  let second := if settings.value.verbose then w.threshold .debug else first
  let (ended, world) := runConfigured settings.value source directory w
  { exitCode := ended.value
    shown := settings.events.filter first.shows ++ (switched ++ ended.events).filter second.shows
    world }

/-- The whole program, with a reader of its arguments. -/
def runProgram (reader : ArgumentReader) (arguments : List Octets) (w : World) : Ended :=
  match reader.read Usage.positionals arguments with
  | .error stop => { exitCode := reader.exitCode stop, world := w }
  | .ok values =>
    let contained := w.inContainer
    let first := w.threshold .info
    if contained.value then
      let leaving : Event := ⟨.debug, .program, "In a container, exiting"⟩
      { exitCode := 0, shown := (contained.events ++ [leaving]).filter first.shows, world := w }
    else
      let ended := runOutside (Usage.ofValues values).destination w
      { ended with shown := contained.events.filter first.shows ++ ended.shown }

end PartitionUnits
