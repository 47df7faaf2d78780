import PartitionUnits.KernelArguments
import PartitionUnits.Log
import PartitionUnits.Text.Quoted

/-!
# Settings

The kernel command line switches the whole program and the root mount on and off.

## Main Definitions

* `Settings` — what one pass is told
* `Settings.apply` — the effect of one argument
* `Settings.ofCommandLine` — the effect of all of them, in order

## Design Notes

An argument acts only in the form it is known in: `rw` is the bare key, `root` needs a value.  A
later argument overrides an earlier one, each field by its own arguments.
-/

namespace PartitionUnits

open Text

/-- What one pass is told. -/
structure Settings where
  /-- Whether to do anything at all. -/
  enabled : Bool := true
  /-- Whether to mount the root partition that the firmware points to. -/
  rootEnabled : Bool := true
  /-- Whether to mount the root partition writable. -/
  rootWritable : Bool := false
  /-- Whether to log at debug level. -/
  verbose : Bool := false
deriving DecidableEq, Repr, Inhabited

namespace Settings

/-- The value of `root` that leaves the choice of the root partition to the firmware. -/
def automaticRoot : String := "gpt-auto"

/-- Whether a key is one of the two main switches. -/
def isMainSwitch (key : String) : Bool :=
  key = "systemd.gpt_auto" || key = "rd.systemd.gpt_auto"

/-- The settings after one more argument. -/
def apply (s : Settings) (a : KernelArgument) : Settings :=
  match a.value with
  | some value =>
    if isMainSwitch a.key then { s with enabled := (parseSwitch? value).getD s.enabled }
    else if a.key = "root" then { s with rootEnabled := value = automaticRoot }
    else if a.key = "systemd.log_level" then { s with verbose := value = "debug" }
    else s
  | none =>
    if a.key = "rw" then { s with rootWritable := true }
    else if a.key = "ro" then { s with rootWritable := false }
    else if a.key = "debug" then { s with verbose := true }
    else s

/-- The event that an argument leaves: a main switch may have a value that is no switch. -/
def eventsOf (a : KernelArgument) : List Event :=
  match a.value with
  | some value =>
    if isMainSwitch a.key ∧ parseSwitch? value = none then
      [⟨.warning, .settings, s!"Failed to parse gpt-auto switch {quoted value}, ignoring"⟩]
    else []
  | none => []

/-- The settings that a kernel command line asks for. -/
def ofCommandLine (line : String) : Traced Settings :=
  let arguments := KernelArgument.split line
  { value := arguments.foldl apply {}, events := arguments.flatMap eventsOf }

end Settings

end PartitionUnits
