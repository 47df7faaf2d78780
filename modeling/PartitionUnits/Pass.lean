import PartitionUnits.Activation
import PartitionUnits.Partition.Election

/-!
# A pass

One pass finds the partitions next to the root partition and activates the roles they serve.

## Main Definitions

* `Site` — where a pass happens: how the machine is seen and how a plan is handed over
* `discover` — the elected partitions of the disk that holds the root file system
* `Site.run` — a whole pass

## Design Notes

The state `σ` is what handing over a plan changes; the machine is looked at anew for every
decision, so a pass sees what it has written itself.  A failure of one role is recorded and the
next role goes on.
-/

namespace PartitionUnits

/-- Where a pass happens. -/
structure Site (σ : Type) where
  /-- The machine as it is seen in a state. -/
  machine : σ → Machine
  /-- Hand over a plan: all of it is applied, or an error says why not. -/
  submit : Plan → σ → Traced (Except Failure Unit) × σ

/-- The device under the root file system, or under `/usr` if the root is on none. -/
def rootNumber (d : Devices) : Attempt (Option Device.Number) := do
  match ← (d.holding (Path.ofText "/")).during
      "Failed to determine block device of root file system" with
  | some number => return some number
  | none =>
    match ← (d.holding (Path.ofText "/usr")).during
        "Failed to determine block device of /usr file system" with
    | some number => return some number
    | none =>
      Attempt.log .debug .pass "Neither root nor /usr file system are on a (single) block device"
      return none

/-- The partition table of a disk, if it can be relied on. -/
def reliableTable (p : Probe) (disk : Device.Block) : Attempt (Option Partition.Table) := do
  match ← (p.table disk.node).during s!"{disk.node.quoted}: failed to probe" with
  | .ambiguous =>
    Attempt.log .warning .pass s!"{disk.node.quoted}: probe gave ambiguous results, ignoring"
    return none
  | .nothing =>
    Attempt.log .debug .pass s!"{disk.node.quoted}: no partition table found, ignoring"
    return none
  | .found table =>
    if table.isGpt then
      return some table
    else
      Attempt.log .debug .pass s!"{disk.node.quoted}: not a GPT partition table, ignoring"
      return none

/-- The elected partitions next to the root device. -/
def discoverBeside (m : Machine) (root : Device.Number) : Attempt (List (Rule × Assignment)) := do
  match ← m.devices.parentDisk root with
  | none => return []
  | some disk =>
    Attempt.log .debug .pass s!"Root device {root.text} is on {disk.node.quoted}"
    match ← reliableTable m.probe disk with
    | none => return []
    | some table =>
      let partitions ← (m.devices.partitions disk).during
        s!"{disk.node.quoted}: failed to enumerate partitions"
      liftM (elect m.guids root disk partitions table)

/-- The elected partitions of the disk that holds the root file system. -/
def discover (m : Machine) : Attempt (List (Rule × Assignment)) := do
  match ← rootNumber m.devices with
  | none => return []
  | some root => discoverBeside m root

namespace Site

variable {σ : Type} (site : Site σ)

/-- Carry out a decision. -/
def carryOut (decision : Attempt Decision) (s : σ) : Traced (Except Failure Outcome) × σ :=
  let decided := decision.run
  match decided.value with
  | .error f => ({ value := .error f, events := decided.events }, s)
  | .ok (.skip reason) => ({ value := .ok (.skipped reason), events := decided.events }, s)
  | .ok (.emit plan) =>
    let (submitted, s') := site.submit plan s
    ({ value := submitted.value.map fun _ => .emitted
       events := decided.events ++ submitted.events }, s')

/-- A pass under way: its status, its log, and the state. -/
structure Progress (σ : Type) where
  status : Traced Status
  state : σ

/-- Record the result for a subject. -/
def Progress.record {σ : Type} (p : Progress σ) (subject : String)
    (result : Traced (Except Failure Outcome)) (s : σ) : Progress σ :=
  { status := do
      let status ← p.status
      let outcome ← result
      status.record subject outcome
    state := s }

/-- Leave events behind. -/
def Progress.report {σ : Type} (p : Progress σ) (events : List Event) : Progress σ :=
  { p with status := { p.status with events := p.status.events ++ events } }

/-- Activate a role: decide on the machine as it is now, carry the decision out, record. -/
def activate (subject : String) (decision : Machine → Attempt Decision) (p : Progress σ) :
    Progress σ :=
  let (result, s) := site.carryOut (decision (site.machine p.state)) p.state
  p.record subject result s

/-- The part of a pass that sets up the root mount. -/
def activateRoot (settings : Settings) (p : Progress σ) : Progress σ :=
  if settings.rootEnabled then
    site.activate Role.root.id (fun m => decideRoot settings m.host) p
  else
    p.report [⟨.debug, .pass, "Root partition discovery disabled on the kernel command line"⟩]

/-- The subject that failures before the election are recorded under. -/
def discoverySubject : String := "partitions of the root disk"

/-- The part of a pass that finds partitions and activates their roles. -/
def activatePartitions (p : Progress σ) : Progress σ :=
  let found := (discover (site.machine p.state)).run
  match found.value with
  | .error f => p.record discoverySubject { value := .error f, events := found.events } p.state
  | .ok elected =>
    elected.foldl
      (fun p (rule, assignment) =>
        site.activate rule.role.id (fun m => rule.decide m assignment) p)
      (p.report found.events)

/-- A whole pass.  In the initrd the partitions are left for after the switch to the real root. -/
def run (settings : Settings) (s : σ) : Progress σ :=
  let started := site.activateRoot settings { status := pure {}, state := s }
  if (site.machine started.state).host.inInitrd then started
  else site.activatePartitions started

end Site

end PartitionUnits
