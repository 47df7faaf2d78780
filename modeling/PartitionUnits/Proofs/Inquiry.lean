import PartitionUnits.Proofs.BootMount

/-!
# Inquiries

Which questions a decision asks, in which order, and which it does not ask any more.

## Main Definitions

* `Query`, `Machine.answer` — a question that may be refused, and what comes of asking it
* `Inquiry` — questions that are asked one after the other, each by the answers so far
* `Inquiry.run`, `Inquiry.happenings` — what an inquiry comes to, and what happens on the way
* `rootInquiry`, `Rule.inquiry`, `discoveryInquiry` — the inquiries of a pass
* `matches_rootInquiry`, `matches_inquiry`, `matches_discoveryInquiry` — the decisions of a pass are
  what these inquiries come to

## Design Notes

A decision is a function of all answers of the machine, whether it needs them or not.  An inquiry
is the same decision as a tree, with a question at each node, so that the questions that were asked
can be read off a branch.  Looking at a mount point is kept apart from the other questions: it gives
a yes or no in any case, and when it fails, that is the yes.

What an inquiry ends with is no failure.  So a decision fails for no other reason than that the last
question it asked was refused.
-/

namespace PartitionUnits

open Attempt
open Device (Block)
open PartitionUnits.Partition (Table)

variable {m : Machine} {α : Type}

/-- A question whose refusal is a failure. -/
inductive Query where
  | loaderPartition
  | staticMounts
  | holding (p : Path)
  | parentDisk (n : Device.Number)
  | table (disk : Path)
  | partitions (disk : Block)
  | filesystem (device : Path)
  | entry (device : Path)
  /-- What a unit for a device node is called; this is asked of no one but the node's name. -/
  | unitName (node suffix : String)
deriving DecidableEq

/-- What a question is answered with. -/
abbrev Query.Answer : Query → Type
  | loaderPartition => Option Guid
  | staticMounts => StaticMounts
  | holding _ => Option Device.Number
  | parentDisk _ => Option Block
  | table _ => Probed Table
  | partitions _ => List Block
  | filesystem _ => Probed FilesystemInfo
  | entry _ => Probed EntryInfo
  | unitName .. => String

/-- **What comes of asking** a machine. -/
def Machine.answer (m : Machine) : (q : Query) → Except Failure q.Answer
  | .loaderPartition => m.host.loaderPartition
  | .staticMounts => m.host.staticMounts
  | .holding p => (m.devices.holding p).run.value
  | .parentDisk n => (m.devices.parentDisk n).run.value
  | .table disk => (m.probe.table disk).run.value
  | .partitions disk => (m.devices.partitions disk).run.value
  | .filesystem device => (m.probe.filesystem device).run.value
  | .entry device => (m.probe.entry device).run.value
  | .unitName node suffix => (UnitName.ofPath node suffix).mapError PathNameError.failure

/-- The failure that a result is, if it is one. -/
def failure? : Except Failure α → Option Failure
  | .ok _ => none
  | .error f => some f

/-- Whether a result is a failure. -/
def isError (r : Except Failure α) : Bool := (failure? r).isSome

/-- The failure to look at a path, if there was one. -/
def Occupancy.failure? : Occupancy → Option Failure
  | unlistable f | unknown f => some f
  | missing | mounted | empty | populated => none

/-- **What happens on the way to a result**, and the failure if it failed. -/
inductive Happening where
  | asked (q : Query) (failure? : Option Failure)
  | looked (p : Path) (failure? : Option Failure)
  | submitted (plan : Plan) (failure? : Option Failure)
deriving DecidableEq

/-- **A question that was refused or a plan that was rejected.**  A look at a mount point that fails
is none. -/
def Happening.isError : Happening → Bool
  | asked _ failure? | submitted _ failure? => failure?.isSome
  | looked .. => false

/-- **Questions that are asked one after the other**, until something is settled. -/
inductive Inquiry (α : Type) where
  | done (a : α)
  | ask (q : Query) (next : q.Answer → Inquiry α)
  | look (p : Path) (next : Bool → Inquiry α)

namespace Inquiry

/-- What an inquiry comes to: the first refusal ends it. -/
def run (m : Machine) : Inquiry α → Except Failure α
  | done a => .ok a
  | ask q next => m.answer q >>= fun a => (next a).run m
  | look p next => (next (m.host.isBusy p).value).run m

/-- **What happens on the way**: nothing is asked after the first refusal. -/
def happenings (m : Machine) : Inquiry α → List Happening
  | done _ => []
  | ask q next =>
    .asked q (failure? (m.answer q)) :: match m.answer q with
      | .ok a => (next a).happenings m
      | .error _ => []
  | look p next =>
    .looked p (m.host.occupancy p).failure? :: (next (m.host.isBusy p).value).happenings m

/-- **An inquiry fails if a question was refused**, which happens once at most. -/
theorem countP_happenings (i : Inquiry α) (m : Machine) :
    (i.happenings m).countP Happening.isError = if isError (i.run m) then 1 else 0 := by
  induction i with
  | done a => rfl
  | look p next ih =>
      rw [happenings, List.countP_cons_of_neg (by simp [Happening.isError]), ih]
      rfl
  | ask q next ih =>
      rw [happenings, run]
      cases hanswer : m.answer q with
      | error f =>
          simp only [List.countP_singleton]
          rfl
      | ok a =>
          rw [List.countP_cons_of_neg (by simp [Happening.isError, failure?])]
          exact ih a

/-- **A question that an attempt begins with**, and what it goes on with by the answer. -/
theorem matches_ask {q : Query} {x : Attempt q.Answer} {f : q.Answer → Attempt α}
    {next : q.Answer → Inquiry α} (hx : Matches Eq x.run.value (m.answer q))
    (hf : ∀ a, Matches Eq (f a).run.value ((next a).run m)) :
    Matches Eq (x >>= f).run.value ((ask q next).run m) := by
  rw [ExceptT.run_bind, Traced.value_bind, run]
  generalize x.run.value = r at hx
  generalize m.answer q = r' at hx
  cases hx with
  | ok h =>
      subst h
      exact hf _
  | error f f' => exact .error f f'

end Inquiry

/-- What an attempt comes to as seen from an enclosing activity. -/
theorem matches_during (x : Attempt α) (activity : String) :
    Matches Eq (x.during activity).run.value x.run.value := by
  show Matches Eq (x.run.value.mapError _) x.run.value
  cases x.run.value with
  | ok a => exact .ok rfl
  | error f => exact .error _ f

/-! ## Plans without and with unlocking -/

/-- The plan for a mount of the device itself. -/
def MountRequest.openPlan (r : MountRequest) (name : String) : Plan :=
  { units := [r.unit name r.device r.fsType] }

/-- The plan for a mount of what a service unlocks the device as. -/
def MountRequest.lockedPlan (r : MountRequest) (name sourceUnit : String) : Plan :=
  { units := [Unlocking.service r.id r.device r.rw name sourceUnit,
      r.unit name ("/dev/mapper/" ++ r.id) none]
    dropIns := [Unlocking.noTimeout r.id] }

theorem MountRequest.value_plan_open {r : MountRequest} {name : String}
    (hname : UnitName.ofPath r.mountPoint ".mount" = .ok name) (h : r.fsType ≠ some luksType) :
    r.plan.run.value = .ok (r.openPlan name) :=
  MountRequest.plan_eq_ok_iff.mpr ⟨name, hname, .plain h⟩

/-- An encrypted device is mounted if the unit of the device has a name. -/
theorem MountRequest.matches_lockedPlan {r : MountRequest} {name : String}
    (hname : UnitName.ofPath r.mountPoint ".mount" = .ok name) (h : r.fsType = some luksType) :
    Matches Eq (r.plan >>= fun plan => (pure (.emit plan) : Attempt Decision)).run.value
      ((Inquiry.ask (.unitName r.device ".device") fun sourceUnit =>
        .done (.emit (r.lockedPlan name sourceUnit))).run m) := by
  rw [Inquiry.run, Machine.answer]
  cases hsource : UnitName.ofPath r.device ".device" with
  | ok sourceUnit =>
      rw [value_bind_of_ok (MountRequest.plan_eq_ok_iff.mpr ⟨name, hname, .unlocked h hsource⟩)]
      exact .ok rfl
  | error e =>
      have hplan : r.plan.run.value = .error e.failure := by
        unfold MountRequest.plan Unlocking.plan
        simp only [hname, if_pos h, hsource]
        rfl
      rw [value_bind_of_error hplan]
      exact .error _ _

/-! ## The inquiries of decisions -/

/-- The inquiry about the root mount. -/
def rootInquiry (settings : Settings) (m : Machine) : Inquiry Decision :=
  if !m.host.isEfiBoot then .done (.skip .notEfiBoot)
  else
    .ask .loaderPartition fun
      | none => .done (.skip .loaderPartitionUnknown)
      | some _ =>
        let name := if m.host.inInitrd then "sysroot.mount" else "-.mount"
        .done (.emit ((rootRequest m.host.inInitrd settings.rootWritable).openPlan name))

/-- The inquiry about a swap partition. -/
def swapInquiry (a : Assignment) : Inquiry Decision :=
  .ask .staticMounts fun mounts =>
    if mounts.hasType "swap" then .done (.skip (.staticallyConfigured "swap"))
    else .ask (.unitName a.node ".swap") fun name =>
      .done (.emit { units := [swapUnit name a.node] })

/-- The inquiry about the EFI system partition. -/
def bootInquiry (m : Machine) (a : Assignment) : Inquiry Decision :=
  let path := Path.ofText bootMountPoint
  if !m.host.isEfiBoot then .done (.skip .notEfiBoot)
  else if m.host.inInitrd then .done (.skip .inInitrd)
  else if m.host.inContainer.value then .done (.skip .inContainer)
  else
    .ask .loaderPartition fun
      | none => .done (.skip .loaderPartitionUnknown)
      | some loader =>
        .ask .staticMounts fun mounts =>
          if mounts.mountsAt path then .done (.skip (.staticallyConfigured bootMountPoint))
          else
            .look path fun
              | true => .done (.skip (.busy path))
              | false =>
                .ask (.entry (Path.ofText a.node)) fun
                  | .ambiguous | .nothing => .done (.skip (.probeInconclusive a.node))
                  | .found info =>
                    match bootMismatch? m.guids loader info with
                    | some reason => .done (.skip reason)
                    | none => .done (.emit (bootPlan a.node))

/-- The inquiry about a data partition, for the unit of a name. -/
def dataInquiry (role : Role) (mountPoint name : String) (a : Assignment) : Inquiry Decision :=
  let path := Path.ofText mountPoint
  .look path fun
    | true => .done (.skip (.busy path))
    | false =>
      .ask (.filesystem (Path.ofText a.node)) fun
        | .ambiguous | .nothing => .done (.skip (.probeInconclusive a.node))
        | .found info =>
          match info.fsType with
          | none => .done (.skip (.probeInconclusive a.node))
          | some fsType =>
            let request := dataRequest role a mountPoint fsType
            if fsType = luksType then
              .ask (.unitName a.node ".device") fun sourceUnit =>
                .done (.emit (request.lockedPlan name sourceUnit))
            else .done (.emit (request.openPlan name))

/-- The inquiry about an elected partition. -/
def Rule.inquiry (r : Rule) (a : Assignment) (m : Machine) : Inquiry Decision :=
  match r.role with
  | .swap => swapInquiry a
  | .boot => bootInquiry m a
  | .root => dataInquiry .root "/" "-.mount" a
  | .home => dataInquiry .home "/home" "home.mount" a
  | .serverData => dataInquiry .serverData "/srv" "srv.mount" a

/-- The inquiry about the disk of a root device. -/
def inquiryBeside (guids : Guid.Reader) (root : Device.Number) :
    Inquiry (List (Rule × Assignment)) :=
  .ask (.parentDisk root) fun
    | none => .done []
    | some disk =>
      .ask (.table disk.node) fun
        | .ambiguous | .nothing => .done []
        | .found table =>
          if table.isGpt then
            .ask (.partitions disk) fun partitions =>
              .done (elect guids root disk partitions table).value
          else .done []

/-- The inquiry about the partitions of the disk that holds the root file system. -/
def discoveryInquiry (guids : Guid.Reader) : Inquiry (List (Rule × Assignment)) :=
  .ask (.holding (Path.ofText "/")) fun
    | some root => inquiryBeside guids root
    | none =>
      .ask (.holding (Path.ofText "/usr")) fun
        | some root => inquiryBeside guids root
        | none => .done []

/-! ## Decisions are what their inquiries come to -/

/-- Looking at a path comes to a yes or no. -/
theorem matches_look {p : Path} {f : Bool → Attempt α} {next : Bool → Inquiry α}
    (hf : ∀ busy, Matches Eq (f busy).run.value ((next busy).run m)) :
    Matches Eq (liftM (m.host.isBusy p) >>= f).run.value ((Inquiry.look p next).run m) :=
  hf _

theorem matches_rootInquiry (settings : Settings) (m : Machine) :
    Matches Eq (decideRoot settings m.host).run.value ((rootInquiry settings m).run m) := by
  unfold decideRoot rootInquiry
  split
  · exact .ok rfl
  refine Inquiry.matches_ask (q := .loaderPartition) (matches_during _ _) fun loader => ?_
  cases loader with
  | none => exact .ok rfl
  | some loader =>
      have hname : UnitName.ofPath (rootRequest m.host.inInitrd settings.rootWritable).mountPoint
          ".mount" = .ok (if m.host.inInitrd then "sysroot.mount" else "-.mount") := by
        unfold rootRequest
        cases m.host.inInitrd with
        | true => exact (rfl : UnitName.ofPath "/sysroot" ".mount" = .ok "sysroot.mount")
        | false => exact (rfl : UnitName.ofPath "/" ".mount" = .ok "-.mount")
      simp only [reduceCtorEq, if_false]
      rw [value_bind_of_ok (MountRequest.value_plan_open hname (by simp [rootRequest]))]
      exact .ok rfl

theorem matches_swapInquiry (m : Machine) (a : Assignment) :
    Matches Eq (decideSwap m.host a).run.value ((swapInquiry a).run m) := by
  unfold decideSwap swapInquiry
  refine Inquiry.matches_ask (q := .staticMounts) (matches_during _ _) fun mounts => ?_
  split
  · exact .ok rfl
  unfold planSwap
  simp only [Inquiry.run, Machine.answer]
  cases UnitName.ofPath a.node ".swap" with
  | ok name => exact .ok rfl
  | error e => exact .error _ _

theorem matches_bootInquiry (m : Machine) (a : Assignment) :
    Matches Eq (decideBoot m a).run.value ((bootInquiry m a).run m) := by
  unfold decideBoot bootInquiry
  simp only
  split
  · exact .ok rfl
  split
  · exact .ok rfl
  change Matches Eq
    (if m.host.inContainer.value = true then _ else _ : Attempt Decision).run.value _
  split
  · exact .ok rfl
  refine Inquiry.matches_ask (q := .loaderPartition) (matches_during _ _) fun loader => ?_
  cases loader with
  | none => exact .ok rfl
  | some loader =>
  refine Inquiry.matches_ask (q := .staticMounts) (matches_during _ _) fun mounts => ?_
  split
  · exact .ok rfl
  refine matches_look fun busy => ?_
  cases busy with
  | true => exact .ok rfl
  | false =>
  refine Inquiry.matches_ask (q := .entry _) (matches_during _ _) fun probed => ?_
  cases probed with
  | ambiguous => exact .ok rfl
  | nothing => exact .ok rfl
  | found info =>
      simp only
      cases bootMismatch? m.guids loader info with
      | some reason => exact .ok rfl
      | none =>
          simp only
          rw [value_bind_of_ok (planOnAccess_bootRequest.mpr rfl)]
          exact .ok rfl

theorem matches_dataInquiry (m : Machine) (a : Assignment) {role : Role} {mountPoint name : String}
    (hrole : role.mountPoint? false = some mountPoint)
    (hname : UnitName.ofPath mountPoint ".mount" = .ok name) :
    Matches Eq (decideData role m a).run.value ((dataInquiry role mountPoint name a).run m) := by
  unfold decideData dataInquiry
  simp only [hrole]
  refine matches_look fun busy => ?_
  cases busy with
  | true => exact .ok rfl
  | false =>
  refine Inquiry.matches_ask (q := .filesystem _) (matches_during _ _) fun probed => ?_
  cases probed with
  | ambiguous => exact .ok rfl
  | nothing => exact .ok rfl
  | found info =>
  simp only
  cases info.fsType with
  | none => exact .ok rfl
  | some fsType =>
      simp only
      split
      · next hluks =>
          exact MountRequest.matches_lockedPlan (r := dataRequest role a mountPoint fsType) hname
            (congrArg some hluks)
      · next hluks =>
          have hplan := MountRequest.value_plan_open (r := dataRequest role a mountPoint fsType)
            hname fun h => hluks (Option.some.inj h)
          rw [value_bind_of_ok hplan]
          exact .ok rfl

/-- **The decision about an elected partition is what its inquiry comes to.** -/
theorem matches_inquiry (r : Rule) (a : Assignment) (m : Machine) :
    Matches Eq (r.decide m a).run.value ((r.inquiry a m).run m) := by
  unfold Rule.decide Rule.inquiry
  cases r.role with
  | swap => exact matches_swapInquiry m a
  | boot => exact matches_bootInquiry m a
  | root => exact matches_dataInquiry m a rfl rfl
  | home => exact matches_dataInquiry m a rfl rfl
  | serverData => exact matches_dataInquiry m a rfl rfl

theorem matches_inquiryBeside (root : Device.Number) (m : Machine) :
    Matches Eq (discoverBeside m root).run.value ((inquiryBeside m.guids root).run m) := by
  unfold discoverBeside inquiryBeside
  refine Inquiry.matches_ask (q := .parentDisk root) (.refl _) fun disk => ?_
  cases disk with
  | none => exact .ok rfl
  | some disk =>
  unfold reliableTable
  simp only [bind_assoc]
  refine Inquiry.matches_ask (q := .table _) (matches_during _ _) fun probed => ?_
  cases probed with
  | ambiguous => exact .ok rfl
  | nothing => exact .ok rfl
  | found table =>
      simp only
      split
      · refine Inquiry.matches_ask (q := .partitions disk) (matches_during _ _) fun partitions => ?_
        exact .ok rfl
      · exact .ok rfl

/-- **The partitions that are found are what the inquiry about them comes to.** -/
theorem matches_discoveryInquiry (m : Machine) :
    Matches Eq (discover m).run.value ((discoveryInquiry m.guids).run m) := by
  unfold discover discoveryInquiry rootNumber
  simp only [bind_assoc]
  refine Inquiry.matches_ask (q := .holding _) (matches_during _ _) fun root => ?_
  cases root with
  | some root => exact matches_inquiryBeside root m
  | none =>
  simp only [bind_assoc]
  refine Inquiry.matches_ask (q := .holding _) (matches_during _ _) fun root => ?_
  cases root with
  | some root => exact matches_inquiryBeside root m
  | none => exact .ok rfl

end PartitionUnits
