import PartitionUnits.Proofs.ListingOrder
import PartitionUnits.Proofs.PartitionFlags
import PartitionUnits.Proofs.Signature

/-!
# Failed, open and answered probes

A probe that has failed, one that leaves its question open and one that tells the answer have
different consequences, for a data partition and for the disk.

## Main Definitions

* `Site.Progress.RecordsFailure`, `Site.Progress.LeavesAlone` — what a pass makes of no answer
* `decideData_of_failsToLook`, `decideData_of_leavesOpen`, `decideData_of_tells` — the decision for
  a data partition
* `discover_of_failsToLook`, `discover_of_unknown` — the partitions that are found
* `World.withLockedPartition` — a machine on which every device looks encrypted
* `probe_results_kept_apart` — all of it, for a pass under way

## Design Notes

A partition that has to be unlocked needs the unit of its device, and a node from which no such unit
can be named has none.  This is the one case in which a type that was told leads to no plan
(`withLockedPartition_unnamed`), and it is a failure like any other.
-/

namespace PartitionUnits

open Attempt Signature

variable {σ : Type} {site : Site σ} {p : Site.Progress σ} {m : Machine} {w : World}
  {program : Path} {rule : Rule} {role : Role} {a : Assignment} {mountPoint : String}

/-! ## What a pass makes of it -/

/-- **A failure is recorded** for a subject, and nothing else happens. -/
structure Site.Progress.RecordsFailure (p : Site.Progress σ) (subject : String)
    (p' : Site.Progress σ) : Prop where
  state : p'.state = p.state
  status : p'.status.value = { p.status.value with failed := p.status.value.failed ++ [subject] }

/-- **Nothing happens**, and nothing is recorded. -/
structure Site.Progress.LeavesAlone (p p' : Site.Progress σ) : Prop where
  state : p'.state = p.state
  status : p'.status.value = p.status.value

theorem value_record_error (status : Status) (subject : String) (failure : Failure) :
    (status.record subject (.error failure)).value =
      { status with failed := status.failed ++ [subject] } := rfl

theorem activate_of_error {subject : String} {decision : Machine → Attempt Decision}
    {failure : Failure} (h : (decision (site.machine p.state)).run.value = .error failure) :
    p.RecordsFailure subject (site.activate subject decision p) := by
  obtain ⟨hresult, hstate⟩ := carryOut_of_error site p.state h
  refine ⟨hstate, ?_⟩
  rw [emitted_activate, hresult, value_record_error]

theorem activate_of_skip {subject : String} {decision : Machine → Attempt Decision}
    {reason : SkipReason}
    (h : (decision (site.machine p.state)).run.value = .ok (.skip reason)) :
    p.LeavesAlone (site.activate subject decision p) := by
  obtain ⟨hresult, hstate⟩ := carryOut_of_skip site p.state h
  refine ⟨hstate, ?_⟩
  rw [emitted_activate, hresult]
  rfl

theorem activatePartitions_of_error {failure : Failure}
    (h : (discover (site.machine p.state)).run.value = .error failure) :
    p.RecordsFailure Site.discoverySubject (site.activatePartitions p) := by
  unfold Site.activatePartitions
  simp only [h]
  exact ⟨rfl, value_record_error _ _ failure⟩

theorem activatePartitions_of_nil (h : (discover (site.machine p.state)).run.value = .ok []) :
    p.LeavesAlone (site.activatePartitions p) := by
  unfold Site.activatePartitions
  simp only [h]
  exact ⟨rfl, rfl⟩

/-! ## A data partition -/

/-- What has to be unlocked is not mounted if the unit of its device cannot be named. -/
theorem MountRequest.plan_of_unnamed {r : MountRequest} {name : String} {e : PathNameError}
    (hname : UnitName.ofPath r.mountPoint ".mount" = .ok name) (hluks : r.fsType = some luksType)
    (hunit : UnitName.ofPath r.device ".device" = .error e) :
    r.plan.run.value = .error e.failure := by
  have hunlock : (Unlocking.plan r.id r.device r.rw name).run.value = .error e.failure := by
    unfold Unlocking.plan
    rw [hunit]
    rfl
  unfold MountRequest.plan
  simp only [hname, if_pos hluks]
  rw [value_bind_of_ok (a := ()) rfl]
  exact value_bind_of_error hunlock

/-- The places of data partitions have units. -/
theorem exists_mountUnit (hplace : role.mountPoint? false = some mountPoint) :
    ∃ name, UnitName.ofPath mountPoint ".mount" = .ok name := by
  cases role with
  | root => cases hplace; exact ⟨_, rfl⟩
  | boot => cases hplace; exact ⟨_, rfl⟩
  | home => cases hplace; exact ⟨_, rfl⟩
  | serverData => cases hplace; exact ⟨_, rfl⟩
  | swap => cases hplace

/-- The decision for a data partition once a probe has answered. -/
def decideProbed (role : Role) (a : Assignment) (mountPoint : String) :
    Probed FilesystemInfo → Attempt Decision
  | .ambiguous | .nothing => return .skip (.probeInconclusive a.node)
  | .found info =>
    match info.fsType with
    | none => return .skip (.probeInconclusive a.node)
    | some fsType => return .emit (← (dataRequest role a mountPoint fsType).plan)

section

variable (hprobe : m.probe = w.probe program) (hplace : role.mountPoint? false = some mountPoint)
  (hfree : (m.host.isBusy (Path.ofText mountPoint)).value = false)
include hprobe hplace hfree

/-- The place is not occupied, so the decision is up to the probe. -/
theorem value_decideData_of_free : (decideData role m a).run.value =
    (((w.probe program).filesystem (Path.ofText a.node)).during ("Failed to probe " ++ a.node) >>=
      decideProbed role a mountPoint).run.value := by
  unfold decideData
  rw [hplace]
  simp only
  rw [value_bind_of_ok (liftM_eq_ok.mpr hfree), hprobe, if_neg Bool.false_ne_true]
  rfl

theorem decideData_of_probed {probed : Probed FilesystemInfo}
    (h : (Signature.probe w.start program (Path.ofText a.node)).map filesystem = .ok probed) :
    (decideData role m a).run.value = (decideProbed role a mountPoint probed).run.value := by
  have hprobed : ((w.probe program).filesystem (Path.ofText a.node)).run.value = .ok probed := h
  rw [value_decideData_of_free hprobe hplace hfree]
  exact value_bind_of_ok (during_eq_ok.mpr hprobed)

theorem decideData_of_failsToLook
    (h : FailsToLook (w.start (command program (Path.ofText a.node)))) :
    ∃ failure, (decideData role m a).run.value = .error failure := by
  obtain ⟨failure, hfailure⟩ := probe_of_failsToLook h
  have hprobed : ((w.probe program).filesystem (Path.ofText a.node)).run.value =
      .error failure := by
    show Except.map filesystem (Signature.probe w.start program (Path.ofText a.node)) = _
    rw [hfailure]
    rfl
  refine ⟨failure.during ("Failed to probe " ++ a.node), ?_⟩
  rw [value_decideData_of_free hprobe hplace hfree]
  exact value_bind_of_error (during_error hprobed)

theorem decideData_of_leavesOpen
    (h : LeavesOpen "TYPE" (w.start (command program (Path.ofText a.node)))) :
    (decideData role m a).run.value = .ok (.skip (.probeInconclusive a.node)) := by
  rcases filesystem_of_leavesOpen h with h | h
  · rw [decideData_of_probed hprobe hplace hfree h]
    rfl
  · rw [decideData_of_probed hprobe hplace hfree h]
    rfl

/-- **A type that was told is the type that is mounted.**  There is a plan unless the partition has
to be unlocked and its node has no unit. -/
theorem decideData_of_tells {fsType : String}
    (h : Tells "TYPE" fsType (w.start (command program (Path.ofText a.node)))) :
    ((fsType = luksType → ∃ unit, UnitName.ofPath a.node ".device" = .ok unit) ∧
      ∃ plan, (decideData role m a).run.value = .ok (.emit plan) ∧
        plan.bodies = dataBodies role a.node mountPoint fsType (!a.rw)) ∨
    ((fsType = luksType ∧ ¬ ∃ unit, UnitName.ofPath a.node ".device" = .ok unit) ∧
      ∃ e : PathNameError, (decideData role m a).run.value = .error e.failure) := by
  obtain ⟨info, hinfo, hfsType⟩ := filesystem_of_tells h
  have hvalue := decideData_of_probed hprobe hplace hfree hinfo
  simp only [decideProbed, hfsType] at hvalue
  obtain ⟨name, hname⟩ := exists_mountUnit hplace
  -- A request that comes to a plan comes to the bodies that it asks for.
  have hplanned : ∀ plan, (dataRequest role a mountPoint fsType).Planned name plan →
      ∃ plan, (decideData role m a).run.value = .ok (.emit plan) ∧
        plan.bodies = dataBodies role a.node mountPoint fsType (!a.rw) := by
    intro plan h
    have hplan : (dataRequest role a mountPoint fsType).plan.run.value = .ok plan :=
      MountRequest.plan_eq_ok_iff.mpr ⟨name, hname, h⟩
    exact ⟨plan, hvalue.trans (value_bind_of_ok hplan), bodies_dataRequest hplan⟩
  by_cases hluks : fsType = luksType
  · have hrequest : (dataRequest role a mountPoint fsType).fsType = some luksType :=
      congrArg some hluks
    cases hunit : UnitName.ofPath a.node ".device" with
    | ok unit => exact Or.inl ⟨fun _ => ⟨unit, rfl⟩, hplanned _ (.unlocked hrequest hunit)⟩
    | error e =>
        have herror := MountRequest.plan_of_unnamed
          (r := dataRequest role a mountPoint fsType) hname hrequest hunit
        exact Or.inr ⟨⟨hluks, by simp⟩, e, hvalue.trans (value_bind_of_error herror)⟩
  · exact Or.inl ⟨fun h => absurd h hluks,
      hplanned _ (.plain fun h => hluks (Option.some.inj h))⟩

end

/-! ## The disk -/

/-- A disk has no table to rely on if none was found, or contradictory ones, or one of another
kind. -/
theorem reliableTable_eq_none {probe : Probe} {disk : Device.Block}
    (h : (probe.table disk.node).run.value = .ok .nothing ∨
      (probe.table disk.node).run.value = .ok .ambiguous ∨
      ∃ table, (probe.table disk.node).run.value = .ok (.found table) ∧ table.isGpt = false) :
    (reliableTable probe disk).run.value = .ok none := by
  unfold reliableTable
  rcases h with h | h | ⟨table, h, hgpt⟩
  · rw [value_bind_of_ok (during_eq_ok.mpr h)]
    rfl
  · rw [value_bind_of_ok (during_eq_ok.mpr h)]
    rfl
  · rw [value_bind_of_ok (during_eq_ok.mpr h)]
    simp only [hgpt, Bool.false_eq_true, if_false]
    rfl

section

variable {root : Device.Number} {disk : Device.Block}
  (hprobe : m.probe = w.probe program) (hroot : m.devices.RootOn root)
  (hdisk : (m.devices.parentDisk root).run.value = .ok (some disk))
include hprobe hroot hdisk

/-- What is found beside the root device is up to the table of the disk. -/
theorem value_discover_eq : (discover m).run.value = (do
      match ← reliableTable (w.probe program) disk with
      | none => return []
      | some table =>
        let partitions ← (m.devices.partitions disk).during
          s!"{disk.node.quoted}: failed to enumerate partitions"
        liftM (elect m.guids root disk partitions table)
      : Attempt (List (Rule × Assignment))).run.value := by
  unfold discover
  rw [value_bind_of_ok (rootNumber_eq_ok.mpr hroot)]
  unfold discoverBeside
  rw [value_bind_of_ok hdisk, hprobe]
  exact value_bind_of_ok (a := ()) rfl

theorem discover_of_failsToLook (h : FailsToLook (w.start (command program disk.node))) :
    ∃ failure, (discover m).run.value = .error failure := by
  obtain ⟨failure, hfailure⟩ := World.probeTable_of_failsToLook h
  rw [value_discover_eq hprobe hroot hdisk]
  exact ⟨failure.during _, value_bind_of_error (value_bind_of_error (during_error hfailure))⟩

theorem discover_of_unknown (h : LeavesOpen "PTTYPE" (w.start (command program disk.node)) ∨
    ∃ kind ≠ "gpt", Tells "PTTYPE" kind (w.start (command program disk.node))) :
    (discover m).run.value = .ok [] := by
  have hnone : (reliableTable (w.probe program) disk).run.value = .ok none :=
    reliableTable_eq_none (World.probeTable_of_unknown h)
  rw [value_discover_eq hprobe hroot hdisk, value_bind_of_ok hnone]
  rfl

end

/-! ## A pass under way -/

/-- A machine on which every device looks encrypted. -/
def World.withLockedPartition : World :=
  let prober : Program := .answering [] { output := Text.encode "TYPE=crypto_LUKS\n".toList }
  { tree := ⟨[((Path.ofText "/bin").names, .directory Tree.directoryMode),
      ((Path.ofText "/bin/blkid").names, .file 0o755 (.program prober))]⟩ }

/-- The site of a pass over that machine, or any other with the program in the same place. -/
def proberSite : Site World := liveSite ⟨false, Path.ofText "/bin/blkid"⟩ (Path.ofText "/dest")

/-- **A type was told and the place is not occupied, but there is no plan**: the node of the
partition is no name for a unit. -/
theorem withLockedPartition_unnamed :
    let m := proberSite.machine World.withLockedPartition
    let a : Assignment := ⟨.home, "/dev/../sda3", 3, true⟩
    (m.host.isBusy (Path.ofText "/home")).value = false ∧
      Tells "TYPE" "crypto_LUKS" (World.withLockedPartition.start
        (command (Path.ofText "/bin/blkid") (Path.ofText a.node))) ∧
      (decideData .home m a).run.value =
        .error (Failure.of "Path \"/dev/../sda3\" is not normalized") ∧
      (proberSite.activate "home" (fun m => decideData .home m a)
        { status := pure {}, state := World.withLockedPartition }).status.value.failed =
          ["home"] := by
  have hstart : World.withLockedPartition.start
      (command (Path.ofText "/bin/blkid") (Path.ofText "/dev/../sda3")) =
        .ok { output := Text.encode "TYPE=crypto_LUKS\n".toList } := rfl
  refine ⟨by decide +kernel, ?_, by decide +kernel, by decide +kernel⟩
  rw [hstart]
  exact .found rfl (Properties.get?_eq_some_iff.mp (by decide +kernel))

/-- **Failed, open and answered probes are kept apart**, whatever came of starting the program.

For a data partition whose place is not occupied, a failure to look is recorded as a failure.  The
role is left alone as inconclusive just if the type is left open.  A type that was told is the type
that is mounted, after unlocking if it says so; that fails if the unit of the device cannot be named
and has no other reason to fail.  For the disk, a failure to look is recorded once, and a kind of
table that is left open or unknown activates nothing and is no failure. -/
theorem probe_results_kept_apart {world : σ → World}
    (hprobe : ∀ s, (site.machine s).probe = (world s).probe program) (p : Site.Progress σ) :
    (∀ (rule : Rule) (a : Assignment) (mountPoint : String),
      (rule.role = .home ∨ rule.role = .serverData) →
      rule.role.mountPoint? false = some mountPoint →
      ((site.machine p.state).host.isBusy (Path.ofText mountPoint)).value = false →
      let started := (world p.state).start (command program (Path.ofText a.node))
      let decided := (rule.decide (site.machine p.state) a).run.value
      let p' := site.activate rule.role.id (fun m => rule.decide m a) p
      (FailsToLook started → p.RecordsFailure rule.role.id p') ∧
        (decided = .ok (.skip (.probeInconclusive a.node)) ↔ LeavesOpen "TYPE" started) ∧
        (LeavesOpen "TYPE" started → p.LeavesAlone p') ∧
        ∀ fsType, Tells "TYPE" fsType started →
          ((fsType = luksType → ∃ unit, UnitName.ofPath a.node ".device" = .ok unit) →
            ∃ plan, decided = .ok (.emit plan) ∧
              plan.bodies = dataBodies rule.role a.node mountPoint fsType (!a.rw) ∧
              p'.state = (site.submit plan p.state).2) ∧
          (fsType = luksType → (¬ ∃ unit, UnitName.ofPath a.node ".device" = .ok unit) →
            p.RecordsFailure rule.role.id p')) ∧
    (∀ (root : Device.Number) (disk : Device.Block),
      (site.machine p.state).devices.RootOn root →
      ((site.machine p.state).devices.parentDisk root).run.value = .ok (some disk) →
      let started := (world p.state).start (command program disk.node)
      let p' := site.activatePartitions p
      (FailsToLook started → p.RecordsFailure Site.discoverySubject p') ∧
        (LeavesOpen "PTTYPE" started ∨ (∃ kind ≠ "gpt", Tells "PTTYPE" kind started) →
          (discover (site.machine p.state)).run.value = .ok [] ∧ p.LeavesAlone p')) := by
  constructor
  · intro rule a mountPoint hrole hplace hfree started decided p'
    have hdecide : rule.decide = decideData rule.role := by
      funext m a
      exact decide_of_data hrole
    simp only [decided, p', started, hdecide]
    have hm := hprobe p.state
    have hfails := decideData_of_failsToLook (a := a) hm hplace hfree
    have hopen := decideData_of_leavesOpen (a := a) hm hplace hfree
    have htells := fun fsType
        (h : Tells "TYPE" fsType ((world p.state).start (command program (Path.ofText a.node)))) =>
      decideData_of_tells hm hplace hfree h
    refine ⟨fun h => ?_, ⟨fun h => ?_, hopen⟩, fun h => activate_of_skip (hopen h), ?_⟩
    · obtain ⟨failure, hvalue⟩ := hfails h
      exact activate_of_error hvalue
    · -- The other two ways lead to another decision.
      rcases three_ways "TYPE" ((world p.state).start (command program (Path.ofText a.node)))
        with hway | hway | ⟨fsType, hway⟩
      · obtain ⟨failure, hvalue⟩ := hfails hway
        cases hvalue.symm.trans h
      · exact hway
      · rcases htells fsType hway with ⟨-, plan, hvalue, -⟩ | ⟨-, e, hvalue⟩
        · cases hvalue.symm.trans h
        · cases hvalue.symm.trans h
    · intro fsType hway
      rcases htells fsType hway with ⟨hnamed, plan, hvalue, hbodies⟩ | ⟨⟨hluks, hunit⟩, e, hvalue⟩
      · refine ⟨fun _ => ⟨plan, hvalue, hbodies, (carryOut_of_emit site p.state hvalue).2⟩, ?_⟩
        exact fun hluks hunit => absurd (hnamed hluks) hunit
      · exact ⟨fun hnamed => absurd (hnamed hluks) hunit, fun _ _ => activate_of_error hvalue⟩
  · intro root disk hroot hdisk started p'
    refine ⟨fun h => ?_, fun h => ?_⟩
    · obtain ⟨failure, hvalue⟩ := discover_of_failsToLook (hprobe p.state) hroot hdisk h
      exact activatePartitions_of_error hvalue
    · have hnone := discover_of_unknown (hprobe p.state) hroot hdisk h
      exact ⟨hnone, activatePartitions_of_nil hnone⟩

set_option maxRecDepth 20000 in
/-- `/home` is mounted with the type that is told, and without the program one failure is
recorded. -/
theorem probe_results_kept_apart_withHomeDisk :
    let p : Site.Progress World := { status := pure {}, state := World.withHomeDisk }
    let rule : Rule := ⟨.home, .home, admitData⟩
    let a : Assignment := ⟨.home, "/dev/sda1", 1, true⟩
    let absent : Site World := liveSite ⟨false, Path.ofText "/none"⟩ (Path.ofText "/dest")
    (∃ plan, (rule.decide (proberSite.machine p.state) a).run.value = .ok (.emit plan) ∧
        plan.bodies = [.mount "/dev/sda1" "/home" (some "ext4") "rw"]) ∧
      p.RecordsFailure Site.discoverySubject (absent.activatePartitions p) := by
  intro p rule a absent
  have htells : Tells "TYPE" "ext4" (World.withHomeDisk.start
      (command (Path.ofText "/bin/blkid") (Path.ofText "/dev/sda1"))) := by
    have hstart : World.withHomeDisk.start
        (command (Path.ofText "/bin/blkid") (Path.ofText "/dev/sda1")) =
          .ok { output := Text.encode "TYPE=ext4\n".toList } := by
      decide +kernel
    rw [hstart]
    exact .found rfl (Properties.get?_eq_some_iff.mp (by decide +kernel))
  have hfails : FailsToLook (World.withHomeDisk.start
      (command (Path.ofText "/none") (Path.ofText "/dev/sda"))) := by
    have hstart : World.withHomeDisk.start
        (command (Path.ofText "/none") (Path.ofText "/dev/sda")) = .error .notFound := by
      decide +kernel
    rw [hstart]
    exact .notStarted .notFound
  constructor
  · have hprobe : ∀ w, (proberSite.machine w).probe = w.probe (Path.ofText "/bin/blkid") :=
      fun _ => rfl
    obtain ⟨hdata, -⟩ := probe_results_kept_apart hprobe p
    obtain ⟨-, -, -, hmounted⟩ := hdata rule a "/home" (Or.inl rfl) rfl (by decide +kernel)
    obtain ⟨plan, hplan, hbodies, -⟩ := (hmounted "ext4" htells).1 (fun h => absurd h (by decide))
    exact ⟨plan, hplan, hbodies.trans (by decide)⟩
  · have hprobe : ∀ w, (absent.machine w).probe = w.probe (Path.ofText "/none") := fun _ => rfl
    obtain ⟨-, hdisk⟩ := probe_results_kept_apart hprobe p
    exact (hdisk ⟨8, 2⟩ ⟨⟨8, 0⟩, Path.ofText "/dev/sda", Path.ofText "/sys/devices/sda", none⟩
      (Or.inl (by decide +kernel)) (by decide +kernel)).1 hfails

end PartitionUnits
