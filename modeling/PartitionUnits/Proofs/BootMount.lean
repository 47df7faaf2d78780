import PartitionUnits.Proofs.Discovery
import PartitionUnits.Proofs.RolePlans
import PartitionUnits.Proofs.Turns

/-!
# When the EFI system partition is mounted

A pass hands over a plan for `/boot` if and only if everything says that the elected partition is
the one the loader was started from, and that nothing else is to be mounted there.

## Main Definitions

* `BootConfirmed` — all that has to be said about the machine and the partition
* `BootObstructed` — an answer that fails before the matter is settled
* `bootPlan` — the plan
* `boot_submitted_iff` — the plan is handed over just then, and without an obstruction the role is
  left alone otherwise

## Design Notes

The decision asks its questions one after the other and stops at the first one that settles the
matter.  `BootConfirmed` is the conjunction of the answers, without an order; `BootObstructed` needs
the order, since a failure counts only if the question was asked.
-/

namespace PartitionUnits

open Attempt
open Site
open Device (Block)
open PartitionUnits.Partition (Table)

variable {σ : Type} {site : Site σ} {settings : Settings} {s s' : σ} {m : Machine} {a : Assignment}
  {rule : Rule} {plan : Plan} {role role' : Role} {mountPoint node : String}

/-! ## The plan -/

/-- **The plan for the EFI system partition**: a mount of the partition that is not pulled in by
itself, and the automount that makes it on access. -/
def bootPlan (node : String) : Plan where
  units := [
    { name := "boot.mount"
      description := "EFI System Partition Automount"
      body := .mount node "/boot" (some "vfat") "umask=0077,noauto,rw"
      check := some ⟨node, "/boot", some "vfat"⟩ },
    { name := "boot.automount"
      description := "EFI System Partition Automount"
      body := .automount "/boot" 120
      edges := [⟨"boot.automount", .before, "local-fs.target"⟩,
        ⟨"local-fs.target", .wants, "boot.automount"⟩] }]

theorem ofPath_boot_mount : UnitName.ofPath "/boot" ".mount" = .ok "boot.mount" := by rfl

theorem ofPath_boot_automount : UnitName.ofPath "/boot" ".automount" = .ok "boot.automount" := by
  rfl

/-- The request for the EFI system partition comes to that plan. -/
theorem planOnAccess_bootRequest :
    ((bootRequest node).planOnAccess bootIdleSeconds).run.value = .ok plan ↔
      plan = bootPlan node := by
  have hmount : UnitName.ofPath (bootRequest node).behindAutomount.mountPoint ".mount" =
      .ok "boot.mount" := ofPath_boot_mount
  have hautomount : UnitName.ofPath (bootRequest node).mountPoint ".automount" =
      .ok "boot.automount" := ofPath_boot_automount
  have hluks : (bootRequest node).behindAutomount.fsType ≠ some luksType := by
    show some "vfat" ≠ some "crypto_LUKS"
    decide
  simp only [MountRequest.planOnAccess_eq_ok_iff, MountRequest.plan_eq_ok_iff, hmount, hautomount]
  constructor
  · rintro ⟨inner, name, ⟨_, hinner, hplanned⟩, hname, rfl⟩
    cases hinner
    cases hname
    cases hplanned with
    | plain => rfl
    | unlocked h => exact absurd h hluks
  · rintro rfl
    exact ⟨_, _, ⟨_, rfl, .plain hluks⟩, rfl, rfl⟩

/-- A plan has a unit for a mount point, by its name or by what it mounts. -/
def Plan.Serves (plan : Plan) (mountPoint : String) : Prop :=
  ∃ u ∈ plan.units, UnitName.ofPath mountPoint ".mount" = .ok u.name ∨
    UnitName.ofPath mountPoint ".automount" = .ok u.name ∨
    u.body.mountPoint? = some mountPoint

theorem boot_isAt : Role.boot.IsAt "/boot" := ⟨false, rfl⟩

theorem bootPlan_serves : (bootPlan node).Serves "/boot" :=
  ⟨_, List.mem_cons_self, Or.inl ofPath_boot_mount⟩

/-- No two roles are mounted at one place. -/
theorem Role.IsAt.unique (h : role.IsAt mountPoint) (h' : role'.IsAt mountPoint) :
    role = role' := by
  obtain ⟨inInitrd, h⟩ := h
  obtain ⟨inInitrd', h'⟩ := h'
  have hsame := h.trans h'.symm
  cases role <;> cases role' <;> cases inInitrd <;> cases inInitrd' <;>
    first | rfl | exact absurd hsame (by decide)

/-- **A plan has units for the mount points of its role only.** -/
theorem Plan.IsOf.eq_of_serves (h : plan.IsOf role) (hplace : role'.IsAt mountPoint)
    (hserves : plan.Serves mountPoint) : role = role' := by
  obtain ⟨u, hu, hname | hname | hbody⟩ := hserves
  · exact (h.unit u hu).name.unique (.mount hplace (by simp) hname) rfl
  · exact (h.unit u hu).name.unique (.mount hplace (by simp) hname) rfl
  · exact ((h.unit u hu).mountPoint _ hbody).unique hplace

/-! ## The decision -/

/-- **Everything says that the partition is to be mounted at `/boot`**: the machine was booted from
it by way of EFI and runs no initrd and no container, the partition has the type and the identifier
that it has to have, and nothing else is or will be mounted there. -/
structure BootConfirmed (m : Machine) (a : Assignment) : Prop where
  isEfiBoot : m.host.isEfiBoot = true
  notInInitrd : m.host.inInitrd = false
  notInContainer : m.host.inContainer.value = false
  startedFrom : ∃ loader info id, m.host.loaderPartition = .ok (some loader) ∧
    (m.probe.entry (Path.ofText a.node)).run.value = .ok (.found info) ∧
    info.fsType = some "vfat" ∧ info.partitionId = some id ∧
    Guid.parse? m.guids id = some loader
  notStatic : ∃ mounts, m.host.staticMounts = .ok mounts ∧
    mounts.mountsAt (Path.ofText "/boot") = false
  notBusy : (m.host.isBusy (Path.ofText "/boot")).value = false

/-- **An answer fails before the matter is settled**: the question was asked, because the answers
before it have left the matter open. -/
inductive BootObstructed (m : Machine) (a : Assignment) : Prop where
  | loader {failure : Failure} (hefi : m.host.isEfiBoot = true) (hinitrd : m.host.inInitrd = false)
      (hcontainer : m.host.inContainer.value = false)
      (h : m.host.loaderPartition = .error failure)
  | staticMounts {loader : Guid} {failure : Failure} (hefi : m.host.isEfiBoot = true)
      (hinitrd : m.host.inInitrd = false) (hcontainer : m.host.inContainer.value = false)
      (hloader : m.host.loaderPartition = .ok (some loader))
      (h : m.host.staticMounts = .error failure)
  | probe {loader : Guid} {mounts : StaticMounts} {failure : Failure}
      (hefi : m.host.isEfiBoot = true) (hinitrd : m.host.inInitrd = false)
      (hcontainer : m.host.inContainer.value = false)
      (hloader : m.host.loaderPartition = .ok (some loader))
      (hmounts : m.host.staticMounts = .ok mounts)
      (hstatic : mounts.mountsAt (Path.ofText "/boot") = false)
      (hbusy : (m.host.isBusy (Path.ofText "/boot")).value = false)
      (h : (m.probe.entry (Path.ofText a.node)).run.value = .error failure)

theorem bootMismatch?_eq_none_iff {guids : Guid.Reader} {loader : Guid} {info : EntryInfo} :
    bootMismatch? guids loader info = none ↔ info.fsType = some "vfat" ∧
      ∃ id, info.partitionId = some id ∧ Guid.parse? guids id = some loader := by
  unfold bootMismatch?
  by_cases hvfat : info.fsType = some "vfat"
  · cases hid : info.partitionId with
    | none => simp [hvfat]
    | some id =>
        cases hguid : Guid.parse? guids id with
        | none => simp [hvfat, hguid]
        | some guid => simp [hvfat, hguid]
  · simp [hvfat]

/-- **What can be decided about the EFI system partition.** -/
inductive BootVerdict (m : Machine) (a : Assignment) : Except Failure Decision → Prop where
  | emitted (h : BootConfirmed m a) : BootVerdict m a (.ok (.emit (bootPlan a.node)))
  | failed {failure : Failure} (hnot : ¬ BootConfirmed m a) (h : BootObstructed m a) :
      BootVerdict m a (.error failure)
  | skipped {reason : SkipReason} (hnot : ¬ BootConfirmed m a) :
      BootVerdict m a (.ok (.skip reason))

/-- The identity of a partition that was found is confirmed or speaks against it. -/
theorem bootVerdict_of_found {loader : Guid} {info : EntryInfo}
    (hloader : m.host.loaderPartition = .ok (some loader))
    (hfound : (m.probe.entry (Path.ofText a.node)).run.value = .ok (.found info))
    (hrest : bootMismatch? m.guids loader info = none → BootConfirmed m a) :
    BootVerdict m a (match bootMismatch? m.guids loader info with
      | some reason => (pure (.skip reason) : Attempt Decision)
      | none => (bootRequest a.node).planOnAccess bootIdleSeconds >>= fun plan =>
          pure (.emit plan)).run.value := by
  cases hmismatch : bootMismatch? m.guids loader info with
  | some reason =>
      refine .skipped fun h => ?_
      obtain ⟨loader', info', id, hloader', hfound', hvfat, hid, hguid⟩ := h.startedFrom
      rw [hloader] at hloader'
      rw [hfound] at hfound'
      cases hloader'
      cases hfound'
      rw [bootMismatch?_eq_none_iff.mpr ⟨hvfat, id, hid, hguid⟩] at hmismatch
      cases hmismatch
  | none =>
      simp only
      rw [value_bind_of_ok (planOnAccess_bootRequest.mpr rfl)]
      exact .emitted (hrest hmismatch)

/-- **What is decided about the EFI system partition** follows from what the machine answers. -/
theorem decideBoot_verdict (m : Machine) (a : Assignment) :
    BootVerdict m a (decideBoot m a).run.value := by
  -- Every answer but the last one leaves the matter open or settles it against the partition.
  unfold decideBoot
  simp only
  cases hefi : m.host.isEfiBoot with
  | false => exact .skipped fun h => by simpa [hefi] using h.isEfiBoot
  | true =>
  rw [if_neg (by simp)]
  cases hinitrd : m.host.inInitrd with
  | true => exact .skipped fun h => by simpa [hinitrd] using h.notInInitrd
  | false =>
  rw [if_neg (by simp), value_bind_of_ok (liftM_eq_ok.mpr rfl)]
  cases hcontainer : m.host.inContainer.value with
  | true => exact .skipped fun h => by simpa [hcontainer] using h.notInContainer
  | false =>
  rw [if_neg (by simp)]
  cases hloader : m.host.loaderPartition with
  | error failure =>
      rw [value_bind_of_error (during_error rfl)]
      exact .failed (fun h => by simpa [hloader] using h.startedFrom)
        (.loader hefi hinitrd hcontainer hloader)
  | ok loader? =>
  rw [value_bind_of_ok (during_eq_ok.mpr rfl)]
  cases loader? with
  | none => exact .skipped fun h => by simpa [hloader] using h.startedFrom
  | some loader =>
  simp only
  cases hmounts : m.host.staticMounts with
  | error failure =>
      rw [value_bind_of_error (during_error rfl)]
      exact .failed (fun h => by simpa [hmounts] using h.notStatic)
        (.staticMounts hefi hinitrd hcontainer hloader hmounts)
  | ok mounts =>
  rw [value_bind_of_ok (during_eq_ok.mpr rfl)]
  cases hstatic : mounts.mountsAt (Path.ofText bootMountPoint) with
  | true => exact .skipped fun h => absurd h.notStatic (by
      simpa [hmounts] using show mounts.mountsAt (Path.ofText "/boot") = true from hstatic)
  | false =>
  rw [if_neg (by simp), value_bind_of_ok (liftM_eq_ok.mpr rfl)]
  cases hbusy : (m.host.isBusy (Path.ofText bootMountPoint)).value with
  | true => exact .skipped fun h => absurd (hbusy.symm.trans h.notBusy) (by simp)
  | false =>
  rw [if_neg (by simp)]
  cases hprobed : (m.probe.entry (Path.ofText a.node)).run.value with
  | error failure =>
      rw [value_bind_of_error (during_error hprobed)]
      exact .failed (fun h => by simpa [hprobed] using h.startedFrom)
        (.probe hefi hinitrd hcontainer hloader hmounts hstatic hbusy hprobed)
  | ok probed =>
  rw [value_bind_of_ok (during_eq_ok.mpr hprobed)]
  cases probed with
  | ambiguous => exact .skipped fun h => by simpa [hprobed] using h.startedFrom
  | nothing => exact .skipped fun h => by simpa [hprobed] using h.startedFrom
  | found info =>
      refine bootVerdict_of_found hloader hprobed fun hmatch => ?_
      obtain ⟨hvfat, id, hid, hguid⟩ := bootMismatch?_eq_none_iff.mp hmatch
      exact ⟨hefi, hinitrd, hcontainer, ⟨loader, info, id, hloader, hprobed, hvfat, hid, hguid⟩,
        ⟨mounts, hmounts, hstatic⟩, hbusy⟩

/-- The plan is decided on just when everything says so. -/
theorem decideBoot_eq_emit_iff : (decideBoot m a).run.value = .ok (.emit plan) ↔
    BootConfirmed m a ∧ plan = bootPlan a.node := by
  have hverdict := decideBoot_verdict m a
  generalize (decideBoot m a).run.value = value at hverdict ⊢
  cases hverdict with
  | emitted h => simp [h, eq_comm]
  | failed hnot => simp [hnot]
  | skipped hnot => simp [hnot]

/-- The role is skipped if something speaks against it and no answer fails. -/
theorem decideBoot_eq_skip (hnot : ¬ BootConfirmed m a) (hclear : ¬ BootObstructed m a) :
    ∃ reason, (decideBoot m a).run.value = .ok (.skip reason) := by
  have hverdict := decideBoot_verdict m a
  generalize (decideBoot m a).run.value = value at hverdict ⊢
  cases hverdict with
  | emitted h => exact absurd h hnot
  | failed _ h => exact absurd h hclear
  | @skipped reason _ => exact ⟨reason, rfl⟩

/-! ## The pass -/

/-- **A plan with a unit for a role's mount point** was decided on for a partition that was elected
for the role, unless that is the root. -/
theorem submitted_serves (hplan : plan ∈ site.submitted settings s) (hplace : role.IsAt mountPoint)
    (hserves : plan.Serves mountPoint) (hroot : role ≠ .root) :
    ∃ rule a s', site.Reaches settings s rule a s' ∧ rule.role = role ∧
      (rule.decide (site.machine s') a).run.value = .ok (.emit plan) := by
  rcases submitted_cases hplan with ⟨-, hdecided⟩ | ⟨rule, a, s', hreaches, hdecided⟩
  · have hof := decideRoot_isOf settings _ _ hdecided plan rfl
    exact absurd (hof.eq_of_serves hplace hserves).symm hroot
  · have hof := rule.decide_isOf _ a _ hdecided plan rfl
    exact ⟨rule, a, s', hreaches, hof.eq_of_serves hplace hserves, hdecided⟩

theorem value_decide_of_boot (h : rule.role = .boot) :
    (rule.decide m a).run.value = (decideBoot m a).run.value := by
  unfold Rule.decide
  rw [h]

/-- **The EFI system partition is mounted if and only if everything says so.**  A plan with a unit
for `/boot` is handed over just when a pass comes to a partition elected for it, in a state in which
the machine confirms that the partition is to be mounted there; the plan is the one for that
partition.  If the machine does not confirm it and no answer fails, then the role is skipped, and
the pass has neither emitted it nor failed on its account. -/
theorem boot_submitted_iff (site : Site σ) (settings : Settings) (s : σ) :
    (∀ plan, (plan ∈ site.submitted settings s ∧ plan.Serves "/boot") ↔
      ∃ rule a s', site.Reaches settings s rule a s' ∧ rule.role = .boot ∧
        BootConfirmed (site.machine s') a ∧ plan = bootPlan a.node) ∧
    ((∀ rule a s', site.Reaches settings s rule a s' → rule.role = .boot →
        ¬ BootConfirmed (site.machine s') a ∧ ¬ BootObstructed (site.machine s') a) →
      "boot" ∉ (site.run settings s).status.value.emitted ∧
      "boot" ∉ (site.run settings s).status.value.failed ∧
      ∀ rule a s', site.Reaches settings s rule a s' → rule.role = .boot →
        ∃ reason,
          site.result (site.turn (partitionErrand (rule, a)) s') = .ok (.skipped reason)) := by
  constructor
  · intro plan
    rw [submitted_eq, List.mem_filterMap]
    constructor
    · rintro ⟨⟨turn, hturn, hplan⟩, hserves⟩
      have hdecision := Turn.plan?_eq_some.mp hplan
      rcases turn_cases hturn with ⟨-, rfl⟩ | ⟨-, failure, hthrow⟩ | ⟨rule, a, s', hreaches, rfl⟩
      · -- The root is mounted elsewhere.
        have hof := decideRoot_isOf settings _ _ hdecision plan rfl
        cases hof.eq_of_serves boot_isAt hserves
      · rw [hthrow] at hdecision
        cases hdecision
      · have hof := rule.decide_isOf _ a _ hdecision plan rfl
        have hrole := hof.eq_of_serves boot_isAt hserves
        have hboot := (value_decide_of_boot hrole).symm.trans hdecision
        obtain ⟨hconfirmed, heq⟩ := decideBoot_eq_emit_iff.mp hboot
        exact ⟨rule, a, s', hreaches, hrole, hconfirmed, heq⟩
    · rintro ⟨rule, a, s', hreaches, hrole, hconfirmed, rfl⟩
      refine ⟨⟨_, hreaches.mem_turns, Turn.plan?_eq_some.mpr ?_⟩, bootPlan_serves⟩
      exact (value_decide_of_boot hrole).trans (decideBoot_eq_emit_iff.mpr ⟨hconfirmed, rfl⟩)
  · intro hopen
    have hskipped : ∀ rule a s', site.Reaches settings s rule a s' → rule.role = .boot →
        ∃ reason, site.result (site.turn (partitionErrand (rule, a)) s') =
          .ok (.skipped reason) := by
      intro rule a s' hreaches hrole
      obtain ⟨hnot, hclear⟩ := hopen rule a s' hreaches hrole
      obtain ⟨reason, hvalue⟩ := decideBoot_eq_skip hnot hclear
      exact ⟨reason, (turn_of_skip _ _ ((value_decide_of_boot hrole).trans hvalue)).1⟩
    have hturns : ∀ turn ∈ site.turns settings s, turn.subject = "boot" →
        ∃ reason, site.result turn = .ok (.skipped reason) := by
      intro turn hturn hsubject
      rcases turn_cases hturn with ⟨-, rfl⟩ | ⟨hdiscovery, -⟩ | ⟨rule, a, s', hreaches, rfl⟩
      · exact absurd hsubject (show Role.root.id ≠ "boot" by decide)
      · rw [hdiscovery] at hsubject
        exact absurd hsubject (by decide)
      · exact hskipped rule a s' hreaches (Role.id_injective hsubject)
    refine ⟨?_, ?_, hskipped⟩
    · rw [emitted_run, List.mem_map]
      rintro ⟨turn, hturn, hsubject⟩
      obtain ⟨hturn, hresult⟩ := List.mem_filter.mp hturn
      obtain ⟨reason, hskip⟩ := hturns turn hturn hsubject
      rw [hskip] at hresult
      cases hresult
    · rw [failed_run, List.mem_map]
      rintro ⟨turn, hturn, hsubject⟩
      obtain ⟨hturn, hresult⟩ := List.mem_filter.mp hturn
      obtain ⟨reason, hskip⟩ := hturns turn hturn hsubject
      rw [hskip] at hresult
      cases hresult

end PartitionUnits
