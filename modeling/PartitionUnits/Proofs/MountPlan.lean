import PartitionUnits.Activation
import PartitionUnits.Proofs.Submission.Interruption
import PartitionUnits.Proofs.Unit.Name

/-!
# Plans that decisions make

What all plans have in common that the decisions about roles come to.

## Main Definitions

* `Plan.IsForRole` — a plan with plain names and at most the settings of the role's own volume
* `Plan.IsPlain` — what such a plan has in common with those of all other requests
* `Plan.IsForRole.drawsApart` — no temporary file of it has the name of one of its files
* `MountRequest.plan_eq_ok_iff`, `planSwap_eq_ok_iff` — the plans that requests come to
* `Plan.bodies`, `MountRequest.bodies_of_planned` — what the units of those plans do
* `decideRoot_ensures`, `Rule.decide_ensures` — decisions come to no plans but those for their roles
-/

namespace PartitionUnits

open Attempt UnitName

/-- **A plan for a role**: its names have no slashes, those of its units tell their kinds, and the
only settings for a unit that is not generated are those of the role's unlocked volume. -/
structure Plan.IsForRole (plan : Plan) (role : Role) : Prop where
  names : plan.HasPlainNames
  kinds : ∀ u ∈ plan.units, TellsKind u.name
  dropIns : plan.dropIns = [] ∨ plan.dropIns = [Unlocking.noTimeout role.id]

/-! ## Units -/

/-- Links can express every dependency of another unit on a unit. -/
def UnitFile.IsLinked (u : UnitFile) : Prop :=
  ∀ e ∈ u.edges, e.source = u.name ∨ e.relation.linkSuffix? ≠ none

/-- No slash is in the name of a unit or in those of the units that depend on it, the name tells the
kind of the unit, and links can express what depends on it. -/
structure UnitFile.IsPlain (u : UnitFile) : Prop where
  name : '/' ∉ u.name.toList
  kind : TellsKind u.name
  source : ∀ e ∈ u.edges, '/' ∉ e.source.toList
  linked : u.IsLinked

namespace UnitFile

variable {u : UnitFile} {relation : Relation} {source target : String}

theorem isLinked_of_no_edges (h : u.edges = []) : u.IsLinked := by
  rw [IsLinked, h]
  simp

theorem IsLinked.depends (h : u.IsLinked) : (u.depends relation target).IsLinked := by
  intro e he
  rcases List.mem_append.mp he with he | he
  · exact h e he
  · rw [List.mem_singleton.mp he]
    exact Or.inl rfl

theorem IsLinked.dependedOnBy (h : u.IsLinked) (hrelation : relation.linkSuffix? ≠ none) :
    (u.dependedOnBy source relation).IsLinked := by
  intro e he
  rcases List.mem_append.mp he with he | he
  · exact h e he
  · rw [List.mem_singleton.mp he]
    exact Or.inr hrelation

namespace IsPlain

theorem of_no_edges (h : '/' ∉ u.name.toList) (hkind : TellsKind u.name) (hedges : u.edges = []) :
    u.IsPlain where
  name := h
  kind := hkind
  source := by
    rw [hedges]
    simp
  linked := isLinked_of_no_edges hedges

theorem depends (h : u.IsPlain) : (u.depends relation target).IsPlain where
  name := h.name
  kind := h.kind
  source := by
    intro e he
    rcases List.mem_append.mp he with he | he
    · exact h.source e he
    · rw [List.mem_singleton.mp he]
      exact h.name
  linked := h.linked.depends

theorem dependedOnBy (h : u.IsPlain) (hsource : '/' ∉ source.toList)
    (hrelation : relation.linkSuffix? ≠ none) : (u.dependedOnBy source relation).IsPlain where
  name := h.name
  kind := h.kind
  source := by
    intro e he
    rcases List.mem_append.mp he with he | he
    · exact h.source e he
    · rw [List.mem_singleton.mp he]
      exact hsource
  linked := h.linked.dependedOnBy hrelation

end IsPlain

end UnitFile

theorem slash_notMem_milestone (m : Milestone) : '/' ∉ m.unit.toList := by
  cases m <;> decide

theorem slash_notMem_deviceUnit (id : String) : '/' ∉ (Unlocking.deviceUnit id).toList :=
  slash_notMem_append (slash_notMem_append (by decide) (slash_notMem_escape id)) (by decide)

theorem slash_notMem_serviceUnit (id : String) : '/' ∉ (Unlocking.serviceUnit id).toList := by
  have hstart : '/' ∉ ("systemd-cryptsetup" ++ "@" : String).toList := by decide
  exact slash_notMem_append (slash_notMem_append hstart (slash_notMem_escape id)) (by decide)

theorem serviceUnit_tellsKind (id : String) : TellsKind (Unlocking.serviceUnit id) :=
  ⟨_, ".service", by decide, rfl⟩

/-- The unit for a path has a plain name, with the suffix that it was asked for. -/
theorem plain_of_ofPath {path suffix name : String} (h : ofPath path suffix = .ok name)
    (hsuffix : suffix ∈ unitSuffixes) : '/' ∉ name.toList ∧ TellsKind name := by
  have hplain : ∀ s ∈ unitSuffixes, '/' ∉ s.toList := by decide
  refine ⟨slash_notMem_ofPath h (hplain suffix hsuffix), ?_⟩
  obtain ⟨escaped, -, rfl⟩ := ofPath_eq_ok h
  exact ⟨escaped, suffix, hsuffix, rfl⟩

theorem MountRequest.unit_isPlain {r : MountRequest} {name device : String}
    {fsType : Option String} (h : '/' ∉ name.toList) (hkind : TellsKind name) :
    (r.unit name device fsType).IsPlain := by
  unfold MountRequest.unit
  simp only
  split
  · exact (UnitFile.IsPlain.of_no_edges h hkind rfl).depends.dependedOnBy
      (slash_notMem_milestone _) (by decide)
  · exact .of_no_edges h hkind rfl

theorem Unlocking.service_isPlain {id source consumer sourceUnit : String} {rw : Bool}
    (h : '/' ∉ sourceUnit.toList) :
    (Unlocking.service id source rw consumer sourceUnit).IsPlain := by
  refine .dependedOnBy (.dependedOnBy (.dependedOnBy ?_ h (by decide)) (slash_notMem_milestone _)
    (by decide)) (slash_notMem_deviceUnit id) (by decide)
  exact .depends (.depends (.depends (.depends (.depends (.depends (.depends
    (.of_no_edges (slash_notMem_serviceUnit id) (serviceUnit_tellsKind id) rfl)))))))

/-! ## Plans -/

/-- **A plan that requests come to, whoever makes them**: its units have plain names that tell their
kinds, and the only settings for a unit that is not generated are those of an unlocked volume. -/
structure Plan.IsPlain (plan : Plan) : Prop where
  unit : ∀ u ∈ plan.units, u.IsPlain
  dropIn : ∀ x ∈ plan.dropIns, ∃ id, x = Unlocking.noTimeout id

namespace Plan.IsPlain

variable {plan : Plan} {role : Role} {units : List UnitFile}

theorem of_units (h : ∀ u ∈ units, u.IsPlain) : Plan.IsPlain { units } where
  unit := h
  dropIn := by simp

theorem of_unlocking {id : String} (h : ∀ u ∈ units, u.IsPlain) :
    Plan.IsPlain { units, dropIns := [Unlocking.noTimeout id] } where
  unit := h
  dropIn := fun _ hx => ⟨id, List.mem_singleton.mp hx⟩

theorem append_unit {u : UnitFile} (h : plan.IsPlain) (hu : u.IsPlain) :
    Plan.IsPlain { plan with units := plan.units ++ [u] } where
  unit := by
    intro v hv
    rcases List.mem_append.mp hv with hv | hv
    · exact h.unit v hv
    · rw [List.mem_singleton.mp hv]
      exact hu
  dropIn := h.dropIn

theorem names (h : plan.IsPlain) : plan.HasPlainNames where
  unit := fun u hu => (h.unit u hu).name
  edge := fun u hu => (h.unit u hu).source
  dropIn := by
    intro x hx
    obtain ⟨id, rfl⟩ := h.dropIn x hx
    exact ⟨slash_notMem_deviceUnit id, show '/' ∉ "50-job-timeout-sec-0".toList by decide⟩

/-- A plan without settings for another volume than a role's is one for the role. -/
theorem isForRole (h : plan.IsPlain)
    (hdropIns : plan.dropIns = [] ∨ plan.dropIns = [Unlocking.noTimeout role.id]) :
    plan.IsForRole role where
  names := h.names
  kinds := fun u hu => (h.unit u hu).kind
  dropIns := hdropIns

end Plan.IsPlain

namespace Plan.IsForRole

variable {role : Role}

/-- No name is drawn that is the name of a file of such a plan. -/
theorem drawsApart {plan : Plan} {d : Destination} {rendered : List Destination.Rendered}
    (h : plan.IsForRole role) (hdecided : d.Decided plan.units rendered) :
    d.DrawsApart (d.fileEntries rendered plan.dropIns) :=
  h.names.drawsApart h.kinds hdecided

end Plan.IsForRole

/-! ## What requests come to -/

/-- **The plans that a request to mount can come to**: the mount of the device, or of what a service
unlocks it as. -/
inductive MountRequest.Planned (r : MountRequest) (name : String) : Plan → Prop where
  | plain (h : r.fsType ≠ some luksType) :
      Planned r name { units := [r.unit name r.device r.fsType] }
  | unlocked {sourceUnit : String} (h : r.fsType = some luksType)
      (hsource : UnitName.ofPath r.device ".device" = .ok sourceUnit) :
      Planned r name {
        units := [Unlocking.service r.id r.device r.rw name sourceUnit,
          r.unit name ("/dev/mapper/" ++ r.id) none]
        dropIns := [Unlocking.noTimeout r.id] }

theorem Unlocking.plan_eq_ok_iff {id source consumer : String} {rw : Bool} {layer : Unlocking} :
    (Unlocking.plan id source rw consumer).run.value = .ok layer ↔
      ∃ sourceUnit, UnitName.ofPath source ".device" = .ok sourceUnit ∧
        layer = ⟨"/dev/mapper/" ++ id, service id source rw consumer sourceUnit, noTimeout id⟩ := by
  unfold Unlocking.plan
  cases UnitName.ofPath source ".device" with
  | error e =>
      constructor
      · intro h
        cases h
      · rintro ⟨_, h, -⟩
        cases h
  | ok sourceUnit =>
      simp only [bind_eq_ok, pure_eq_ok]
      constructor
      · rintro ⟨-, -, rfl⟩
        exact ⟨sourceUnit, rfl, rfl⟩
      · rintro ⟨_, h, rfl⟩
        cases h
        exact ⟨(), rfl, rfl⟩

/-- **What a request to mount comes to.** -/
theorem MountRequest.plan_eq_ok_iff {r : MountRequest} {plan : Plan} :
    r.plan.run.value = .ok plan ↔
      ∃ name, UnitName.ofPath r.mountPoint ".mount" = .ok name ∧ r.Planned name plan := by
  unfold MountRequest.plan
  simp only
  rw [bind_eq_ok]
  cases UnitName.ofPath r.mountPoint ".mount" with
  | error e =>
      constructor
      · rintro ⟨-, -, h⟩
        cases h
      · rintro ⟨_, h, -⟩
        cases h
  | ok name =>
      by_cases hluks : r.fsType = some luksType
      · simp only [if_pos hluks, bind_eq_ok, pure_eq_ok, Unlocking.plan_eq_ok_iff]
        constructor
        · rintro ⟨-, -, layer, ⟨sourceUnit, hsource, rfl⟩, rfl⟩
          exact ⟨name, rfl, .unlocked hluks hsource⟩
        · rintro ⟨_, h, hplanned⟩
          cases h
          cases hplanned with
          | plain h => exact absurd hluks h
          | unlocked _ hsource => exact ⟨(), rfl, _, ⟨_, hsource, rfl⟩, rfl⟩
      · simp only [if_neg hluks, pure_eq_ok]
        constructor
        · rintro ⟨-, -, rfl⟩
          exact ⟨name, rfl, .plain hluks⟩
        · rintro ⟨_, h, hplanned⟩
          cases h
          cases hplanned with
          | plain => exact ⟨(), rfl, rfl⟩
          | unlocked h => exact absurd h hluks

/-- What a request to mount on access comes to. -/
theorem MountRequest.planOnAccess_eq_ok_iff {r : MountRequest} {idleSeconds : Nat} {plan : Plan} :
    (r.planOnAccess idleSeconds).run.value = .ok plan ↔
      ∃ inner name, r.behindAutomount.plan.run.value = .ok inner ∧
        UnitName.ofPath r.mountPoint ".automount" = .ok name ∧
        plan = { inner with units := inner.units ++ [r.automountUnit name idleSeconds] } := by
  unfold MountRequest.planOnAccess
  rw [bind_eq_ok]
  cases UnitName.ofPath r.mountPoint ".automount" with
  | error e =>
      constructor
      · rintro ⟨_, -, h⟩
        cases h
      · rintro ⟨_, _, -, h, -⟩
        cases h
  | ok name =>
      simp only [pure_eq_ok]
      constructor
      · rintro ⟨inner, hinner, rfl⟩
        exact ⟨inner, name, hinner, rfl, rfl⟩
      · rintro ⟨inner, _, hinner, h, rfl⟩
        cases h
        exact ⟨inner, hinner, rfl⟩

/-- What swapping on a device comes to. -/
theorem planSwap_eq_ok_iff {device : String} {plan : Plan} :
    (planSwap device).run.value = .ok plan ↔
      ∃ name, UnitName.ofPath device ".swap" = .ok name ∧
        plan = { units := [swapUnit name device] } := by
  unfold planSwap
  rw [bind_eq_ok]
  cases UnitName.ofPath device ".swap" with
  | error e =>
      constructor
      · rintro ⟨-, -, h⟩
        cases h
      · rintro ⟨_, h, -⟩
        cases h
  | ok name =>
      simp only [pure_eq_ok]
      constructor
      · rintro ⟨-, -, rfl⟩
        exact ⟨name, rfl, rfl⟩
      · rintro ⟨_, h, rfl⟩
        cases h
        exact ⟨(), rfl, rfl⟩

/-! ## What plans do -/

/-- What the units of a plan do. -/
def Plan.bodies (plan : Plan) : List UnitBody := plan.units.map (·.body)

theorem MountRequest.body_unit {r : MountRequest} {name device : String} {fsType : Option String} :
    (r.unit name device fsType).body =
      .mount device r.mountPoint fsType (mountOptions r.options r.rw) := by
  unfold MountRequest.unit
  simp only
  split <;> rfl

/-- **What a planned mount does**: it mounts the device with its type, or it unlocks the device and
mounts what that is unlocked as. -/
theorem MountRequest.bodies_of_planned {r : MountRequest} {name : String} {plan : Plan}
    (h : r.Planned name plan) :
    plan.bodies =
      if r.fsType = some luksType then
        [.unlock r.id r.device (!r.rw),
          .mount ("/dev/mapper/" ++ r.id) r.mountPoint none (mountOptions r.options r.rw)]
      else [.mount r.device r.mountPoint r.fsType (mountOptions r.options r.rw)] := by
  cases h with
  | plain hplain =>
      rw [if_neg hplain]
      exact congrArg (fun body => [body]) body_unit
  | unlocked hluks =>
      rw [if_pos hluks]
      exact congrArg (fun body => [_, body]) body_unit

/-- A plan has a unit that swaps on a device. -/
def Plan.Swaps (plan : Plan) : Prop := ∃ device, .swap device ∈ plan.bodies

/-- No plan for a mount swaps on a device. -/
theorem MountRequest.plan_not_swaps (r : MountRequest) : Ensures r.plan (¬ ·.Swaps) := by
  intro plan h
  obtain ⟨name, -, hplanned⟩ := MountRequest.plan_eq_ok_iff.mp h
  rintro ⟨device, hswap⟩
  rw [bodies_of_planned hplanned] at hswap
  split at hswap <;> simp at hswap

theorem MountRequest.planOnAccess_not_swaps (r : MountRequest) (idleSeconds : Nat) :
    Ensures (r.planOnAccess idleSeconds) (¬ ·.Swaps) := by
  intro plan h
  obtain ⟨inner, name, hinner, -, rfl⟩ := MountRequest.planOnAccess_eq_ok_iff.mp h
  rintro ⟨device, hswap⟩
  rw [Plan.bodies, List.map_append, List.mem_append] at hswap
  rcases hswap with hswap | hswap
  · exact r.behindAutomount.plan_not_swaps inner hinner ⟨device, hswap⟩
  · cases List.mem_singleton.mp hswap

/-! ## The names in plans -/

theorem MountRequest.plan_isPlain (r : MountRequest) : Ensures r.plan Plan.IsPlain := by
  intro plan h
  obtain ⟨name, hname, hplanned⟩ := MountRequest.plan_eq_ok_iff.mp h
  obtain ⟨hplain, hkind⟩ := plain_of_ofPath hname (by decide)
  cases hplanned with
  | plain =>
      refine .of_units fun u hu => ?_
      rw [List.mem_singleton.mp hu]
      exact MountRequest.unit_isPlain hplain hkind
  | unlocked _ hsource =>
      refine .of_unlocking fun u hu => ?_
      rcases List.mem_cons.mp hu with rfl | hu
      · exact Unlocking.service_isPlain (slash_notMem_ofPath hsource (by decide))
      · rw [List.mem_singleton.mp hu]
        exact MountRequest.unit_isPlain hplain hkind

theorem MountRequest.planOnAccess_isPlain (r : MountRequest) (idleSeconds : Nat) :
    Ensures (r.planOnAccess idleSeconds) Plan.IsPlain := by
  intro plan h
  obtain ⟨inner, name, hinner, hname, rfl⟩ := MountRequest.planOnAccess_eq_ok_iff.mp h
  refine (r.behindAutomount.plan_isPlain inner hinner).append_unit ?_
  obtain ⟨hplain, hkind⟩ := plain_of_ofPath hname (by decide)
  exact (UnitFile.IsPlain.of_no_edges hplain hkind rfl).depends.dependedOnBy
    (slash_notMem_milestone _) (by decide)

theorem planSwap_isPlain (device : String) : Ensures (planSwap device) Plan.IsPlain := by
  intro plan h
  obtain ⟨name, hname, rfl⟩ := planSwap_eq_ok_iff.mp h
  refine .of_units fun u hu => ?_
  obtain ⟨hplain, hkind⟩ := plain_of_ofPath hname (by decide)
  rw [List.mem_singleton.mp hu]
  exact (UnitFile.IsPlain.of_no_edges hplain hkind rfl).depends.dependedOnBy
    (slash_notMem_milestone _) (by decide)

/-- The only settings for another unit are those of the volume that is unlocked. -/
theorem MountRequest.dropIns_of_planned {r : MountRequest} {name : String} {plan : Plan}
    (h : r.Planned name plan) :
    plan.dropIns = [] ∨ plan.dropIns = [Unlocking.noTimeout r.id] := by
  cases h with
  | plain => exact Or.inl rfl
  | unlocked => exact Or.inr rfl

theorem MountRequest.plan_ensures {r : MountRequest} {role : Role} (hid : r.id = role.id) :
    Ensures r.plan (·.IsForRole role) := by
  intro plan h
  obtain ⟨name, -, hplanned⟩ := MountRequest.plan_eq_ok_iff.mp h
  exact (r.plan_isPlain plan h).isForRole (hid ▸ MountRequest.dropIns_of_planned hplanned)

theorem MountRequest.planOnAccess_ensures {r : MountRequest} {role : Role} {idleSeconds : Nat}
    (hid : r.id = role.id) : Ensures (r.planOnAccess idleSeconds) (·.IsForRole role) := by
  intro plan h
  have hplain := r.planOnAccess_isPlain idleSeconds plan h
  obtain ⟨inner, name, hinner, -, rfl⟩ := MountRequest.planOnAccess_eq_ok_iff.mp h
  obtain ⟨_, -, hplanned⟩ := MountRequest.plan_eq_ok_iff.mp hinner
  have hdropIns := MountRequest.dropIns_of_planned hplanned
  exact hplain.isForRole (by rwa [show r.behindAutomount.id = role.id from hid] at hdropIns)

theorem planSwap_ensures {device : String} {role : Role} :
    Ensures (planSwap device) (·.IsForRole role) := by
  intro plan h
  have hplain := planSwap_isPlain device plan h
  obtain ⟨name, -, rfl⟩ := planSwap_eq_ok_iff.mp h
  exact hplain.isForRole (Or.inl rfl)

/-! ## Decisions -/

/-- A decision that leaves its role alone or has a plan with a property. -/
def Decision.Emits (decision : Decision) (P : Plan → Prop) : Prop :=
  ∀ plan, decision = .emit plan → P plan

/-- A decision that leaves its role alone or has a plan for it. -/
def Decision.IsForRole (decision : Decision) (role : Role) : Prop :=
  ∀ plan, decision = .emit plan → plan.IsForRole role

section

variable {P : Plan → Prop}

theorem ensures_skip (reason : SkipReason) :
    Ensures (pure (.skip reason) : Attempt Decision) (·.Emits P) :=
  .pure fun _ h => by cases h

theorem ensures_emit {x : Attempt Plan} (h : Ensures x P) :
    Ensures (x >>= fun plan => (pure (.emit plan) : Attempt Decision)) (·.Emits P) := by
  refine .bind_of h fun plan hplan => .pure ?_
  intro plan' heq
  cases heq
  exact hplan

theorem decideRoot_emits {settings : Settings} {h : Host}
    (hplan : Ensures (rootRequest h.inInitrd settings.rootWritable).plan P) :
    Ensures (decideRoot settings h) (·.Emits P) := by
  unfold decideRoot
  split
  · exact ensures_skip _
  refine .bind fun loader => ?_
  split
  · exact ensures_skip _
  · exact ensures_emit hplan

theorem decideSwap_emits {h : Host} {a : Assignment} (hplan : Ensures (planSwap a.node) P) :
    Ensures (decideSwap h a) (·.Emits P) := by
  unfold decideSwap
  refine .bind fun mounts => ?_
  split
  · exact ensures_skip _
  · exact ensures_emit hplan

theorem decideBoot_emits {m : Machine} {a : Assignment}
    (hplan : Ensures ((bootRequest a.node).planOnAccess bootIdleSeconds) P) :
    Ensures (decideBoot m a) (·.Emits P) := by
  unfold decideBoot
  simp only
  split
  · exact ensures_skip _
  split
  · exact ensures_skip _
  refine .bind fun inContainer => ?_
  split
  · exact ensures_skip _
  refine .bind fun loader => ?_
  split
  · exact ensures_skip _
  refine .bind fun mounts => ?_
  split
  · exact ensures_skip _
  refine .bind fun busy => ?_
  split
  · exact ensures_skip _
  refine .bind fun probed => ?_
  split
  · exact ensures_skip _
  · exact ensures_skip _
  split
  · exact ensures_skip _
  · exact ensures_emit hplan

theorem decideData_emits {role : Role} {m : Machine} {a : Assignment}
    (hplan : ∀ mountPoint fsType, role.mountPoint? false = some mountPoint →
      Ensures (dataRequest role a mountPoint fsType).plan P) :
    Ensures (decideData role m a) (·.Emits P) := by
  unfold decideData
  split
  · exact .throw _
  next mountPoint hmountPoint =>
  refine .bind fun busy => ?_
  split
  · exact ensures_skip _
  refine .bind fun probed => ?_
  split
  · exact ensures_skip _
  · exact ensures_skip _
  split
  · exact ensures_skip _
  · exact ensures_emit (hplan _ _ hmountPoint)

end

theorem decideRoot_ensures (settings : Settings) (h : Host) :
    Ensures (decideRoot settings h) (·.IsForRole .root) :=
  decideRoot_emits (MountRequest.plan_ensures rfl)

/-- **The decision for an elected partition has no plan but one for its role.** -/
theorem Rule.decide_ensures (r : Rule) (m : Machine) (a : Assignment) :
    Ensures (r.decide m a) (·.IsForRole r.role) := by
  unfold Rule.decide
  split
  · exact decideSwap_emits planSwap_ensures
  · next h =>
      rw [h]
      exact decideBoot_emits (MountRequest.planOnAccess_ensures rfl)
  · exact decideData_emits fun _ _ _ => MountRequest.plan_ensures rfl

theorem decideRoot_not_swaps (settings : Settings) (h : Host) :
    Ensures (decideRoot settings h) (·.Emits (¬ ·.Swaps)) :=
  decideRoot_emits (MountRequest.plan_not_swaps _)

/-- **Only the decision for a swap partition has a plan that swaps.** -/
theorem Rule.decide_swaps (r : Rule) (m : Machine) (a : Assignment) :
    Ensures (r.decide m a) (·.Emits fun plan => plan.Swaps → r.role = .swap) := by
  unfold Rule.decide
  split
  · next h => exact decideSwap_emits fun _ _ _ => h
  · exact decideBoot_emits fun plan hplan hswaps =>
      absurd hswaps (MountRequest.planOnAccess_not_swaps _ _ plan hplan)
  · exact decideData_emits fun _ _ _ plan hplan hswaps =>
      absurd hswaps (MountRequest.plan_not_swaps _ plan hplan)

/-- **When a swap partition is swapped on**: no static mount is for swap. -/
theorem decideSwap_eq_emit_iff {h : Host} {a : Assignment} {plan : Plan} :
    (decideSwap h a).run.value = .ok (.emit plan) ↔
      ∃ mounts, h.staticMounts = .ok mounts ∧ mounts.hasType "swap" = false ∧
        (planSwap a.node).run.value = .ok plan := by
  unfold decideSwap
  rw [bind_eq_ok]
  simp only [during_eq_ok]
  constructor
  · rintro ⟨mounts, hmounts, hrest⟩
    split at hrest
    · cases hrest
    next hswap =>
    obtain ⟨plan', hplan, hpure⟩ := bind_eq_ok.mp hrest
    cases hpure
    exact ⟨mounts, hmounts, by simpa using hswap, hplan⟩
  · rintro ⟨mounts, hmounts, hswap, hplan⟩
    refine ⟨mounts, hmounts, ?_⟩
    rw [if_neg (by simp [hswap])]
    exact bind_eq_ok.mpr ⟨plan, hplan, rfl⟩

/-- **When a data partition is mounted**: its place is not occupied, and a file system is found on
it. -/
theorem decideData_eq_emit_iff {role : Role} {m : Machine} {a : Assignment} {plan : Plan} :
    (decideData role m a).run.value = .ok (.emit plan) ↔
      ∃ mountPoint info fsType, role.mountPoint? false = some mountPoint ∧
        (m.host.isBusy (Path.ofText mountPoint)).value = false ∧
        (m.probe.filesystem (Path.ofText a.node)).run.value = .ok (.found info) ∧
        info.fsType = some fsType ∧
        (dataRequest role a mountPoint fsType).plan.run.value = .ok plan := by
  unfold decideData
  constructor
  · intro h
    split at h
    · cases h
    next mountPoint hplace =>
    obtain ⟨busy, hbusy, h⟩ := bind_eq_ok.mp h
    split at h
    · cases h
    next hfree =>
    obtain ⟨probed, hprobed, h⟩ := bind_eq_ok.mp h
    rw [during_eq_ok] at hprobed
    split at h
    · cases h
    · cases h
    next info =>
    split at h
    · cases h
    next fsType hfsType =>
    obtain ⟨plan', hplan, hpure⟩ := bind_eq_ok.mp h
    cases hpure
    have hfree : (m.host.isBusy (Path.ofText mountPoint)).value = false :=
      (liftM_eq_ok.mp hbusy).trans (by simpa using hfree)
    exact ⟨mountPoint, info, fsType, hplace, hfree, hprobed, hfsType, hplan⟩
  · rintro ⟨mountPoint, info, fsType, hplace, hfree, hprobed, hfsType, hplan⟩
    rw [hplace]
    refine bind_eq_ok.mpr ⟨false, liftM_eq_ok.mpr hfree, ?_⟩
    refine bind_eq_ok.mpr ⟨.found info, during_eq_ok.mpr hprobed, ?_⟩
    simp only [hfsType]
    exact bind_eq_ok.mpr ⟨plan, hplan, rfl⟩

end PartitionUnits
