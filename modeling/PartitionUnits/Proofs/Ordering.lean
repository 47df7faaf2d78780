import Mathlib.Logic.Relation
import PartitionUnits.Proofs.Turns
import PartitionUnits.Proofs.UnlockChain

/-!
# The order in which units start

A unit says which units it starts before or after, and a mount starts after the check of its
device.  However many plans a pass hands over, no units wait for each other in a circle.

## Main Definitions

* `UnitFile.Orders`, `Precedes` — one unit has to start before another one
* `startStage` — how late units start, by the endings of their names
* `UnitFile.Ascends` — a unit is ordered only between units of different stages
* `submitted_ascends` — all units that a pass hands over are
* `ordering_acyclic` — so there is no circle

## Design Notes

Names are made from device nodes, which can be any texts, so two names that were made for different
purposes can be the same one.  What cannot change is how a name ends: the kind of a unit alone puts
it into the order, and names that coincide are of one kind.
-/

namespace PartitionUnits

open Attempt

variable {σ : Type} {site : Site σ} {settings : Settings} {s : σ} {u : UnitFile} {plan : Plan}
  {plans : List Plan} {inInitrd : Bool} {hasHelper : String → Bool} {name base a b : String}

/-! ## What has to start before what -/

/-- **A unit orders two units**: the dependencies that it takes part in do, or it waits for the
service that checks its device. -/
inductive UnitFile.Orders (u : UnitFile) (inInitrd : Bool) (hasHelper : String → Bool) :
    String → String → Prop where
  | before {e : Edge} (he : e ∈ u.edges) (h : e.relation = .before) :
      Orders u inInitrd hasHelper e.source e.target
  | after {e : Edge} (he : e ∈ u.edges) (h : e.relation = .after) :
      Orders u inInitrd hasHelper e.target e.source
  | check {request : CheckRequest} {service : String} (hrequest : u.check = some request)
      (h : (request.resolve inInitrd hasHelper).run.value = .ok (.service service)) :
      Orders u inInitrd hasHelper service u.name

/-- **One unit has to start before another one** because of some unit of some plan, whatever
programs there are when its check is decided about. -/
def Precedes (plans : List Plan) (inInitrd : Bool) (a b : String) : Prop :=
  ∃ plan ∈ plans, ∃ u ∈ plan.units, ∃ hasHelper, u.Orders inInitrd hasHelper a b

/-! ## Stages -/

/-- The endings of the names of units, and how late such units start. -/
def endingStages : List (String × Nat) :=
  [(".device", 0), (".service", 1), (".mount", 2), (".automount", 2), (".swap", 2), (".target", 3)]

/-- **How late a unit starts**, by the ending of its name. -/
def startStage (name : String) : Nat :=
  ((endingStages.filter fun x => x.1.toList.isSuffixOf name.toList).map (·.2)).headD
    endingStages.length

/-- **The stage of a unit is that of its ending**: no ending ends in another one. -/
theorem startStage_append {ending : String} (h : ending ∈ endingStages.map (·.1)) :
    startStage (base ++ ending) = startStage ending := by
  have hlonger : ∀ x ∈ endingStages.map (·.1), ∀ y ∈ endingStages,
      x.toList <:+ y.1.toList → y.1.toList <:+ x.toList := by
    decide
  have hends : ∀ x ∈ endingStages, x.1.toList.isSuffixOf (base ++ ending).toList =
      x.1.toList.isSuffixOf ending.toList := by
    intro x hx
    rw [Bool.eq_iff_iff, List.isSuffixOf_iff_suffix, List.isSuffixOf_iff_suffix,
      String.toList_append]
    constructor
    · intro hsuffix
      rcases List.suffix_or_suffix_of_suffix hsuffix (List.suffix_append _ _) with hends | hends
      · exact hends
      · exact hlonger _ h _ hx hends
    · exact fun hsuffix => hsuffix.trans (List.suffix_append _ _)
  unfold startStage
  rw [List.filter_congr hends]

theorem startStage_milestone (m : Milestone) : startStage m.unit = 3 := by
  cases m <;> decide

theorem startStage_serviceUnit (id : String) : startStage (Unlocking.serviceUnit id) = 1 :=
  startStage_append (by decide)

/-- The unit for a path is of the stage of the suffix that it was asked for. -/
theorem startStage_ofPath {path suffix : String} (h : UnitName.ofPath path suffix = .ok name)
    (hsuffix : suffix ∈ endingStages.map (·.1)) : startStage name = startStage suffix := by
  obtain ⟨escaped, -, rfl⟩ := UnitName.ofPath_eq_ok h
  exact startStage_append hsuffix

/-- **What checks a device is a service.** -/
theorem CheckRequest.startStage_service {request : CheckRequest} {service : String}
    (h : (request.resolve inInitrd hasHelper).run.value = .ok (.service service)) :
    startStage service = 1 := by
  unfold resolve at h
  split at h
  · cases h
  split at h
  · cases h
  split at h
  · cases h
  split at h
  · cases h
    decide
  split at h
  · next instanceName hinstance =>
      cases h
      unfold UnitName.ofPathInstance at hinstance
      cases hescape : UnitName.escapePath request.device with
      | error e => simp [hescape, Except.map] at hinstance
      | ok escaped =>
          rw [hescape] at hinstance
          cases hinstance
          exact startStage_append (by decide)
  · cases h

/-! ## Units of different stages -/

/-- A dependency orders two units only if they are of different stages. -/
def Edge.Ascends (e : Edge) : Prop :=
  match e.relation with
  | .before => startStage e.source < startStage e.target
  | .after => startStage e.target < startStage e.source
  | .conflicts | .bindsTo | .requires | .wants => True

/-- **A unit is ordered only between units of different stages**, by the dependencies that it takes
part in and by its check, which is a service. -/
structure UnitFile.Ascends (u : UnitFile) : Prop where
  edge : ∀ e ∈ u.edges, e.Ascends
  check : u.check ≠ none → 1 < startStage u.name

namespace UnitFile.Ascends

/-- **Whatever such a unit orders is of ascending stages.** -/
theorem startStage_lt (h : u.Ascends) (horders : u.Orders inInitrd hasHelper a b) :
    startStage a < startStage b := by
  cases horders with
  | before he hrelation =>
      have hascends := h.edge _ he
      rwa [Edge.Ascends, hrelation] at hascends
  | after he hrelation =>
      have hascends := h.edge _ he
      rwa [Edge.Ascends, hrelation] at hascends
  | check hrequest hresolve =>
      rw [CheckRequest.startStage_service hresolve]
      exact h.check (by simp [hrequest])

theorem depends {relation : Relation} {target : String} (h : u.Ascends)
    (hedge : (⟨u.name, relation, target⟩ : Edge).Ascends) :
    (u.depends relation target).Ascends where
  edge := by
    intro e he
    rcases List.mem_append.mp he with he | he
    · exact h.edge e he
    · rwa [List.mem_singleton.mp he]
  check := h.check

theorem dependedOnBy {source : String} {relation : Relation} (h : u.Ascends)
    (hedge : (⟨source, relation, u.name⟩ : Edge).Ascends) :
    (u.dependedOnBy source relation).Ascends where
  edge := by
    intro e he
    rcases List.mem_append.mp he with he | he
    · exact h.edge e he
    · rwa [List.mem_singleton.mp he]
  check := h.check

/-- A unit that comes before a milestone, which pulls it in. -/
theorem for_milestone {relation : Relation} {m : Milestone} (h : u.Ascends)
    (hstage : startStage u.name < 3) (hlink : relation.linkSuffix? ≠ none) :
    ((u.depends .before m.unit).dependedOnBy m.unit relation).Ascends := by
  refine (h.depends ?_).dependedOnBy ?_
  · show startStage u.name < startStage m.unit
    rwa [startStage_milestone]
  · cases relation <;> trivial

end UnitFile.Ascends

theorem MountRequest.unit_ascends {r : MountRequest} {device : String} {fsType : Option String}
    (hname : startStage name = 2) : (r.unit name device fsType).Ascends := by
  unfold MountRequest.unit
  simp only
  split
  · refine .for_milestone ⟨by simp, fun _ => ?_⟩ ?_ (by decide)
    · show 1 < startStage name
      omega
    · show startStage name < 3
      omega
  · refine ⟨by simp, fun _ => ?_⟩
    show 1 < startStage name
    omega

theorem MountRequest.automountUnit_ascends {r : MountRequest} {idleSeconds : Nat}
    (hname : startStage name = 2) : (r.automountUnit name idleSeconds).Ascends := by
  refine .for_milestone ⟨by simp, fun h => absurd rfl h⟩ ?_ (by decide)
  show startStage name < 3
  omega

theorem swapUnit_ascends {device : String} (hname : startStage name = 2) :
    (swapUnit name device).Ascends := by
  refine .for_milestone ⟨by simp, fun h => absurd rfl h⟩ ?_ (by decide)
  show startStage name < 3
  omega

/-- **The service that unlocks a device** comes after the device and before what uses it. -/
theorem Unlocking.service_ascends {id source consumer sourceUnit : String} {rw : Bool}
    (hconsumer : startStage consumer = 2) (hsource : startStage sourceUnit = 0) :
    (service id source rw consumer sourceUnit).Ascends where
  edge := by
    rw [edges_service]
    simp only [List.forall_mem_cons, Edge.Ascends, startStage_serviceUnit, startStage_milestone,
      hconsumer, hsource]
    exact ⟨trivial, trivial, trivial, by omega, by omega, by omega, by omega, trivial, trivial,
      trivial, fun _ h => absurd h List.not_mem_nil⟩
  check := fun h => absurd rfl h

/-! ## Plans -/

/-- All units of a plan are ordered only between units of different stages. -/
def Plan.Ascends (plan : Plan) : Prop := ∀ u ∈ plan.units, u.Ascends

theorem MountRequest.plan_ascends (r : MountRequest) : Ensures r.plan Plan.Ascends := by
  intro plan h
  obtain ⟨name, hname, hplanned⟩ := MountRequest.plan_eq_ok_iff.mp h
  have hstage : startStage name = 2 := startStage_ofPath hname (by decide)
  cases hplanned with
  | plain =>
      intro u hu
      rw [List.mem_singleton.mp hu]
      exact MountRequest.unit_ascends hstage
  | unlocked _ hsource =>
      intro u hu
      rcases List.mem_cons.mp hu with rfl | hu
      · exact Unlocking.service_ascends hstage (startStage_ofPath hsource (by decide))
      · rw [List.mem_singleton.mp hu]
        exact MountRequest.unit_ascends hstage

theorem MountRequest.planOnAccess_ascends (r : MountRequest) (idleSeconds : Nat) :
    Ensures (r.planOnAccess idleSeconds) Plan.Ascends := by
  intro plan h u hu
  obtain ⟨inner, name, hinner, hname, rfl⟩ := MountRequest.planOnAccess_eq_ok_iff.mp h
  rcases List.mem_append.mp hu with hu | hu
  · exact r.behindAutomount.plan_ascends inner hinner u hu
  · rw [List.mem_singleton.mp hu]
    exact MountRequest.automountUnit_ascends (startStage_ofPath hname (by decide))

theorem planSwap_ascends (device : String) : Ensures (planSwap device) Plan.Ascends := by
  intro plan h u hu
  obtain ⟨name, hname, rfl⟩ := planSwap_eq_ok_iff.mp h
  rw [List.mem_singleton.mp hu]
  exact swapUnit_ascends (startStage_ofPath hname (by decide))

theorem decideRoot_ascends (settings : Settings) (h : Host) :
    Ensures (decideRoot settings h) (·.Emits Plan.Ascends) :=
  decideRoot_emits (MountRequest.plan_ascends _)

theorem Rule.decide_ascends (r : Rule) (m : Machine) (a : Assignment) :
    Ensures (r.decide m a) (·.Emits Plan.Ascends) := by
  unfold Rule.decide
  split
  · exact decideSwap_emits (planSwap_ascends _)
  · exact decideBoot_emits (MountRequest.planOnAccess_ascends _ _)
  · exact decideData_emits fun _ _ _ => MountRequest.plan_ascends _

/-! ## Passes -/

/-- **All units that a pass hands over are ordered only between units of different stages.** -/
theorem submitted_ascends (hplan : plan ∈ site.submitted settings s) : plan.Ascends := by
  rcases submitted_cases hplan with ⟨-, hroot⟩ | ⟨rule, a, s', -, hdecided⟩
  · exact decideRoot_ascends settings _ _ hroot plan rfl
  · exact rule.decide_ascends _ a _ hdecided plan rfl

/-- What has to start before something else is of an earlier stage. -/
theorem Precedes.startStage_lt (hplans : ∀ plan ∈ plans, plan.Ascends)
    (h : Precedes plans inInitrd a b) : startStage a < startStage b := by
  obtain ⟨plan, hplan, u, hu, hasHelper, horders⟩ := h
  exact (hplans plan hplan u hu).startStage_lt horders

/-- **Whatever starts before something else, however indirectly, is of an earlier stage.** -/
theorem startStage_lt_of_transGen (hplans : ∀ plan ∈ plans, plan.Ascends)
    (h : Relation.TransGen (Precedes plans inInitrd) a b) : startStage a < startStage b := by
  induction h with
  | single hfirst => exact hfirst.startStage_lt hplans
  | tail _ hlast ih => exact ih.trans (hlast.startStage_lt hplans)

/-- **No units wait for each other in a circle**: whatever a pass hands over, and wherever checks
are decided about, no unit has to start before itself. -/
theorem ordering_acyclic {σ : Type} (site : Site σ) (settings : Settings) (s : σ) (inInitrd : Bool)
    (name : String) :
    ¬ Relation.TransGen (Precedes (site.submitted settings s) inInitrd) name name := by
  intro hcircle
  have hlt := startStage_lt_of_transGen (fun _ hplan => submitted_ascends hplan) hcircle
  exact absurd hlt (Nat.lt_irrefl _)

end PartitionUnits
