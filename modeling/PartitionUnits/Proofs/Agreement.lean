import PartitionUnits.Proofs.Turns

/-!
# Passes that hand over the same plans

What two machines may differ in without a pass handing over other plans, or another order of them.

## Main Definitions

* `plan?` — the plan that a decision comes to
* `Machine.PlansLike` — two machines on which all decisions come to the same plans
* `submitted_congr` — passes over such machines hand over the same

## Design Notes

Only plans change the state, so passes that decide on the same plans go through the same states, and
what they are compared by need not be more than what is decided in one state.
-/

namespace PartitionUnits

open Site

variable {σ : Type} {site site' : Site σ} {settings : Settings} {s : σ} {e e' : Errand}
  {es es' : List Errand}

/-- The plan that a decision comes to, if it comes to one. -/
def plan? (decision : Attempt Decision) : Option Plan :=
  match decision.run.value with
  | .ok (.emit plan) => some plan
  | _ => none

theorem plan?_eq_some {decision : Attempt Decision} {plan : Plan} :
    plan? decision = some plan ↔ decision.run.value = .ok (.emit plan) :=
  @Turn.plan?_eq_some Unit ⟨"", decision, ()⟩ plan

/-- **All decisions come to the same plans on two machines**, and the same partitions are found on
both, or none on either. -/
structure Machine.PlansLike (m m' : Machine) : Prop where
  inInitrd : m'.host.inInitrd = m.host.inInitrd
  discover : Matches Eq (discover m).run.value (discover m').run.value
  root : ∀ settings, plan? (decideRoot settings m'.host) = plan? (decideRoot settings m.host)
  partition : ∀ (r : Rule) a, plan? (r.decide m' a) = plan? (r.decide m a)

/-- What a turn leads to depends on its plan only. -/
theorem after_eq (site : Site σ) (turn : Turn σ) :
    site.after turn = match turn.plan? with
      | some plan => (site.submit plan turn.state).2
      | none => turn.state := by
  cases hplan : turn.plan? with
  | some plan => exact (turn_of_emit site turn (Turn.plan?_eq_some.mp hplan)).2
  | none =>
      cases hvalue : turn.decision.run.value with
      | error failure => exact (turn_of_error site turn hvalue).2
      | ok decision =>
          cases decision with
          | skip reason => exact (turn_of_skip site turn hvalue).2
          | emit plan =>
              rw [Turn.plan?_eq_some.mpr hvalue] at hplan
              cases hplan

/-- Two errands come to the same plan in every state. -/
def SamePlan (site site' : Site σ) (e e' : Errand) : Prop :=
  ∀ s, (site'.turn e' s).plan? = (site.turn e s).plan?

/-- **The same plan of a turn leads to the same state.** -/
theorem SamePlan.after_eq (hsubmit : site'.submit = site.submit) (h : SamePlan site site' e e')
    (s : σ) : site'.after (site'.turn e' s) = site.after (site.turn e s) := by
  rw [PartitionUnits.after_eq, PartitionUnits.after_eq, h s, hsubmit]
  rfl

/-- **Errands that come to the same plans** lead to the same state and hand over the same. -/
theorem play_congr (hsubmit : site'.submit = site.submit)
    (h : List.Forall₂ (SamePlan site site') es es') (s : σ) :
    (site'.play es' s).filterMap Turn.plan? = (site.play es s).filterMap Turn.plan? ∧
      site'.afterAll es' s = site.afterAll es s := by
  induction h generalizing s with
  | nil => exact ⟨rfl, rfl⟩
  | @cons e e' rest rest' hfirst _ ih =>
      obtain ⟨hplans, hstate⟩ := ih (site.after (site.turn e s))
      rw [play, play, afterAll, afterAll, List.filterMap_cons, List.filterMap_cons, hfirst s,
        hfirst.after_eq hsubmit, hplans, hstate]
      exact ⟨rfl, rfl⟩

/-! ## Passes -/

section

variable (hsubmit : site'.submit = site.submit)
  (hmachine : ∀ s, (site.machine s).PlansLike (site'.machine s))
include hmachine

theorem samePlan_rootErrands :
    List.Forall₂ (SamePlan site site') (rootErrands settings) (rootErrands settings) := by
  rw [List.forall₂_same]
  intro e he
  unfold rootErrands at he
  split at he
  · rw [List.mem_singleton.mp he]
    exact fun s => (hmachine s).root settings
  · cases he

theorem samePlan_partitionErrands {m m' : Machine} (h : m.PlansLike m') :
    List.Forall₂ (SamePlan site site') (partitionErrands m) (partitionErrands m') := by
  have hfound := h.discover
  unfold partitionErrands
  generalize (discover m).run.value = found at hfound
  generalize (discover m').run.value = found' at hfound
  cases hfound with
  | error => exact .cons (fun _ => rfl) .nil
  | @ok elected _ heq =>
      subst heq
      rw [List.forall₂_same]
      intro e he
      obtain ⟨⟨rule, a⟩, -, rfl⟩ := List.mem_map.mp he
      exact fun s => (hmachine s).partition rule a

include hsubmit

/-- The errands of both passes come to the same plans. -/
theorem samePlan_errands (settings : Settings) (s : σ) : List.Forall₂ (SamePlan site site')
    (site.errands settings s) (site'.errands settings s) := by
  have hroot : List.Forall₂ (SamePlan site site') (rootErrands settings) (rootErrands settings) :=
    samePlan_rootErrands hmachine
  have hlater := hmachine (site.afterAll (rootErrands settings) s)
  unfold errands
  simp only [(play_congr hsubmit hroot s).2, hlater.inInitrd]
  refine List.rel_append hroot ?_
  split
  · exact .nil
  · exact samePlan_partitionErrands hmachine hlater

/-- **Passes whose machines decide on the same plans hand over the same**, in the same order. -/
theorem submitted_congr : site'.submitted settings s = site.submitted settings s := by
  rw [submitted_eq, submitted_eq]
  exact (play_congr hsubmit (samePlan_errands hsubmit hmachine settings s) s).1

end

end PartitionUnits
