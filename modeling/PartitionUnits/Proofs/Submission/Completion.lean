import PartitionUnits.Proofs.Attempt
import PartitionUnits.Proofs.Submission.Actions

/-!
# Running actions

What a submission comes to when its actions can be told to complete or to stop.

## Main Definitions

* `Completes` — a list of actions runs to its end
* `Stops` — a list of actions runs up to one that fails
* `completes_or_stops` — one of the two happens
* `submit_of_completes`, `submit_of_stops` — what the submission comes to then

## Design Notes

`Performs` says what a list of actions has done; it does not say that the same list would do so
again, since it leaves out what a temporary file needs.  `Completes` is about the run itself.
-/

namespace PartitionUnits

open PartitionUnits.Tree

variable {t u v w : Tree} {a : Action} {acts before after rest : List Action}
  {made added : List Artifact} {aborted : Aborted} {d : Destination} {plan : Plan}
  {rendered : List Destination.Rendered}

/-- **A list of actions runs to its end**; the artifacts, the latest first. -/
inductive Completes : Tree → List Action → List Artifact → Tree → Prop where
  | nil {t : Tree} : Completes t [] [] t
  | cons {t u v : Tree} {a : Action} {rest : List Action} {artifact? : Option Artifact}
      {later : List Artifact} (first : a.perform.run t = (.ok artifact?, u))
      (next : Completes u rest later v) : Completes t (a :: rest) (later ++ artifact?.toList) v

/-- **A list of actions runs up to one that fails**: what was made before it, the tree then, the
failure and the tree after it. -/
inductive Stops (t : Tree) (acts : List Action) (made : List Artifact) (u : Tree)
    (aborted : Aborted) (v : Tree) : Prop where
  | intro {before after : List Action} {a : Action} (hacts : acts = before ++ a :: after)
      (hbefore : Completes t before made u) (hfails : a.perform.run u = (.error aborted, v))

namespace Completes

theorem performs (h : Completes t acts made u) : Performs t acts made u := by
  induction h with
  | nil => exact .nil
  | cons first _ ih =>
      rcases perform_outcome first with ⟨artifact?, heq, hdone⟩ | ⟨aborted, heq, -⟩
      · cases heq
        exact .cons hdone ih
      · cases heq

theorem append (h : Completes t before made u) (h' : Completes u after added v) :
    Completes t (before ++ after) (added ++ made) v := by
  induction h with
  | nil => simpa using h'
  | cons first _ ih =>
      rw [List.cons_append, ← List.append_assoc]
      exact .cons first (ih h')

theorem singleton {artifact? : Option Artifact} (h : a.perform.run t = (.ok artifact?, u)) :
    Completes t [a] artifact?.toList u := .cons h .nil

/-- A list of actions runs in one way. -/
theorem unique (h : Completes t acts made u) (h' : Completes t acts added v) :
    made = added ∧ u = v := by
  induction h generalizing added v with
  | nil => cases h'; exact ⟨rfl, rfl⟩
  | cons first _ ih =>
      cases h' with
      | cons first' next' =>
          rw [first] at first'
          obtain ⟨heq, rfl⟩ := Prod.mk.inj first'
          cases heq
          obtain ⟨rfl, rfl⟩ := ih next'
          exact ⟨rfl, rfl⟩

/-- A list of actions that runs to its end can be cut anywhere. -/
theorem split (h : Completes t (before ++ after) made v) :
    ∃ first u second, Completes t before first u ∧ Completes u after second v ∧
      made = second ++ first := by
  induction before generalizing t made with
  | nil => exact ⟨[], t, made, .nil, h, (List.append_nil _).symm⟩
  | cons a rest ih =>
      rw [List.cons_append] at h
      cases h with
      | @cons _ u' _ _ _ artifact? later hfirst hnext =>
          obtain ⟨first, u, second, hrest, hafter, rfl⟩ := ih hnext
          exact ⟨first ++ artifact?.toList, u, second, .cons hfirst hrest, hafter,
            List.append_assoc _ _ _⟩

/-- Actions that run to their end are applied. -/
theorem run_applyActions (h : Completes t acts added u) :
    (applyActions made acts).run t = ({ value := .ok (added ++ made) }, u) := by
  induction h generalizing made with
  | nil => rfl
  | cons first _ ih =>
      rw [applyActions, Script.run_bind, first]
      simp only
      rw [ih, List.append_assoc]

end Completes

/-- **Actions run to their end, or up to one that fails.** -/
theorem completes_or_stops (t : Tree) (acts : List Action) :
    (∃ made u, Completes t acts made u) ∨
      ∃ made u aborted v, Stops t acts made u aborted v := by
  induction acts generalizing t with
  | nil => exact Or.inl ⟨[], t, .nil⟩
  | cons a rest ih =>
      generalize hfirst : a.perform.run t = ended
      obtain ⟨ending, u⟩ := ended
      cases ending with
      | error aborted =>
          exact Or.inr ⟨[], t, aborted, u, .intro (List.nil_append _).symm .nil hfirst⟩
      | ok artifact? =>
          rcases ih u with ⟨made, v, hrest⟩ | ⟨made, v, aborted, w, ⟨hacts, hbefore, hfails⟩⟩
          · exact Or.inl ⟨_, v, .cons hfirst hrest⟩
          · exact Or.inr ⟨_, v, aborted, w, .intro (by rw [hacts, List.cons_append])
              (.cons hfirst hbefore) hfails⟩

namespace Stops

theorem of_perform (h : a.perform.run t = (.error aborted, v)) : Stops t [a] [] t aborted v :=
  .intro (List.nil_append _).symm .nil h

/-- Actions that stop after others ran to their end. -/
theorem after_completes (h : Completes t before made u) (h' : Stops u acts added w aborted v) :
    Stops t (before ++ acts) (added ++ made) w aborted v := by
  obtain ⟨rfl, hbefore, hfails⟩ := h'
  exact .intro (List.append_assoc _ _ _).symm (h.append hbefore) hfails

/-- Where actions stop, what would come after them does not matter. -/
theorem append (h : Stops t acts made u aborted v) (rest : List Action) :
    Stops t (acts ++ rest) made u aborted v := by
  obtain ⟨rfl, hbefore, hfails⟩ := h
  exact .intro (by rw [List.append_assoc, List.cons_append]) hbefore hfails

/-- One action that stops has failed. -/
theorem perform_of_singleton (h : Stops t [a] made u aborted v) :
    u = t ∧ a.perform.run t = (.error aborted, v) := by
  obtain ⟨hacts, hbefore, hfails⟩ := h
  obtain ⟨rfl, hrest⟩ := List.append_eq_singleton_iff.mp hacts.symm |>.resolve_right (by simp)
  cases hbefore
  cases hrest
  exact ⟨rfl, hfails⟩

/-- Actions stop among the first ones, or after those. -/
theorem of_append (h : Stops t (before ++ after) made u aborted v) :
    Stops t before made u aborted v ∨
      ∃ first w second, Completes t before first w ∧ Stops w after second u aborted v := by
  obtain ⟨hacts, hbefore, hfails⟩ := h
  rcases List.append_eq_append_iff.mp hacts with ⟨between, rfl, rfl⟩ | ⟨between, rfl, hrest⟩
  · obtain ⟨first, w, second, hfirst, hsecond, -⟩ := hbefore.split
    exact Or.inr ⟨first, w, second, hfirst, .intro rfl hsecond hfails⟩
  · cases between with
    | nil =>
        rw [List.append_nil]
        have hlast : after = [] ++ _ := hrest.symm
        exact Or.inr ⟨made, u, [], hbefore, .intro hlast .nil hfails⟩
    | cons b rest =>
        obtain ⟨rfl, -⟩ := List.cons.inj hrest
        exact Or.inl (.intro rfl hbefore hfails)

/-- Actions that stop are rolled back. -/
theorem run_applyActions (h : Stops t acts added u aborted v) (made : List Artifact) :
    ((applyActions made acts).run t).1.value = .error aborted ∧
      ((applyActions made acts).run t).2 = ((rollBack (added ++ made)).run v).2 := by
  obtain ⟨rfl, hbefore, hfails⟩ := h
  induction hbefore generalizing made with
  | nil =>
      rw [List.nil_append, applyActions, Script.run_bind, hfails]
      simp only
      rw [Script.run_bind]
      exact ⟨rfl, rfl⟩
  | cons first _ ih =>
      rw [List.cons_append, applyActions, Script.run_bind, first]
      simp only
      rw [List.append_assoc]
      exact ih _ hfails

/-- Actions that stop do not run to their end. -/
theorem not_completes (h : Stops t acts made u aborted v) : ¬ Completes t acts added w := by
  intro hcompletes
  have hvalue := (h.run_applyActions []).1
  rw [hcompletes.run_applyActions] at hvalue
  cases hvalue

theorem journal (h : Stops t acts made u aborted v) : Journal t made u := by
  obtain ⟨-, hbefore, -⟩ := h
  exact hbefore.performs.journal

theorem failed (h : Stops t acts made u aborted v) :
    ∃ a ∈ acts, Failed u a aborted v := by
  obtain ⟨rfl, -, hfails⟩ := h
  rcases perform_outcome hfails with ⟨_, heq, -⟩ | ⟨_, heq, hfailed⟩
  · cases heq
  · cases heq
    exact ⟨_, List.mem_append_right _ List.mem_cons_self, hfailed⟩

end Stops

/-! ## Submissions -/

/-- A submission whose checks cannot be decided about does nothing. -/
theorem submit_of_undecided {failure : Failure}
    (hrender : (d.render plan.units).run.value = .error failure) :
    ((d.submit plan).run t).1.value = .error failure ∧ ((d.submit plan).run t).2 = t := by
  unfold Destination.submit
  simp only [hrender]
  exact ⟨rfl, rfl⟩

/-- A submission whose actions run to their end succeeds. -/
theorem submit_of_completes (hrender : (d.render plan.units).run.value = .ok rendered)
    (h : Completes t (d.actions rendered plan.dropIns) made u) :
    ((d.submit plan).run t).1.value = .ok () ∧ ((d.submit plan).run t).2 = u := by
  unfold Destination.submit
  simp only [hrender]
  rw [Script.run_bind, h.run_applyActions]
  exact ⟨rfl, rfl⟩

/-- A submission whose actions stop fails, and is undone. -/
theorem submit_of_stops (hrender : (d.render plan.units).run.value = .ok rendered)
    (h : Stops t (d.actions rendered plan.dropIns) made u aborted v) :
    ((d.submit plan).run t).1.value = .error aborted.failure ∧
      ((d.submit plan).run t).2 = (aborted.release.run ((rollBack made).run v).2).2 := by
  obtain ⟨hvalue, htree⟩ := h.run_applyActions []
  rw [List.append_nil] at htree
  unfold Destination.submit
  simp only [hrender]
  rw [Script.run_bind]
  generalize (applyActions [] (d.actions rendered plan.dropIns)).run t = applied at hvalue htree
  obtain ⟨⟨value, events⟩, final⟩ := applied
  simp only at hvalue htree
  subst hvalue
  simp only
  rw [Script.run_bind, htree]
  exact ⟨rfl, rfl⟩

/-- Deciding about checks fails only because a device has no unit name. -/
theorem render_failsWith {P : Failure → Prop} (hP : ∀ e : PathNameError, P e.failure)
    (d : Destination) (units : List UnitFile) : Attempt.FailsWith (d.render units) P := by
  refine .mapM fun u _ => ?_
  split
  · next request _ =>
      refine .bind ?_ fun _ => .pure _
      unfold CheckRequest.resolve
      split
      · exact .bind (fun _ h => by cases h) fun _ => .pure _
      split
      · exact .bind (fun _ h => by cases h) fun _ => .pure _
      split
      · exact .pure _
      split
      · exact .pure _
      split
      · exact .pure _
      · exact .throw (hP _)
  · exact .pure _

end PartitionUnits
