import PartitionUnits.Proofs.FileSystem.NewFile
import PartitionUnits.Proofs.Submission.Journal

/-!
# Doing one thing after the other

What one action comes to, and what a list of them does.

## Main Definitions

* `Performed`, `Failed` — the ways in which one action can end
* `Performs` — a list of actions that were all done
* `ActionsOutcome` — the ways in which a list of actions can end
* `applyActions_outcome` — there are no others
* `SubmitOutcome` — the ways in which a whole submission can end

## Design Notes

Files, directories and links differ only in the artifact and the entry that an action is for, which
`Action.product?` says, so one action that was done is one case and not three.  A directory that is
there already is the other case.  Only making a file can fail and leave something, which is `Stray`.
-/

namespace PartitionUnits

open PartitionUnits.Tree

variable {t u v : Tree} {a : Action} {acts before after : List Action} {made added : List Artifact}
  {artifact? : Option Artifact}

/-- What an action is for: the artifact, and the entry that it stands for. -/
def Action.product? : Action → Option (Artifact × Entry)
  | .makeFile p content _ => some (.file p, .file fileMode (.octets (Text.encode content.toList)))
  | .ensureDirectory p => some (.directory p, .directory directoryMode)
  | .makeLink target link => some (.file link, .link target.octets)
  | .refuse _ => none

/-- **One action was done**: what it is for was made, or it is a directory that is there. -/
inductive Performed (t : Tree) (a : Action) : Option Artifact → Tree → Prop where
  | made {artifact : Artifact} {d : Location} {name : Name} {e : Entry}
      (hproduct : a.product? = some (artifact, e)) (h : Made t artifact d name e) :
      Performed t a (some artifact) (t.insert (d ++ [name]) e)
  | there {p : Path} (ha : a = .ensureDirectory p) (h : t.isDirectory p = true) :
      Performed t a none t

/-- **One action failed**: it changed nothing, or the failure owns a temporary file. -/
inductive Failed (t : Tree) (a : Action) : Aborted → Tree → Prop where
  | refused {aborted : Aborted} (howned : aborted.temporary = none) : Failed t a aborted t
  | stray {aborted : Aborted} {p file : Path} {content : String} {draws : List Draw}
      {d : Location} {draw : Draw} (ha : a = .makeFile p content draws)
      (howned : aborted.temporary = some file)
      (hstray : Stray t p (Text.encode content.toList) draws file d draw) :
      Failed t a aborted
        (t.insert (d ++ [draw.name]) (.file fileMode (.octets (Text.encode content.toList))))

/-- **A list of actions was done**, one after the other; the artifacts, the latest first. -/
inductive Performs : Tree → List Action → List Artifact → Tree → Prop where
  | nil {t : Tree} : Performs t [] [] t
  | cons {t u v : Tree} {a : Action} {rest : List Action} {artifact? : Option Artifact}
      {later : List Artifact} (first : Performed t a artifact? u)
      (next : Performs u rest later v) :
      Performs t (a :: rest) (later ++ artifact?.toList) v

/-! ## One action -/

theorem Performed.journal (h : Performed t a artifact? u) : Journal t artifact?.toList u := by
  cases h with
  | made _ hmade => exact .cons .nil hmade
  | there => exact .nil

/-- Making a directory ends with a new directory, or one that is there, or not at all. -/
theorem perform_ensureDirectory_outcome {p : Path} {result : Except Aborted (Option Artifact)}
    (h : (Action.ensureDirectory p).perform.run t = (result, u)) :
    (∃ made, result = .ok made ∧ Performed t (.ensureDirectory p) made u) ∨
      ∃ aborted, result = .error aborted ∧ Failed t (.ensureDirectory p) aborted u := by
  rw [Action.perform, Script.run_perform_bind] at h
  rcases t.apply_cases (c := .makeDirectory p) rfl with
    ⟨err, -, happly⟩ | ⟨final, hmake, happly⟩
  · rw [happly] at h
    simp only at h
    split at h
    · -- The answer was that the name is taken, so what has it is looked at.
      rw [Script.run_perform_bind, apply_checkDirectory] at h
      by_cases hdirectory : t.isDirectory p = true
      · rw [if_pos hdirectory] at h
        obtain ⟨rfl, rfl⟩ := Prod.mk.inj h
        exact Or.inl ⟨_, rfl, .there rfl hdirectory⟩
      · rw [if_neg hdirectory] at h
        obtain ⟨rfl, rfl⟩ := Prod.mk.inj h
        exact Or.inr ⟨_, rfl, .refused rfl⟩
    · obtain ⟨rfl, rfl⟩ := Prod.mk.inj h
      exact Or.inr ⟨_, rfl, .refused rfl⟩
  · rw [happly] at h
    obtain ⟨rfl, rfl⟩ := Prod.mk.inj h
    obtain ⟨d, name, hin, hvacant, rfl⟩ := makeDirectory_eq_ok hmake
    exact Or.inl ⟨_, rfl, .made rfl ⟨hin, hvacant, rfl⟩⟩

/-- **One action is done or fails.** -/
theorem perform_outcome {result : Except Aborted (Option Artifact)}
    (h : a.perform.run t = (result, u)) :
    (∃ made, result = .ok made ∧ Performed t a made u) ∨
      ∃ aborted, result = .error aborted ∧ Failed t a aborted u := by
  cases a with
  | makeFile p content draws =>
      rw [Action.perform, Script.run_bind] at h
      generalize hfile : (newFile p (Text.encode content.toList) draws).run t = ended at h
      obtain ⟨ending, final⟩ := ended
      cases newFile_outcome hfile with
      | made hin hasks hvacant =>
          obtain ⟨rfl, rfl⟩ := Prod.mk.inj h
          exact Or.inl ⟨_, rfl, .made rfl ⟨hin, hvacant, hasks, rfl⟩⟩
      | refused howned =>
          obtain ⟨rfl, rfl⟩ := Prod.mk.inj h
          exact Or.inr ⟨_, rfl, .refused howned⟩
      | unsettled howned hstray =>
          obtain ⟨rfl, rfl⟩ := Prod.mk.inj h
          exact Or.inr ⟨_, rfl, .stray rfl howned hstray⟩
  | ensureDirectory p => exact perform_ensureDirectory_outcome h
  | makeLink target link =>
      rw [Action.perform, Script.run_perform_bind] at h
      rcases t.apply_cases (c := .makeLink target link) rfl with
        ⟨err, -, happly⟩ | ⟨final, hmake, happly⟩
      · rw [happly] at h
        obtain ⟨rfl, rfl⟩ := Prod.mk.inj h
        exact Or.inr ⟨_, rfl, .refused rfl⟩
      · rw [happly] at h
        obtain ⟨rfl, rfl⟩ := Prod.mk.inj h
        obtain ⟨d, name, hin, hasks, hvacant, rfl⟩ := makeLink_eq_ok hmake
        exact Or.inl ⟨_, rfl, .made rfl ⟨hin, hvacant, hasks, rfl⟩⟩
  | refuse edge =>
      obtain ⟨rfl, rfl⟩ := Prod.mk.inj h
      exact Or.inr ⟨_, rfl, .refused rfl⟩

/-! ## A list of actions -/

namespace Performs

theorem journal (h : Performs t acts made u) : Journal t made u := by
  induction h with
  | nil => exact .nil
  | cons first _ ih => exact first.journal.append ih

theorem le (h : Performs t acts made u) : t ≤ u := h.journal.le

theorem append (h : Performs t before made u) (h' : Performs u after added v) :
    Performs t (before ++ after) (added ++ made) v := by
  induction h with
  | nil => simpa using h'
  | cons first _ ih =>
      rw [List.cons_append, ← List.append_assoc]
      exact .cons first (ih h')

/-- A list of actions that were all done can be cut anywhere. -/
theorem split (h : Performs t (before ++ after) made v) :
    ∃ first u second, Performs t before first u ∧ Performs u after second v ∧
      made = second ++ first := by
  induction before generalizing t made with
  | nil => exact ⟨[], t, made, .nil, h, (List.append_nil _).symm⟩
  | cons a rest ih =>
      rw [List.cons_append] at h
      cases h with
      | @cons _ u' _ _ _ artifact? later hfirst hnext =>
          obtain ⟨first, u, second, hrest, hafter, rfl⟩ := ih hnext
          exact ⟨first ++ artifact?.toList, u, second, .cons hfirst hrest, hafter,
            List.append_assoc _ _ _⟩

end Performs

/-- **The ways in which doing one thing after the other can end**, given what was made before. -/
inductive ActionsOutcome (t : Tree) (made : List Artifact) (acts : List Action) :
    Except Aborted (List Artifact) → List Event → Tree → Prop where
  | done {added : List Artifact} {u : Tree} (h : Performs t acts added u) :
      ActionsOutcome t made acts (.ok (added ++ made)) [] u
  | rolledBack {before after : List Action} {a : Action} {added : List Artifact} {u v : Tree}
      {aborted : Aborted} (hacts : acts = before ++ a :: after)
      (hbefore : Performs t before added u) (hfailed : Failed u a aborted v) :
      ActionsOutcome t made acts (.error aborted) ((rollBack (added ++ made)).run v).1
        ((rollBack (added ++ made)).run v).2

/-- Doing one more thing before. -/
theorem ActionsOutcome.cons {rest : List Action} {value : Except Aborted (List Artifact)}
    {events : List Event} (first : Performed t a artifact? u)
    (h : ActionsOutcome u (artifact?.toList ++ made) rest value events v) :
    ActionsOutcome t made (a :: rest) value events v := by
  cases h with
  | done h =>
      rw [← List.append_assoc]
      exact .done (.cons first h)
  | rolledBack hacts hbefore hfailed =>
      rw [← List.append_assoc]
      exact .rolledBack (by rw [hacts, List.cons_append]) (.cons first hbefore) hfailed

/-- **Everything is done, or one thing fails and everything before it is rolled back.** -/
theorem applyActions_outcome {result : Traced (Except Aborted (List Artifact))}
    (h : (applyActions made acts).run t = (result, v)) :
    ActionsOutcome t made acts result.value result.events v := by
  induction acts generalizing t made with
  | nil =>
      obtain ⟨rfl, rfl⟩ := Prod.mk.inj h
      exact .done .nil
  | cons a rest ih =>
      rw [applyActions, Script.run_bind] at h
      generalize hperform : a.perform.run t = ended at h
      obtain ⟨ending, u⟩ := ended
      rcases perform_outcome hperform with ⟨artifact?, rfl, hdone⟩ | ⟨aborted, rfl, hfailed⟩
      · exact .cons hdone (ih h)
      · -- The first action has failed, so what is rolled back was made before the list.
        simp only at h
        rw [Script.run_bind] at h
        obtain ⟨rfl, rfl⟩ := Prod.mk.inj h
        exact ActionsOutcome.rolledBack (List.nil_append _).symm .nil hfailed

/-! ## A whole submission -/

/-- **The ways in which a submission can end.** -/
inductive SubmitOutcome (d : Destination) (plan : Plan) (t : Tree) :
    Except Failure Unit → Tree → Prop where
  | undecided {f : Failure} (hrender : (d.render plan.units).run.value = .error f) :
      SubmitOutcome d plan t (.error f) t
  | applied {rendered : List Destination.Rendered} {made : List Artifact} {u : Tree}
      (hrender : (d.render plan.units).run.value = .ok rendered)
      (h : Performs t (d.actions rendered plan.dropIns) made u) :
      SubmitOutcome d plan t (.ok ()) u
  | aborted {rendered : List Destination.Rendered} {before after : List Action} {a : Action}
      {made : List Artifact} {u v : Tree} {aborted : Aborted}
      (hrender : (d.render plan.units).run.value = .ok rendered)
      (hactions : d.actions rendered plan.dropIns = before ++ a :: after)
      (hbefore : Performs t before made u) (hfailed : Failed u a aborted v)
      (hvalue : ((applyActions [] (d.actions rendered plan.dropIns)).run t).1.value =
        .error aborted) :
      SubmitOutcome d plan t (.error aborted.failure)
        (aborted.release.run ((rollBack made).run v).2).2

/-- **A submission decides about checks and then applies its actions**, all of them or none. -/
theorem submit_outcome (d : Destination) (plan : Plan) (t : Tree) :
    SubmitOutcome d plan t ((d.submit plan).run t).1.value ((d.submit plan).run t).2 := by
  unfold Destination.submit
  simp only
  cases hrender : (d.render plan.units).run.value with
  | error f => exact .undecided hrender
  | ok rendered =>
      simp only [Script.run_bind]
      generalize happly : (applyActions [] (d.actions rendered plan.dropIns)).run t = applied
      obtain ⟨result, final⟩ := applied
      have houtcome := applyActions_outcome happly
      obtain ⟨value, events⟩ := result
      cases houtcome with
      | done h => exact .applied hrender h
      | @rolledBack before after a added u v aborted hacts hbefore hfailed =>
          -- The temporary file of the failure is let go after the roll back.
          rw [List.append_nil] at happly ⊢
          simp only [Script.run_bind, Script.run_pure]
          refine .aborted hrender hacts hbefore hfailed ?_
          rw [happly]

/-! ## A bare place -/

/-- An empty directory where plans are applied. -/
def bareDestination : Destination where
  directory := Path.ofText "/dest"
  inInitrd := false
  hasHelper := fun _ => true
  draws := fun _ => [Draw.ofNumber 1, Draw.ofNumber 2]

/-- The files around an empty directory where plans are applied. -/
def bareTree : Tree := insert {} [Text.encode "dest".toList] (.directory directoryMode)

theorem bareTree_wellFormed : bareTree.WellFormed := .of_entries (by decide)

/-- A plan with a mount that a target requires and that has its file system checked. -/
def homePlan : Plan :=
  { units := [({
      name := "home.mount"
      description := "Home Partition"
      body := .mount "/dev/sda3" "/home" (some "ext4") "rw"
      check := some ⟨"/dev/sda3", "/home", some "ext4"⟩ : UnitFile }.dependedOnBy
        "local-fs.target" .requires)]
    dropIns := [⟨"dev-sda3.device", "50-timeout", "[Unit]\nJobTimeoutSec=0\n"⟩] }

end PartitionUnits
