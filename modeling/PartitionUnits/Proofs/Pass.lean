import PartitionUnits.LiveSite
import PartitionUnits.Proofs.Submission.Restoration

/-!
# What a pass writes

A pass over a machine changes the files by what its plans stand for, and by nothing else.

## Main Definitions

* `Site.Applies` — a site that applies its plans to files
* `Emission` — a plan that was applied, and for whom
* `Site.Decides` — the plan that a decision of the pass comes to
* `Emits` — plans that were applied one after the other
* `run_wrote`, `run_extends` — the files after a whole pass

## Design Notes

A pass is a row of activations, and `activate_wrote` says what one of them does to the files and to
the list of what was emitted.  The plans share directories: a directory that one plan has made is
there for the next one, and `Extends.trans` takes care of that.
-/

namespace PartitionUnits

open Attempt

variable {σ : Type} {site : Site σ} {tree : σ → Tree} {destination : σ → Destination}
  {settings : Settings} {t : Tree}

/-- **A site that applies its plans to files**: `tree` is the part of its state that holds them, and
where and how plans are applied may depend on the state. -/
structure Site.Applies (site : Site σ) (tree : σ → Tree) (destination : σ → Destination) :
    Prop where
  value : ∀ plan s, (site.submit plan s).1.value =
    (((destination s).submit plan).run (tree s)).1.value
  tree : ∀ plan s, tree (site.submit plan s).2 = (((destination s).submit plan).run (tree s)).2

/-- Where and how the running machine applies its plans. -/
def Beginning.destinationAt (b : Beginning) (directory : Path) (w : World) : Destination :=
  { directory, inInitrd := b.inInitrd, hasHelper := w.hasCheckHelper }

/-- The running machine applies its plans to its own files. -/
theorem liveSite_applies (b : Beginning) (directory : Path) :
    (liveSite b directory).Applies World.tree (b.destinationAt directory) where
  value := fun _ _ => rfl
  tree := fun _ _ => rfl

/-- A plan that was applied: the subject it was for, and what was decided about its checks. -/
structure Emission where
  subject : String
  plan : Plan
  destination : Destination
  rendered : List Destination.Rendered

namespace Emission

/-- The files and links of a plan that was applied. -/
def entries (e : Emission) : List (Path × Entry) :=
  e.destination.entries e.rendered e.plan.dropIns

/-- The directories of a plan that was applied. -/
def directories (e : Emission) : List Path :=
  e.destination.directories e.rendered e.plan.dropIns

end Emission

/-- The partitions that a pass elects, after it has set up the root mount. -/
def Site.elected (site : Site σ) (settings : Settings) (s : σ) : List (Rule × Assignment) :=
  let started := site.activateRoot settings { status := pure {}, state := s }
  match (discover (site.machine started.state)).run.value with
  | .ok elected => elected
  | .error _ => []

/-- **A decision of a pass comes to a plan**, for the root mount or for an elected partition. -/
inductive Site.Decides (site : Site σ) (settings : Settings) (elected : List (Rule × Assignment))
    (s : σ) : String → Plan → Prop where
  | root {plan : Plan} (henabled : settings.rootEnabled = true)
      (h : (decideRoot settings (site.machine s).host).run.value = .ok (.emit plan)) :
      Decides site settings elected s Role.root.id plan
  | partition {rule : Rule} {assignment : Assignment} {plan : Plan}
      (hmem : (rule, assignment) ∈ elected)
      (h : (rule.decide (site.machine s) assignment).run.value = .ok (.emit plan)) :
      Decides site settings elected s rule.role.id plan

/-- **Plans that were applied one after the other**: each was decided on in a state with the files
that the earlier ones have led to, and has added what it stands for to those. -/
inductive Emits (site : Site σ) (tree : σ → Tree) (destination : σ → Destination)
    (settings : Settings) (elected : List (Rule × Assignment)) (t : Tree) :
    List Emission → Tree → Prop where
  | nil : Emits site tree destination settings elected t [] t
  | snoc {emissions : List Emission} {e : Emission} {s : σ} {v : Tree}
      (earlier : Emits site tree destination settings elected t emissions (tree s))
      (hplan : site.Decides settings elected s e.subject e.plan)
      (hdestination : e.destination = destination s)
      (hdecided : e.destination.Decided e.plan.units e.rendered)
      (hextends : Extends (tree s) e.entries e.directories v) :
      Emits site tree destination settings elected t (emissions ++ [e]) v

/-- Together, the plans have added what they stand for. -/
theorem Emits.extends {elected : List (Rule × Assignment)} {emissions : List Emission} {u : Tree}
    (h : Emits site tree destination settings elected t emissions u) :
    Extends t (emissions.flatMap Emission.entries) (emissions.flatMap Emission.directories) u := by
  induction h with
  | nil => exact .refl t
  | snoc _ _ _ _ hextends ih =>
      rw [List.flatMap_append, List.flatMap_append, List.flatMap_singleton, List.flatMap_singleton]
      exact ih.trans hextends

/-! ## One activation -/

theorem Site.Decides.isForRole {elected : List (Rule × Assignment)} {s : σ} {subject : String}
    {plan : Plan} (h : site.Decides settings elected s subject plan) :
    ∃ role, plan.IsForRole role := by
  cases h with
  | root _ hdecide => exact ⟨.root, decideRoot_ensures _ _ _ hdecide _ rfl⟩
  | @partition rule _ _ _ hdecide => exact ⟨rule.role, rule.decide_ensures _ _ _ hdecide _ rfl⟩

/-- No path that the settings for an unlocked volume could get is too long. -/
def HasRoom (destination : σ → Destination) : Prop :=
  ∀ s (role : Role), ((destination s).directory.join
    (Unlocking.noTimeout role.id).path).octets.length ≤ Path.maxLength

/-- **Handing over a plan adds what it stands for, or leaves the files alone.** -/
theorem submit_extends_or_restores {elected : List (Rule × Assignment)} {s : σ} {subject : String}
    {plan : Plan} (happlies : site.Applies tree destination) (hwf : (tree s).WellFormed)
    (hroom : HasRoom destination) (hplan : site.Decides settings elected s subject plan) :
    (∃ rendered, (destination s).Decided plan.units rendered ∧
      (site.submit plan s).1.value = .ok () ∧
      Extends (tree s) ((destination s).entries rendered plan.dropIns)
        ((destination s).directories rendered plan.dropIns) (tree (site.submit plan s).2)) ∨
    (∃ failure, (site.submit plan s).1.value = .error failure ∧
      tree (site.submit plan s).2 = tree s) := by
  obtain ⟨role, hrole⟩ := hplan.isForRole
  rw [happlies.value, happlies.tree]
  cases hvalue : (((destination s).submit plan).run (tree s)).1.value with
  | error failure =>
      have hlone : plan.HasLoneDropIn (destination s) := hrole.hasLoneDropIn (hroom s role)
      exact Or.inr ⟨failure, rfl, hlone.restores hwf hvalue⟩
  | ok _ =>
      have houtcome := submit_outcome (destination s) plan (tree s)
      rw [hvalue] at houtcome
      generalize (((destination s).submit plan).run (tree s)).2 = final at houtcome ⊢
      cases houtcome with
      | @applied rendered made _ hrender hdone =>
          have hdecided := render_eq_ok_iff.mp hrender
          exact Or.inl ⟨rendered, hdecided, rfl, hdone.extends_plan hdecided hrole.names⟩

theorem wellFormed_submit {s : σ} (happlies : site.Applies tree destination) (plan : Plan)
    (hwf : (tree s).WellFormed) : (tree (site.submit plan s).2).WellFormed := by
  rw [happlies.tree]
  exact Script.wellFormed_of_mem_states hwf (Script.run_mem_states _)

/-- **A pass under way**: the files are what the plans so far have made of the first ones, and the
status lists the subjects of those plans. -/
structure Site.Progress.Wrote (p : Site.Progress σ) (site : Site σ) (tree : σ → Tree)
    (destination : σ → Destination) (settings : Settings) (elected : List (Rule × Assignment))
    (t : Tree) (emissions : List Emission) : Prop where
  emitted : p.status.value.emitted = emissions.map Emission.subject
  emits : Emits site tree destination settings elected t emissions (tree p.state)
  wellFormed : (tree p.state).WellFormed

/-- What leaves the files and the list of emitted roles alone keeps the invariant. -/
theorem Site.Progress.Wrote.of_same {elected : List (Rule × Assignment)} {p p' : Site.Progress σ}
    {emissions : List Emission}
    (h : p.Wrote site tree destination settings elected t emissions)
    (hemitted : p'.status.value.emitted = p.status.value.emitted)
    (htree : tree p'.state = tree p.state) :
    p'.Wrote site tree destination settings elected t emissions where
  emitted := hemitted.trans h.emitted
  emits := by
    rw [htree]
    exact h.emits
  wellFormed := by
    rw [htree]
    exact h.wellFormed

theorem emitted_record_emitted (status : Status) (subject : String) :
    (status.record subject (.ok .emitted)).value.emitted = status.emitted ++ [subject] := rfl

theorem emitted_record_skipped (status : Status) (subject : String) (reason : SkipReason) :
    (status.record subject (.ok (.skipped reason))).value.emitted = status.emitted := rfl

theorem emitted_record_error (status : Status) (subject : String) (failure : Failure) :
    (status.record subject (.error failure)).value.emitted = status.emitted := rfl

/-- What carrying out a decision comes to: a result, and the state after it. -/
theorem carryOut_of_error (site : Site σ) {decision : Attempt Decision} (s : σ) {failure : Failure}
    (h : decision.run.value = .error failure) :
    (site.carryOut decision s).1.value = .error failure ∧ (site.carryOut decision s).2 = s := by
  unfold Site.carryOut
  simp only [h, and_self]

theorem carryOut_of_skip (site : Site σ) {decision : Attempt Decision} (s : σ) {reason : SkipReason}
    (h : decision.run.value = .ok (.skip reason)) :
    (site.carryOut decision s).1.value = .ok (.skipped reason) ∧
      (site.carryOut decision s).2 = s := by
  unfold Site.carryOut
  simp only [h, and_self]

theorem carryOut_of_emit (site : Site σ) {decision : Attempt Decision} (s : σ) {plan : Plan}
    (h : decision.run.value = .ok (.emit plan)) :
    (site.carryOut decision s).1.value =
        (site.submit plan s).1.value.map (fun _ => .emitted) ∧
      (site.carryOut decision s).2 = (site.submit plan s).2 := by
  unfold Site.carryOut
  simp only [h, and_self]

theorem emitted_activate (site : Site σ) (subject : String)
    (decision : Machine → Attempt Decision) (p : Site.Progress σ) :
    (site.activate subject decision p).status.value = (p.status.value.record subject
      (site.carryOut (decision (site.machine p.state)) p.state).1.value).value := rfl

theorem state_activate (site : Site σ) (subject : String)
    (decision : Machine → Attempt Decision) (p : Site.Progress σ) :
    (site.activate subject decision p).state =
      (site.carryOut (decision (site.machine p.state)) p.state).2 := rfl

/-- **One activation adds what its plan stands for, or leaves the files alone.** -/
theorem activate_wrote {elected : List (Rule × Assignment)} {p : Site.Progress σ}
    {emissions : List Emission} (subject : String) (decision : Machine → Attempt Decision)
    (happlies : site.Applies tree destination) (hroom : HasRoom destination)
    (hdecides : ∀ s plan, (decision (site.machine s)).run.value = .ok (.emit plan) →
      site.Decides settings elected s subject plan)
    (h : p.Wrote site tree destination settings elected t emissions) :
    ∃ emissions', (site.activate subject decision p).Wrote site tree destination settings elected t
      emissions' := by
  cases hvalue : (decision (site.machine p.state)).run.value with
  | error failure =>
      obtain ⟨hresult, hstate⟩ := carryOut_of_error site p.state hvalue
      refine ⟨emissions, h.of_same ?_ ?_⟩
      · rw [emitted_activate, hresult, emitted_record_error]
      · rw [state_activate, hstate]
  | ok decided =>
      cases decided with
      | skip reason =>
          obtain ⟨hresult, hstate⟩ := carryOut_of_skip site p.state hvalue
          refine ⟨emissions, h.of_same ?_ ?_⟩
          · rw [emitted_activate, hresult, emitted_record_skipped]
          · rw [state_activate, hstate]
      | emit plan =>
          obtain ⟨hresult, hstate⟩ := carryOut_of_emit site p.state hvalue
          have hplan := hdecides p.state plan hvalue
          rcases submit_extends_or_restores happlies h.wellFormed hroom hplan with
            ⟨rendered, hdecided, hok, hextends⟩ | ⟨failure, herror, hsame⟩
          · refine ⟨emissions ++ [⟨subject, plan, destination p.state, rendered⟩], ?_, ?_, ?_⟩
            · rw [emitted_activate, hresult, hok, List.map_append, ← h.emitted]
              exact emitted_record_emitted _ _
            · rw [state_activate, hstate]
              exact h.emits.snoc hplan rfl hdecided hextends
            · rw [state_activate, hstate]
              exact wellFormed_submit happlies plan h.wellFormed
          · refine ⟨emissions, h.of_same ?_ ?_⟩
            · rw [emitted_activate, hresult, herror]
              exact emitted_record_error _ _ _
            · rw [state_activate, hstate, hsame]

/-! ## A whole pass -/

/-- Partitions that are activated one after the other add what their plans stand for. -/
theorem activations_wrote {elected : List (Rule × Assignment)}
    (happlies : site.Applies tree destination) (hroom : HasRoom destination)
    (partitions : List (Rule × Assignment)) (hmem : ∀ x ∈ partitions, x ∈ elected)
    {p : Site.Progress σ} {emissions : List Emission}
    (h : p.Wrote site tree destination settings elected t emissions) :
    ∃ emissions', (partitions.foldl (fun p (rule, assignment) =>
      site.activate rule.role.id (fun m => rule.decide m assignment) p) p).Wrote site tree
        destination settings elected t emissions' := by
  induction partitions generalizing p emissions with
  | nil => exact ⟨emissions, h⟩
  | cons x rest ih =>
      obtain ⟨rule, assignment⟩ := x
      have hfirst : (rule, assignment) ∈ elected := hmem _ List.mem_cons_self
      obtain ⟨emissions', h'⟩ := activate_wrote rule.role.id (fun m => rule.decide m assignment)
        happlies hroom (fun s plan hplan => .partition hfirst hplan) h
      exact ih (fun y hy => hmem y (List.mem_cons_of_mem _ hy)) h'

/-- Setting up the root mount adds what its plan stands for. -/
theorem activateRoot_wrote {elected : List (Rule × Assignment)}
    (happlies : site.Applies tree destination) (hroom : HasRoom destination)
    {p : Site.Progress σ} {emissions : List Emission}
    (h : p.Wrote site tree destination settings elected t emissions) :
    ∃ emissions', (site.activateRoot settings p).Wrote site tree destination settings elected t
      emissions' := by
  unfold Site.activateRoot
  split
  · next henabled =>
      exact activate_wrote Role.root.id (fun m => decideRoot settings m.host) happlies hroom
        (fun s plan hplan => .root henabled hplan) h
  · exact ⟨emissions, h.of_same rfl rfl⟩

/-- Finding partitions and activating them adds what their plans stand for. -/
theorem activatePartitions_wrote {elected : List (Rule × Assignment)}
    (happlies : site.Applies tree destination) (hroom : HasRoom destination)
    {p : Site.Progress σ} {emissions : List Emission}
    (helected : ∀ found, (discover (site.machine p.state)).run.value = .ok found → found = elected)
    (h : p.Wrote site tree destination settings elected t emissions) :
    ∃ emissions', (site.activatePartitions p).Wrote site tree destination settings elected t
      emissions' := by
  unfold Site.activatePartitions
  cases hfound : (discover (site.machine p.state)).run.value with
  | error failure =>
      simp only [hfound]
      exact ⟨emissions, h.of_same (emitted_record_error _ _ failure) rfl⟩
  | ok found =>
      simp only [hfound]
      have hmem : ∀ x ∈ found, x ∈ elected := by
        rw [helected found hfound]
        exact fun _ hx => hx
      -- What was found is logged, which changes neither the status nor the files.
      have hreported : (p.report (discover (site.machine p.state)).run.events).Wrote site
          tree destination settings elected t emissions := h.of_same rfl rfl
      exact activations_wrote happlies hroom found hmem hreported

/-- A whole pass adds what its plans stand for. -/
theorem run_wrote (settings : Settings) {s : σ} (happlies : site.Applies tree destination)
    (hwf : (tree s).WellFormed) (hroom : HasRoom destination) :
    ∃ emissions, (site.run settings s).Wrote site tree destination settings
      (site.elected settings s) (tree s) emissions := by
  -- A pass begins with nothing emitted and the first files.
  have hbegin : Site.Progress.Wrote { status := pure {}, state := s } site tree destination settings
      (site.elected settings s) (tree s) [] := ⟨rfl, .nil, hwf⟩
  obtain ⟨emissions, hroot⟩ := activateRoot_wrote happlies hroom hbegin
  unfold Site.run
  simp only
  split
  · exact ⟨emissions, hroot⟩
  · -- What is discovered then is what `Site.elected` says, by its definition.
    refine activatePartitions_wrote happlies hroom ?_ hroot
    intro found hfound
    unfold Site.elected
    simp only [hfound]

/-- **A pass adds what the plans of the roles that it reports as emitted stand for, and nothing
else.**  Nothing that was there before has changed, and roles that were skipped or have failed leave
nothing behind. -/
theorem run_extends (settings : Settings) {s : σ} (happlies : site.Applies tree destination)
    (hwf : (tree s).WellFormed) (hroom : HasRoom destination) :
    ∃ emissions : List Emission,
      (site.run settings s).status.value.emitted = emissions.map Emission.subject ∧
      Emits site tree destination settings (site.elected settings s) (tree s) emissions
        (tree (site.run settings s).state) ∧
      Extends (tree s) (emissions.flatMap Emission.entries)
        (emissions.flatMap Emission.directories) (tree (site.run settings s).state) := by
  obtain ⟨emissions, hwrote⟩ := run_wrote settings happlies hwf hroom
  exact ⟨emissions, hwrote.emitted, hwrote.emits, hwrote.emits.extends⟩

/-- The initrd of a machine whose firmware says where it was started from. -/
def initrdMachine : Machine where
  devices := {
    holding := fun _ => pure none
    parentDisk := fun _ => pure none
    partitions := fun _ => pure [] }
  probe := {
    table := fun _ => pure .nothing
    filesystem := fun _ => pure .nothing
    entry := fun _ => pure .nothing }
  host := {
    inInitrd := true
    inContainer := pure false
    isEfiBoot := true
    loaderPartition := .ok (some default)
    staticMounts := .ok {}
    mountPointState := fun _ => .ok .missing
    isEmptyDirectory := fun _ => .ok true }

/-- A pass over that machine, with an empty directory for its plans. -/
def initrdSite : Site Tree where
  machine := fun _ => initrdMachine
  submit := fun plan t => (bareDestination.submit plan).run t

/-- In that initrd, a pass writes the plan for the root mount. -/
theorem initrdSite_run_extends :
    ∃ emissions : List Emission, ["root"] = emissions.map Emission.subject ∧
      Extends bareTree (emissions.flatMap Emission.entries)
        (emissions.flatMap Emission.directories) (initrdSite.run {} bareTree).state := by
  have happlies : initrdSite.Applies id fun _ => bareDestination := ⟨fun _ _ => rfl, fun _ _ => rfl⟩
  have hlength : ∀ role : Role, (bareDestination.directory.join
      (Unlocking.noTimeout role.id).path).octets.length ≤ Path.maxLength := by
    intro role
    cases role <;> decide +kernel
  have hroom : HasRoom fun _ : Tree => bareDestination := fun _ => hlength
  have hstatus : (initrdSite.run {} bareTree).status.value.emitted = ["root"] := by
    decide +kernel
  obtain ⟨emissions, hemitted, -, hextends⟩ :=
    run_extends {} happlies bareTree_wellFormed hroom
  exact ⟨emissions, hstatus.symm.trans hemitted, hextends⟩

end PartitionUnits
