import PartitionUnits.Proofs.Discovery
import PartitionUnits.Proofs.Pass

/-!
# The turns of a pass

A pass takes one subject after the other.  What it does for each is a turn: a decision that is made
in the state that the earlier turns have led to, and carried out there.

## Main Definitions

* `Errand`, `Turn` — a subject and how to decide about it, and the decision as it was made
* `Site.turns` — the turns of a whole pass
* `turn_cases` — whom they are for
* `emitted_run`, `failed_run`, `state_run` — status and state of a pass, from its turns
* `Site.submitted` — the plans that a pass hands over
* `submitted_eq`, `submitted_cases` — those are the plans that its turns have decided on

## Design Notes

A pass keeps its status and its state, but not what it has handed over to whom.  `Site.recording`
adds that as a history: the same site, with a list of plans beside its state.  Since nothing looks
at the list, the pass is the same, which is `run_recording`.
-/

namespace PartitionUnits

variable {σ : Type} {site : Site σ} {settings : Settings} {s s' : σ}

/-- A subject, and how to decide about it. -/
structure Errand where
  subject : String
  decide : Machine → Attempt Decision

/-- **The decision for a subject**, as it was made in a state. -/
structure Turn (σ : Type) where
  subject : String
  decision : Attempt Decision
  state : σ

/-- The plan that was decided on, if there was one. -/
def Turn.plan? (turn : Turn σ) : Option Plan :=
  match turn.decision.run.value with
  | .ok (.emit plan) => some plan
  | _ => none

/-- Whether a result is recorded as emitted. -/
def isEmission : Except Failure Outcome → Bool
  | .ok .emitted => true
  | _ => false

/-- Whether a result is recorded as failed. -/
def isRecordedFailure : Except Failure Outcome → Bool
  | .error _ => true
  | .ok _ => false

/-! ## Errands and turns -/

namespace Site

/-- The turn for an errand. -/
def turn (site : Site σ) (e : Errand) (s : σ) : Turn σ :=
  ⟨e.subject, e.decide (site.machine s), s⟩

/-- What a turn comes to. -/
def result (site : Site σ) (turn : Turn σ) : Except Failure Outcome :=
  (site.carryOut turn.decision turn.state).1.value

/-- The state after a turn. -/
def after (site : Site σ) (turn : Turn σ) : σ := (site.carryOut turn.decision turn.state).2

/-- The state after errands that were run one after the other. -/
def afterAll (site : Site σ) : List Errand → σ → σ
  | [], s => s
  | e :: rest, s => site.afterAll rest (site.after (site.turn e s))

/-- The turns for errands that are run one after the other. -/
def play (site : Site σ) : List Errand → σ → List (Turn σ)
  | [], _ => []
  | e :: rest, s => site.turn e s :: site.play rest (site.after (site.turn e s))

/-- The errand for an elected partition. -/
def partitionErrand (x : Rule × Assignment) : Errand :=
  ⟨x.1.role.id, fun m => x.1.decide m x.2⟩

/-- The errands of the part of a pass that sets up the root mount. -/
def rootErrands (settings : Settings) : List Errand :=
  if settings.rootEnabled then [⟨Role.root.id, fun m => decideRoot settings m.host⟩] else []

/-- The errands of the part of a pass that finds partitions and activates their roles. -/
def partitionErrands (m : Machine) : List Errand :=
  match (discover m).run.value with
  | .error failure => [⟨discoverySubject, fun _ => throw failure⟩]
  | .ok elected => elected.map partitionErrand

/-- The errands of a whole pass. -/
def errands (site : Site σ) (settings : Settings) (s : σ) : List Errand :=
  let m := site.machine (site.afterAll (rootErrands settings) s)
  rootErrands settings ++ if m.host.inInitrd then [] else partitionErrands m

/-- **The turns of a whole pass.** -/
def turns (site : Site σ) (settings : Settings) (s : σ) : List (Turn σ) :=
  site.play (site.errands settings s) s

end Site

open Site

theorem afterAll_append (es es' : List Errand) :
    site.afterAll (es ++ es') s = site.afterAll es' (site.afterAll es s) := by
  induction es generalizing s with
  | nil => rfl
  | cons e rest ih => exact ih

theorem play_append (es es' : List Errand) :
    site.play (es ++ es') s = site.play es s ++ site.play es' (site.afterAll es s) := by
  induction es generalizing s with
  | nil => rfl
  | cons e rest ih =>
      rw [List.cons_append, play, play, ih, List.cons_append]
      rfl

/-- A turn is the turn for one of the errands, in the state that those before it have led to. -/
theorem mem_play {es : List Errand} {turn : Turn σ} : turn ∈ site.play es s ↔
    ∃ before e after, es = before ++ e :: after ∧
      turn = site.turn e (site.afterAll before s) := by
  constructor
  · intro h
    induction es generalizing s with
    | nil => cases h
    | cons e rest ih =>
        rcases List.mem_cons.mp h with rfl | hrest
        · exact ⟨[], e, rest, rfl, rfl⟩
        · obtain ⟨before, e', after, rfl, rfl⟩ := ih hrest
          exact ⟨e :: before, e', after, rfl, rfl⟩
  · rintro ⟨before, e, after, rfl, rfl⟩
    rw [play_append]
    exact List.mem_append_right _ List.mem_cons_self

/-- **Two runs of the same errands** keep a relation between their states, and their turns are
related one by one. -/
theorem forall₂_play {τ : Type} {site' : Site τ} {I : σ → τ → Prop}
    {R : Turn σ → Turn τ → Prop} {es : List Errand}
    (hstep : ∀ e ∈ es, ∀ s s', I s s' → R (site.turn e s) (site'.turn e s') ∧
      I (site.after (site.turn e s)) (site'.after (site'.turn e s')))
    {s : σ} {s' : τ} (h : I s s') : List.Forall₂ R (site.play es s) (site'.play es s') ∧
      I (site.afterAll es s) (site'.afterAll es s') := by
  induction es generalizing s s' with
  | nil => exact ⟨.nil, h⟩
  | cons e rest ih =>
      obtain ⟨hturn, hafter⟩ := hstep e List.mem_cons_self s s' h
      obtain ⟨hturns, hend⟩ := ih (fun e' he' => hstep e' (List.mem_cons_of_mem _ he')) hafter
      exact ⟨.cons hturn hturns, hend⟩

/-! ## What a turn comes to -/

section

variable (site : Site σ) (turn : Turn σ)

theorem turn_of_error {failure : Failure} (h : turn.decision.run.value = .error failure) :
    site.result turn = .error failure ∧ site.after turn = turn.state :=
  carryOut_of_error site turn.state h

theorem turn_of_skip {reason : SkipReason} (h : turn.decision.run.value = .ok (.skip reason)) :
    site.result turn = .ok (.skipped reason) ∧ site.after turn = turn.state :=
  carryOut_of_skip site turn.state h

theorem turn_of_emit {plan : Plan} (h : turn.decision.run.value = .ok (.emit plan)) :
    site.result turn = (site.submit plan turn.state).1.value.map (fun _ => .emitted) ∧
      site.after turn = (site.submit plan turn.state).2 :=
  carryOut_of_emit site turn.state h

end

theorem Turn.plan?_eq_some {turn : Turn σ} {plan : Plan} :
    turn.plan? = some plan ↔ turn.decision.run.value = .ok (.emit plan) := by
  unfold Turn.plan?
  split
  · next h => simp [h]
  · next h =>
      constructor
      · intro hnone
        cases hnone
      · intro hemit
        exact absurd hemit (h plan)

/-! ## The turns of a whole pass -/

/-- **A pass comes to an elected partition**, in a state: it goes on after the root mount, since
this is not the initrd, the machine is surveyed, and the partitions elected before have had their
turns. -/
structure Site.Reaches (site : Site σ) (settings : Settings) (s : σ) (rule : Rule) (a : Assignment)
    (s' : σ) : Prop where
  notInInitrd : (site.machine (site.afterAll (rootErrands settings) s)).host.inInitrd = false
  elected : ∃ root disk partitions table before after,
    (site.machine (site.afterAll (rootErrands settings) s)).Surveyed root disk partitions table ∧
      (elect (site.machine (site.afterAll (rootErrands settings) s)).guids root disk partitions
        table).value = before ++ (rule, a) :: after ∧
      s' = site.afterAll (before.map partitionErrand) (site.afterAll (rootErrands settings) s)

/-- A pass that goes on after the root mount comes to all partitions that are found. -/
theorem Site.Reaches.of_discover {rule : Rule} {a : Assignment}
    {before after : List (Rule × Assignment)}
    (hinitrd : (site.machine (site.afterAll (rootErrands settings) s)).host.inInitrd = false)
    (h : (discover (site.machine (site.afterAll (rootErrands settings) s))).run.value =
      .ok (before ++ (rule, a) :: after)) :
    site.Reaches settings s rule a (site.afterAll (before.map partitionErrand)
      (site.afterAll (rootErrands settings) s)) := by
  rcases discover_eq_ok h with hnil | ⟨root, disk, partitions, table, hsurveyed, helect⟩
  · simp at hnil
  · exact ⟨hinitrd, root, disk, partitions, table, before, after, hsurveyed, helect.symm, rfl⟩

/-- A pass has a turn for every elected partition that it comes to. -/
theorem Site.Reaches.mem_turns {rule : Rule} {a : Assignment}
    (h : site.Reaches settings s rule a s') :
    site.turn (partitionErrand (rule, a)) s' ∈ site.turns settings s := by
  obtain ⟨hinitrd, root, disk, partitions, table, before, after, hsurveyed, helect, rfl⟩ := h
  unfold turns errands
  simp only [hinitrd, Bool.false_eq_true, if_false, partitionErrands, hsurveyed.value_discover,
    helect]
  rw [play_append, List.map_append, List.map_cons]
  exact List.mem_append_right _ (mem_play.mpr ⟨_, _, _, rfl, rfl⟩)

/-- **The turns of a pass** are for the root mount, for a failure to find partitions, and for the
elected partitions that the pass comes to. -/
theorem turn_cases {turn : Turn σ} (h : turn ∈ site.turns settings s) :
    settings.rootEnabled = true ∧
        turn = site.turn ⟨Role.root.id, fun m => decideRoot settings m.host⟩ s ∨
      turn.subject = discoverySubject ∧ (∃ failure, turn.decision = throw failure) ∨
      ∃ rule a s', site.Reaches settings s rule a s' ∧
        turn = site.turn (partitionErrand (rule, a)) s' := by
  unfold turns errands at h
  rw [play_append, List.mem_append] at h
  rcases h with h | h
  · unfold rootErrands at h
    split at h
    · next henabled => exact Or.inl ⟨henabled, List.mem_singleton.mp h⟩
    · cases h
  · split at h
    · cases h
    next hinitrd =>
    unfold partitionErrands at h
    split at h
    · next failure _ =>
        rw [List.mem_singleton.mp h]
        exact Or.inr (Or.inl ⟨rfl, failure, rfl⟩)
    next elected hdiscover =>
    obtain ⟨before, e, after, hmap, rfl⟩ := mem_play.mp h
    obtain ⟨first, rest, rfl, rfl, hrest⟩ := List.map_eq_append_iff.mp hmap
    obtain ⟨⟨rule, a⟩, last, rfl, rfl, rfl⟩ := List.map_eq_cons_iff.mp hrest
    exact Or.inr (Or.inr ⟨rule, a, _, .of_discover (by simpa using hinitrd) hdiscover, rfl⟩)

/-! ## Status and state -/

theorem emitted_record (status : Status) (subject : String) (r : Except Failure Outcome) :
    (status.record subject r).value.emitted =
      status.emitted ++ if isEmission r then [subject] else [] := by
  cases r with
  | error failure =>
      rw [emitted_record_error]
      exact (List.append_nil _).symm
  | ok outcome =>
      cases outcome with
      | emitted => exact emitted_record_emitted _ _
      | skipped reason => exact (List.append_nil _).symm

theorem failed_record (status : Status) (subject : String) (r : Except Failure Outcome) :
    (status.record subject r).value.failed =
      status.failed ++ if isRecordedFailure r then [subject] else [] := by
  cases r with
  | error failure => rfl
  | ok outcome => cases outcome <;> exact (List.append_nil _).symm

/-- A pass under way, after errands that were run one after the other. -/
def Site.Progress.run (p : Progress σ) (site : Site σ) (es : List Errand) : Progress σ :=
  es.foldl (fun p e => site.activate e.subject e.decide p) p

/-- **What errands add to a pass** under way is what their turns come to. -/
theorem progress_run (site : Site σ) (p : Progress σ) (es : List Errand) :
    (p.run site es).state = site.afterAll es p.state ∧
      (p.run site es).status.value.emitted = p.status.value.emitted ++
        ((site.play es p.state).filter (isEmission <| site.result ·)).map Turn.subject ∧
      (p.run site es).status.value.failed = p.status.value.failed ++
        ((site.play es p.state).filter (isRecordedFailure <| site.result ·)).map Turn.subject := by
  induction es generalizing p with
  | nil => simp [Progress.run, afterAll, play]
  | cons e rest ih =>
      obtain ⟨hstate, hemitted, hfailed⟩ := ih (site.activate e.subject e.decide p)
      have hafter : (site.activate e.subject e.decide p).state =
          site.after (site.turn e p.state) := rfl
      have hstatus : (site.activate e.subject e.decide p).status.value =
          (p.status.value.record e.subject (site.result (site.turn e p.state))).value := rfl
      rw [hafter] at hstate hemitted hfailed
      rw [hstatus, emitted_record] at hemitted
      rw [hstatus, failed_record] at hfailed
      refine ⟨hstate, hemitted.trans ?_, hfailed.trans ?_⟩
      · rw [play, List.filter_cons, List.append_assoc]
        cases isEmission (site.result (site.turn e p.state)) <;> rfl
      · rw [play, List.filter_cons, List.append_assoc]
        cases isRecordedFailure (site.result (site.turn e p.state)) <;> rfl

/-- Reporting changes neither the status nor the state. -/
theorem progress_run_report (site : Site σ) (p : Progress σ) (events : List Event)
    (es : List Errand) :
    ((p.report events).run site es).state = (p.run site es).state ∧
      ((p.report events).run site es).status.value.emitted =
        (p.run site es).status.value.emitted ∧
      ((p.report events).run site es).status.value.failed =
        (p.run site es).status.value.failed := by
  obtain ⟨hstate, hemitted, hfailed⟩ := progress_run site (p.report events) es
  obtain ⟨hstate', hemitted', hfailed'⟩ := progress_run site p es
  exact ⟨hstate.trans hstate'.symm, hemitted.trans hemitted'.symm, hfailed.trans hfailed'.symm⟩

theorem activateRoot_run (site : Site σ) (settings : Settings) (p : Progress σ) :
    (site.activateRoot settings p).state = (p.run site (rootErrands settings)).state ∧
      (site.activateRoot settings p).status.value =
        (p.run site (rootErrands settings)).status.value := by
  unfold activateRoot rootErrands
  split
  · exact ⟨rfl, rfl⟩
  · exact ⟨rfl, rfl⟩

theorem activatePartitions_run (site : Site σ) (p : Progress σ) :
    (site.activatePartitions p).state =
        (p.run site (partitionErrands (site.machine p.state))).state ∧
      (site.activatePartitions p).status.value.emitted =
        (p.run site (partitionErrands (site.machine p.state))).status.value.emitted ∧
      (site.activatePartitions p).status.value.failed =
        (p.run site (partitionErrands (site.machine p.state))).status.value.failed := by
  unfold activatePartitions partitionErrands
  cases hfound : (discover (site.machine p.state)).run.value with
  | error failure =>
      simp only [hfound]
      exact ⟨rfl, rfl, rfl⟩
  | ok elected =>
      simp only [hfound]
      have hrun := progress_run_report site p
        (discover (site.machine p.state)).run.events (elected.map partitionErrand)
      simp only [Progress.run, List.foldl_map] at hrun ⊢
      exact hrun

/-- A pass runs its errands. -/
theorem run_errands (settings : Settings) (s : σ) :
    (site.run settings s).state = site.afterAll (site.errands settings s) s ∧
      (site.run settings s).status.value.emitted =
        ((site.turns settings s).filter (isEmission <| site.result ·)).map Turn.subject ∧
      (site.run settings s).status.value.failed =
        ((site.turns settings s).filter (isRecordedFailure <| site.result ·)).map Turn.subject := by
  obtain ⟨hstate, hstatus⟩ := activateRoot_run site settings
    { status := pure {}, state := s }
  obtain ⟨hroot, hrootEmitted, hrootFailed⟩ := progress_run site
    { status := pure {}, state := s } (rootErrands settings)
  rw [← hstate] at hroot
  rw [← hstatus] at hrootEmitted hrootFailed
  unfold Site.run turns errands
  simp only
  rw [hroot]
  split
  · rw [List.append_nil]
    exact ⟨hroot, hrootEmitted, hrootFailed⟩
  · obtain ⟨hrest, hrestEmitted, hrestFailed⟩ := activatePartitions_run site
      (site.activateRoot settings { status := pure {}, state := s })
    obtain ⟨hend, hendEmitted, hendFailed⟩ := progress_run site
      (site.activateRoot settings { status := pure {}, state := s })
      (partitionErrands (site.machine (site.afterAll (rootErrands settings) s)))
    rw [hroot] at hrest hrestEmitted hrestFailed hend hendEmitted hendFailed
    rw [afterAll_append, play_append, List.filter_append, List.filter_append, List.map_append,
      List.map_append]
    refine ⟨hrest.trans hend, ?_, ?_⟩
    · rw [hrestEmitted, hendEmitted, hrootEmitted]
      rfl
    · rw [hrestFailed, hendFailed, hrootFailed]
      rfl

/-- **The state after a pass.** -/
theorem state_run (settings : Settings) (s : σ) :
    (site.run settings s).state = site.afterAll (site.errands settings s) s :=
  (run_errands settings s).1

/-- **A pass reports as emitted the subjects whose turns have ended so.** -/
theorem emitted_run (settings : Settings) (s : σ) :
    (site.run settings s).status.value.emitted =
      ((site.turns settings s).filter (isEmission <| site.result ·)).map Turn.subject :=
  (run_errands settings s).2.1

/-- **A pass reports as failed the subjects whose turns have ended so.** -/
theorem failed_run (settings : Settings) (s : σ) :
    (site.run settings s).status.value.failed =
      ((site.turns settings s).filter (isRecordedFailure <| site.result ·)).map Turn.subject :=
  (run_errands settings s).2.2

/-! ## What was handed over -/

/-- The same site, with the plans that were handed over beside its state. -/
def Site.recording (site : Site σ) : Site (σ × List Plan) where
  machine s := site.machine s.1
  submit plan s := ((site.submit plan s.1).1, (site.submit plan s.1).2, s.2 ++ [plan])

/-- **The plans that a pass hands over**, in order. -/
def Site.submitted (site : Site σ) (settings : Settings) (s : σ) : List Plan :=
  (site.recording.run settings (s, [])).state.2

/-- Carrying out a decision is the same, and the plan is recorded if there is one. -/
theorem after_recording (e : Errand) (s : σ) (plans : List Plan) :
    site.recording.after (site.recording.turn e (s, plans)) =
      (site.after (site.turn e s), plans ++ (site.turn e s).plan?.toList) := by
  cases hvalue : (site.turn e s).decision.run.value with
  | error failure =>
      have hplan : (site.turn e s).plan? = none := by simp only [Turn.plan?, hvalue]
      rw [hplan, (turn_of_error _ _ hvalue).2, Option.toList_none, List.append_nil]
      exact (turn_of_error site.recording (site.recording.turn e (s, plans)) hvalue).2
  | ok decision =>
      cases decision with
      | skip reason =>
          have hplan : (site.turn e s).plan? = none := by simp only [Turn.plan?, hvalue]
          rw [hplan, (turn_of_skip _ _ hvalue).2, Option.toList_none, List.append_nil]
          exact (turn_of_skip site.recording (site.recording.turn e (s, plans)) hvalue).2
      | emit plan =>
          have hplan : (site.turn e s).plan? = some plan := by simp only [Turn.plan?, hvalue]
          rw [hplan, (turn_of_emit _ _ hvalue).2]
          exact (turn_of_emit site.recording (site.recording.turn e (s, plans)) hvalue).2

theorem afterAll_recording (es : List Errand) (s : σ) (plans : List Plan) :
    site.recording.afterAll es (s, plans) =
      (site.afterAll es s, plans ++ (site.play es s).filterMap Turn.plan?) := by
  induction es generalizing s plans with
  | nil => rw [afterAll, afterAll, play, List.filterMap_nil, List.append_nil]
  | cons e rest ih =>
      rw [afterAll, after_recording, ih, List.append_assoc, afterAll, play]
      cases hplan : (site.turn e s).plan? with
      | none => rw [List.filterMap_cons_none hplan]; rfl
      | some plan => rw [List.filterMap_cons_some hplan]; rfl

theorem errands_recording (settings : Settings) (s : σ) (plans : List Plan) :
    site.recording.errands settings (s, plans) = site.errands settings s := by
  unfold errands
  rw [afterAll_recording]
  rfl

/-- **Recording changes nothing about a pass**, and what it records are the plans that the turns
have decided on. -/
theorem run_recording (settings : Settings) (s : σ) (plans : List Plan) :
    (site.recording.run settings (s, plans)).state = ((site.run settings s).state,
      plans ++ (site.turns settings s).filterMap Turn.plan?) := by
  rw [state_run, state_run, errands_recording, afterAll_recording]
  rfl

/-- **A pass hands over the plans that its turns have decided on.** -/
theorem submitted_eq (settings : Settings) (s : σ) :
    site.submitted settings s = (site.turns settings s).filterMap Turn.plan? := by
  rw [submitted, run_recording]
  rfl

/-- **A plan that a pass hands over** was decided on for the root mount, or for an elected partition
that the pass comes to. -/
theorem submitted_cases {plan : Plan} (h : plan ∈ site.submitted settings s) :
    settings.rootEnabled = true ∧
        (decideRoot settings (site.machine s).host).run.value = .ok (.emit plan) ∨
      ∃ rule a s', site.Reaches settings s rule a s' ∧
        (rule.decide (site.machine s') a).run.value = .ok (.emit plan) := by
  rw [submitted_eq] at h
  obtain ⟨turn, hturn, hplan⟩ := List.mem_filterMap.mp h
  have hvalue := Turn.plan?_eq_some.mp hplan
  rcases turn_cases hturn with ⟨henabled, rfl⟩ | ⟨-, failure, hthrow⟩ | ⟨rule, a, s', hreaches, rfl⟩
  · exact Or.inl ⟨henabled, hvalue⟩
  · rw [hthrow] at hvalue
    cases hvalue
  · exact Or.inr ⟨rule, a, s', hreaches, hvalue⟩

end PartitionUnits
