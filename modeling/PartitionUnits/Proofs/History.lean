import Mathlib.Data.List.Nodup
import PartitionUnits.Proofs.Questions
import PartitionUnits.Proofs.Turns

/-!
# What happens in a pass

Everything that a pass asks and hands over, in order, with what was refused or rejected; and that
the pass reports exactly that as failed.

## Main Definitions

* `Inquest` — an errand together with the inquiry that its decision is
* `Site.history` — what happens in a pass, and in whose name
* `failed_eq_history` — the failures of a pass are the errors of its history
* `subjects_turns` — whose turns there are, whatever fails
* `failures_reported` — no error is swallowed and none is invented

## Design Notes

The history is told by the inquiries of the decisions and not by the decisions, which do not show
what they have asked.  Finding the partitions is part of it, under the subject for failures before
the election, also when it succeeds and is nobody's turn.
-/

namespace PartitionUnits

open Site

variable {σ : Type} {site : Site σ} {settings : Settings} {s : σ} {m : Machine}

/-- **An errand together with the inquiry that its decision is.** -/
structure Inquest extends Errand where
  inquiry : Machine → Inquiry Decision
  matches_decide : ∀ m, Matches Eq (decide m).run.value ((inquiry m).run m)
  isOrderly : ∀ m, (inquiry m).IsOrderly

/-- The inquest about the root mount. -/
def rootInquest (settings : Settings) : Inquest where
  subject := Role.root.id
  decide m := decideRoot settings m.host
  inquiry := rootInquiry settings
  matches_decide := matches_rootInquiry settings
  isOrderly := isOrderly_rootInquiry settings

/-- The inquest about an elected partition. -/
def partitionInquest (x : Rule × Assignment) : Inquest where
  toErrand := partitionErrand x
  inquiry := x.1.inquiry x.2
  matches_decide := matches_inquiry x.1 x.2
  isOrderly := isOrderly_inquiry x.1 x.2

namespace Site

/-- What happens at an inquest, up to handing over the plan if it comes to one. -/
def occurrences (site : Site σ) (i : Inquest) (s : σ) : List Happening :=
  (i.inquiry (site.machine s)).happenings (site.machine s) ++
    match (i.inquiry (site.machine s)).run (site.machine s) with
    | .ok (.emit plan) => [.submitted plan (failure? (site.submit plan s).1.value)]
    | _ => []

/-- What happens at inquests that are held one after the other, and in whose name. -/
def chronicle (site : Site σ) : List Inquest → σ → List (String × Happening)
  | [], _ => []
  | i :: rest, s => (site.occurrences i s).map (fun x => (i.subject, x)) ++
      site.chronicle rest (site.after (site.turn i.toErrand s))

/-- The inquests of the part of a pass that sets up the root mount. -/
def rootInquests (settings : Settings) : List Inquest :=
  if settings.rootEnabled then [rootInquest settings] else []

/-- **What happens in a whole pass**, in order, and in whose name. -/
def history (site : Site σ) (settings : Settings) (s : σ) : List (String × Happening) :=
  let s' := site.afterAll (rootErrands settings) s
  let m := site.machine s'
  site.chronicle (rootInquests settings) s ++
    if m.host.inInitrd then []
    else
      ((discoveryInquiry m.guids).happenings m).map (fun x => (discoverySubject, x)) ++
        match (discoveryInquiry m.guids).run m with
        | .ok elected => site.chronicle (elected.map partitionInquest) s'
        | .error _ => []

end Site

/-! ## Errors and failures -/

theorem isRecordedFailure_eq (r : Except Failure Outcome) : isRecordedFailure r = isError r := by
  cases r with
  | ok outcome => rfl
  | error f => rfl

/-- **At an inquest there is an error just if it fails**, and then there is one. -/
theorem countP_occurrences (i : Inquest) (s : σ) :
    (site.occurrences i s).countP Happening.isError =
      if isRecordedFailure (site.result (site.turn i.toErrand s)) then 1 else 0 := by
  have hmatches : Matches Eq (site.turn i.toErrand s).decision.run.value
      ((i.inquiry (site.machine s)).run (site.machine s)) := i.matches_decide _
  rw [occurrences, List.countP_append, Inquiry.countP_happenings, isRecordedFailure_eq]
  generalize hvalue : (site.turn i.toErrand s).decision.run.value = r at hmatches
  generalize (i.inquiry (site.machine s)).run (site.machine s) = r' at hmatches
  cases hmatches with
  | error f f' =>
      rw [(turn_of_error site _ hvalue).1]
      rfl
  | @ok decision _ h =>
      subst h
      cases decision with
      | skip reason =>
          rw [(turn_of_skip site _ hvalue).1]
          rfl
      | emit plan =>
          rw [(turn_of_emit site _ hvalue).1]
          show 0 + [Happening.submitted plan (failure? (site.submit plan s).1.value)].countP _ = _
          rw [Nat.zero_add, List.countP_singleton]
          change (if (Happening.submitted plan _).isError = true then 1 else 0) =
            if isError ((site.submit plan s).1.value.map _) = true then 1 else 0
          cases (site.submit plan s).1.value with
          | ok _ => rfl
          | error f => rfl

/-- The subjects of errors that are all of one subject. -/
theorem filter_isError_map (subject : String) (xs : List Happening) :
    ((xs.map fun x => (subject, x)).filter fun x => x.2.isError).map Prod.fst =
      List.replicate (xs.countP Happening.isError) subject := by
  rw [List.filter_map, List.map_map, List.countP_eq_length_filter]
  exact List.map_const'

/-- **The errors of inquests are the failures of their turns.** -/
theorem filter_isError_chronicle (is : List Inquest) (s : σ) :
    ((site.chronicle is s).filter fun x => x.2.isError).map Prod.fst =
      ((site.play (is.map Inquest.toErrand) s).filter
        (isRecordedFailure <| site.result ·)).map Turn.subject := by
  induction is generalizing s with
  | nil => rfl
  | cons i rest ih =>
      rw [chronicle, List.filter_append, List.map_append, filter_isError_map, countP_occurrences,
        ih, List.map_cons, play, List.filter_cons]
      split
      · rfl
      · rfl

/-! ## Whose turns there are -/

/-- The elected partitions are in the order of the rules, one at most for each. -/
theorem sublist_rules_discover {elected : List (Rule × Assignment)}
    (h : (discover m).run.value = .ok elected) : (elected.map Prod.fst).Sublist rules := by
  have hsub : ∀ (winner : Rule → Option Assignment) (rs : List Rule),
      ((rs.filterMap fun r => (winner r).map fun a => (r, a)).map Prod.fst).Sublist rs := by
    intro winner rs
    induction rs with
    | nil => exact .slnil
    | cons r rest ih =>
        cases hwinner : winner r with
        | none =>
            rw [List.filterMap_cons_none (by rw [hwinner]; rfl)]
            exact ih.cons r
        | some a =>
            rw [List.filterMap_cons_some (by rw [hwinner]; rfl)]
            exact ih.cons_cons r
  rcases discover_eq_ok h with rfl | ⟨root, disk, partitions, table, -, rfl⟩
  · exact List.nil_sublist _
  · rw [value_elect]
    exact hsub _ rules

/-- The elected partitions that a pass comes to, or why they cannot be found. -/
def Site.winners (site : Site σ) (settings : Settings) (s : σ) :
    Except Failure (List (Rule × Assignment)) :=
  let m := site.machine (site.afterAll (rootErrands settings) s)
  if m.host.inInitrd then .ok [] else (discover m).run.value

/-- The subjects of errands that are run one after the other. -/
theorem subjects_play (es : List Errand) (s : σ) :
    (site.play es s).map Turn.subject = es.map Errand.subject := by
  induction es generalizing s with
  | nil => rfl
  | cons e rest ih =>
      rw [play, List.map_cons, ih]
      rfl

theorem subjects_rootErrands (settings : Settings) : (rootErrands settings).map Errand.subject =
    if settings.rootEnabled then [Role.root.id] else [] := by
  unfold rootErrands
  split
  · rfl
  · rfl

theorem subjects_partitionErrands (m : Machine) : (partitionErrands m).map Errand.subject =
    match (discover m).run.value with
    | .ok elected => elected.map fun x => x.1.role.id
    | .error _ => [discoverySubject] := by
  unfold partitionErrands
  cases (discover m).run.value with
  | error f => rfl
  | ok elected => exact List.map_map

/-- **Whose turns there are**: the root mount's, if that is enabled, and then those of all elected
partitions, or that of the failure to find them. -/
theorem subjects_turns (settings : Settings) (s : σ) :
    (site.turns settings s).map Turn.subject =
      (if settings.rootEnabled then [Role.root.id] else []) ++
        match site.winners settings s with
        | .ok elected => elected.map fun x => x.1.role.id
        | .error _ => [discoverySubject] := by
  unfold turns winners
  rw [subjects_play, errands, List.map_append, subjects_rootErrands]
  congr 1
  simp only
  split
  · rfl
  · exact subjects_partitionErrands _

/-- The elected partitions that a pass comes to are in the order of the rules. -/
theorem winners_sublist {elected : List (Rule × Assignment)}
    (h : site.winners settings s = .ok elected) :
    (elected.map Prod.fst).Sublist rules ∧ (elected.map fun x => x.1.role).Nodup := by
  unfold winners at h
  simp only at h
  split at h
  · cases h
    exact ⟨List.nil_sublist _, List.nodup_nil⟩
  · exact ⟨sublist_rules_discover h, nodup_roles_discover h⟩

/-- **No two turns of a pass are for one subject.** -/
theorem nodup_subjects (settings : Settings) (s : σ) :
    ((site.turns settings s).map Turn.subject).Nodup := by
  have hroot : (if settings.rootEnabled then [Role.root.id] else []).Sublist [Role.root.id] := by
    split
    · exact .refl _
    · exact List.nil_sublist _
  rw [subjects_turns]
  refine List.Nodup.sublist (hroot.append_right _) ?_
  cases hwinners : site.winners settings s with
  | error f => exact (by decide : [Role.root.id, discoverySubject].Nodup)
  | ok elected =>
      obtain ⟨hsublist, hnodup⟩ := winners_sublist hwinners
      have hrules : ∀ r ∈ rules, r.role ≠ .root := by decide
      rw [List.singleton_append, List.nodup_cons]
      constructor
      · intro hmem
        obtain ⟨x, hx, hid⟩ := List.mem_map.mp hmem
        exact hrules _ (hsublist.subset (List.mem_map_of_mem hx)) (Role.id_injective hid)
      · have hids := List.Nodup.map (f := Role.id) (fun _ _ => Role.id_injective) hnodup
        rwa [List.map_map] at hids

/-! ## The history of a pass -/

/-- **The failures of a pass are the errors of its history**, one by one. -/
theorem failed_eq_history (settings : Settings) (s : σ) :
    (site.run settings s).status.value.failed =
      ((site.history settings s).filter fun x => x.2.isError).map Prod.fst := by
  have hroot : (rootInquests settings).map Inquest.toErrand = rootErrands settings := by
    unfold rootInquests rootErrands
    split
    · rfl
    · rfl
  rw [failed_run, turns, errands, history]
  rw [play_append, List.filter_append, List.map_append, List.filter_append, List.map_append,
    filter_isError_chronicle, hroot]
  congr 1
  split
  · rfl
  generalize site.afterAll (rootErrands settings) s = s'
  have hmatches := matches_discoveryInquiry (site.machine s')
  rw [List.filter_append, List.map_append, filter_isError_map, Inquiry.countP_happenings,
    partitionErrands]
  generalize (discover (site.machine s')).run.value = r at hmatches
  generalize (discoveryInquiry (site.machine s').guids).run (site.machine s') = r' at hmatches
  cases hmatches with
  | @ok elected _ h =>
      subst h
      have hmap : (elected.map partitionInquest).map Inquest.toErrand =
          elected.map partitionErrand := by
        rw [List.map_map]
        rfl
      simp only [filter_isError_chronicle, hmap]
      rfl
  | error f f' =>
      have hresult : site.result (site.turn ⟨discoverySubject, fun _ => throw f⟩ s') = .error f :=
        (turn_of_error site _ rfl).1
      simp only [play, List.filter_cons, hresult]
      rfl

/-- What happens at inquests happens at one of them, in the state that those before it have led
to. -/
theorem mem_chronicle {is : List Inquest} {x : String × Happening}
    (h : x ∈ site.chronicle is s) : ∃ before i after, is = before ++ i :: after ∧
      x.1 = i.subject ∧
      x.2 ∈ site.occurrences i (site.afterAll (before.map Inquest.toErrand) s) := by
  induction is generalizing s with
  | nil => cases h
  | cons i rest ih =>
      rcases List.mem_append.mp h with h | h
      · obtain ⟨happening, hhappening, rfl⟩ := List.mem_map.mp h
        exact ⟨[], i, rest, rfl, rfl, hhappening⟩
      · obtain ⟨before, i', after, rfl, hsubject, hmem⟩ := ih h
        exact ⟨i :: before, i', after, rfl, hsubject, hmem⟩

/-- **Where something in the history of a pass happens**: at the root mount, when partitions are
looked for, or at an elected partition that the pass comes to. -/
theorem history_cases {x : String × Happening} (h : x ∈ site.history settings s) :
    x.1 = Role.root.id ∧ settings.rootEnabled = true ∧
        x.2 ∈ site.occurrences (rootInquest settings) s ∨
      x.1 = discoverySubject ∧ (∃ m : Machine, x.2 ∈ (discoveryInquiry m.guids).happenings m) ∨
      ∃ rule a s', site.Reaches settings s rule a s' ∧ x.1 = rule.role.id ∧
        x.2 ∈ site.occurrences (partitionInquest (rule, a)) s' := by
  unfold history at h
  rcases List.mem_append.mp h with h | h
  · unfold rootInquests at h
    split at h
    · next henabled =>
        obtain ⟨happening, hhappening, rfl⟩ := List.mem_map.mp (by simpa [chronicle] using h)
        exact Or.inl ⟨rfl, henabled, hhappening⟩
    · cases h
  · split at h
    · cases h
    next hinitrd =>
    rcases List.mem_append.mp h with h | h
    · obtain ⟨happening, hhappening, rfl⟩ := List.mem_map.mp h
      exact Or.inr (Or.inl ⟨rfl, _, hhappening⟩)
    · have hmatches :=
        matches_discoveryInquiry (site.machine (site.afterAll (rootErrands settings) s))
      split at h
      · next elected hrun =>
          rw [hrun] at hmatches
          generalize hdiscover : (discover _).run.value = r at hmatches
          cases hmatches with
          | ok heq =>
              obtain ⟨before, i, after, hmap, hsubject, hmem⟩ := mem_chronicle h
              obtain ⟨first, rest, rfl, rfl, hrest⟩ := List.map_eq_append_iff.mp hmap
              obtain ⟨⟨rule, a⟩, last, rfl, rfl, rfl⟩ := List.map_eq_cons_iff.mp hrest
              subst heq
              rw [List.map_map] at hmem
              exact Or.inr (Or.inr ⟨rule, a, _, .of_discover (by simpa using hinitrd) hdiscover,
                hsubject, hmem⟩)
      · cases h

/-! ## What happens at one inquest -/

section

variable {i : Inquest}

/-- An inquest that looks at a mount point and cannot tell leaves it alone. -/
theorem result_of_looked {p : Path} {f : Failure}
    (h : .looked p (some f) ∈ site.occurrences i s) :
    site.result (site.turn i.toErrand s) = .ok (.skipped (.busy p)) := by
  have hmatches : Matches Eq (site.turn i.toErrand s).decision.run.value
      ((i.inquiry (site.machine s)).run (site.machine s)) := i.matches_decide _
  rcases List.mem_append.mp h with h | h
  · rw [(i.isOrderly _).run_eq h] at hmatches
    generalize hvalue : (site.turn i.toErrand s).decision.run.value = r at hmatches
    cases hmatches with
    | ok heq => exact (turn_of_skip site _ (hvalue.trans (congrArg _ heq))).1
  · split at h
    · cases List.mem_singleton.mp h
    · cases h

/-- No inquest asks where partitions are. -/
theorem isFinding_of_mem {x : Happening} (h : x ∈ site.occurrences i s) : x.isFinding = false := by
  rcases List.mem_append.mp h with h | h
  · exact (i.isOrderly _).isFinding_eq h
  · split at h
    · rw [List.mem_singleton.mp h]
      rfl
    · cases h

end

/-- Every question at an inquest is one of its inquiry's. -/
theorem mem_happenings_of_asked {i : Inquest} {q : Query} {refusal? : Option Failure}
    (h : .asked q refusal? ∈ site.occurrences i s) :
    .asked q refusal? ∈ (i.inquiry (site.machine s)).happenings (site.machine s) := by
  rcases List.mem_append.mp h with h | h
  · exact h
  · split at h
    · cases List.mem_singleton.mp h
    · cases h

/-! ## What a pass reports -/

/-- Whether the subject of a turn is among those of some turns tells whether the turn is. -/
theorem subject_mem_iff {turn : Turn σ} {p : Turn σ → Bool} (hturn : turn ∈ site.turns settings s) :
    turn.subject ∈ ((site.turns settings s).filter p).map Turn.subject ↔ p turn = true := by
  constructor
  · intro h
    obtain ⟨turn', hturn', hsame⟩ := List.mem_map.mp h
    obtain ⟨hmem, hp⟩ := List.mem_filter.mp hturn'
    rwa [List.inj_on_of_nodup_map (nodup_subjects settings s) hmem hturn hsame] at hp
  · intro hp
    exact List.mem_map_of_mem (List.mem_filter.mpr ⟨hturn, hp⟩)

/-- No subject is both emitted and failed, and none is so twice. -/
theorem nodup_emitted_failed (settings : Settings) (s : σ) :
    ((site.run settings s).status.value.emitted ++
      (site.run settings s).status.value.failed).Nodup := by
  have hnodup : ((site.turns settings s).map Turn.subject).Nodup := nodup_subjects settings s
  rw [emitted_run, failed_run, List.nodup_append']
  refine ⟨hnodup.sublist (List.filter_sublist.map _), hnodup.sublist (List.filter_sublist.map _),
    ?_⟩
  intro subject hemitted hfailed
  obtain ⟨turn, hturn, rfl⟩ := List.mem_map.mp hemitted
  obtain ⟨hturn, hemission⟩ := List.mem_filter.mp hturn
  rw [subject_mem_iff hturn] at hfailed
  cases hresult : site.result turn with
  | ok outcome =>
      rw [hresult] at hfailed
      cases hfailed
  | error f =>
      rw [hresult] at hemission
      cases hemission

/-- **A subject whose turn is skipped** is neither emitted nor failed. -/
theorem not_reported_of_skipped {turn : Turn σ} {reason : SkipReason}
    (hturn : turn ∈ site.turns settings s) (h : site.result turn = .ok (.skipped reason)) :
    turn.subject ∉ (site.run settings s).status.value.emitted ∧
      turn.subject ∉ (site.run settings s).status.value.failed := by
  rw [emitted_run, failed_run, subject_mem_iff hturn, subject_mem_iff hturn, h]
  exact ⟨Bool.false_ne_true, Bool.false_ne_true⟩

/-- The turn at the root mount. -/
theorem rootInquest_mem_turns (h : settings.rootEnabled = true) :
    site.turn (rootInquest settings).toErrand s ∈ site.turns settings s := by
  unfold turns errands
  rw [play_append]
  refine List.mem_append_left _ ?_
  simp only [rootErrands, h, if_true]
  exact List.mem_cons_self

/-- **Where it is asked for partitions** is before there are any, in the name of no role. -/
theorem subject_eq_discovery_iff {x : String × Happening} (h : x ∈ site.history settings s) :
    x.1 = discoverySubject ↔ x.2.isFinding = true := by
  rcases history_cases h with ⟨hsubject, -, hmem⟩ | ⟨hsubject, m, hmem⟩ |
    ⟨rule, a, s', -, hsubject, hmem⟩
  · rw [hsubject, isFinding_of_mem hmem]
    decide
  · exact iff_of_true hsubject (isFinding_discoveryInquiry hmem)
  · rw [hsubject, isFinding_of_mem hmem]
    cases rule.role <;> decide

/-- **A subject whose mount point cannot be looked at** is neither emitted nor failed. -/
theorem not_reported_of_looked {x : String × Happening} (h : x ∈ site.history settings s) {p : Path}
    {f : Failure} (hlooked : x.2 = .looked p (some f)) :
    x.1 ∉ (site.run settings s).status.value.emitted ∧
      x.1 ∉ (site.run settings s).status.value.failed := by
  rcases history_cases h with ⟨hsubject, henabled, hmem⟩ | ⟨-, m, hmem⟩ |
    ⟨rule, a, s', hreaches, hsubject, hmem⟩
  · rw [hlooked] at hmem
    rw [hsubject]
    exact not_reported_of_skipped (rootInquest_mem_turns henabled) (result_of_looked hmem)
  · have hfinding := isFinding_discoveryInquiry hmem
    rw [hlooked] at hfinding
    cases hfinding
  · rw [hlooked] at hmem
    rw [hsubject]
    exact not_reported_of_skipped hreaches.mem_turns (result_of_looked hmem)

/-- **Whom units are named for in a pass**: the nodes of elected partitions that are to be swapped
on or are encrypted. -/
theorem reaches_of_unitName {x : String × Happening} (h : x ∈ site.history settings s)
    {node suffix : String} {refusal? : Option Failure}
    (hasked : x.2 = .asked (.unitName node suffix) refusal?) :
    ∃ rule a s', site.Reaches settings s rule a s' ∧ x.1 = rule.role.id ∧ node = a.node ∧
      (rule.role = .swap ∨ ∃ info,
        ((site.machine s').probe.filesystem (Path.ofText a.node)).run.value = .ok (.found info) ∧
          info.fsType = some luksType) := by
  rcases history_cases h with ⟨-, -, hmem⟩ | ⟨-, m, hmem⟩ | ⟨rule, a, s', hreaches, hsubject, hmem⟩
  · rw [hasked] at hmem
    exact absurd (mem_happenings_of_asked hmem) unitName_notMem_rootInquiry
  · have hfinding := isFinding_discoveryInquiry hmem
    rw [hasked] at hfinding
    cases hfinding
  · rw [hasked] at hmem
    obtain ⟨hnode, hwhy⟩ := unitName_of_mem (mem_happenings_of_asked hmem)
    exact ⟨rule, a, s', hreaches, hsubject, hnode, hwhy⟩

/-- **No error of a pass is swallowed and none is invented.**  A pass fails just if a question that
it asked was refused or a plan that it handed over was rejected.  Each such error is reported once,
in order and in the name of whom it happened to: the subject of looking for partitions, for
questions about where they are, and a role for all others.  Naming a unit can be refused only for
the node of a partition that is to be swapped on or is encrypted.

Whatever fails, there are turns for the root mount and for all partitions that were found, in the
order of the rules.  No subject is reported twice, and one whose mount point could not be looked at
is not reported at all. -/
theorem failures_reported (site : Site σ) (settings : Settings) (s : σ) :
    let status := (site.run settings s).status.value
    let history := site.history settings s
    (status.isSuccess = false ↔ ∃ x ∈ history, x.2.isError = true) ∧
      status.failed = (history.filter fun x => x.2.isError).map Prod.fst ∧
      (∀ x ∈ history, x.1 = discoverySubject ↔ x.2.isFinding = true) ∧
      (∀ x ∈ history, ∀ node suffix refusal?, x.2 = .asked (.unitName node suffix) refusal? →
        ∃ rule a s', site.Reaches settings s rule a s' ∧ x.1 = rule.role.id ∧ node = a.node ∧
          (rule.role = .swap ∨ ∃ info,
            ((site.machine s').probe.filesystem (Path.ofText a.node)).run.value =
              .ok (.found info) ∧ info.fsType = some luksType)) ∧
      (site.turns settings s).map Turn.subject =
        (if settings.rootEnabled then [Role.root.id] else []) ++
          (match site.winners settings s with
          | .ok elected => elected.map fun x => x.1.role.id
          | .error _ => [discoverySubject]) ∧
      (∀ elected, site.winners settings s = .ok elected →
        (elected.map Prod.fst).Sublist rules) ∧
      (status.emitted ++ status.failed).Nodup ∧
      ∀ x ∈ history, ∀ p f, x.2 = .looked p (some f) →
        x.1 ∉ status.emitted ∧ x.1 ∉ status.failed := by
  intro status history
  have hfailed : status.failed = (history.filter fun x => x.2.isError).map Prod.fst :=
    failed_eq_history settings s
  refine ⟨?_, hfailed, fun x hx => subject_eq_discovery_iff hx,
    fun x hx node suffix refusal? hasked => reaches_of_unitName hx hasked,
    subjects_turns settings s, fun elected h => (winners_sublist h).1,
    nodup_emitted_failed settings s, fun x hx p f hlooked => not_reported_of_looked hx hlooked⟩
  rw [Status.isSuccess, hfailed]
  simp

end PartitionUnits
