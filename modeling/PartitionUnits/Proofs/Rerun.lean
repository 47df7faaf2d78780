import PartitionUnits.Proofs.TreePass

/-!
# Running a pass again

A second pass over what a first one has left changes nothing.  What the first one has made is in
the way, and what it could not make finds no more room than before.

## Main Definitions

* `Plan.IsOf.resubmit` — a plan that was submitted once fails and leaves no trace afterwards
* `rerun_turns` — what the turns of a second pass come to
* `rerun_leaves_everything` — the second pass as a whole

## Design Notes

Room only goes: the places of a plan that are vacant in the end were vacant when the plan had its
first turn.  So a plan that can be applied in the end could be applied then, and its first file
would be in the way.  Nor can a directory be stranded in the end: it would have been stranded
before, and a directory that is there is not stranded again.
-/

namespace PartitionUnits

open PartitionUnits.Tree Site

variable {m : Machine} {d d' : Destination} {settings : Settings} {t t₀ u v : Tree} {l : Location}
  {n : Name} {role : Role} {plan : Plan} {e : Errand} {es : List Errand} {xs : List Part}
  {rendered : List Destination.Rendered} {x : Part}

/-! ## One plan -/

/-- What is vacant in the end was vacant before. -/
theorem Grown.roomier (h : Grown d l t₀ t) (h' : Grown d' l t₀ u) (hsame : d.Resembles d' t₀)
    (hle : t ≤ u) : Roomier d' d l xs u t where
  vacant := fun x _ hvacant => entry?_eq_none_of_le hle hvacant
  opens := fun x _ n _ hopen e hentry => hopen e (entry?_of_le hle hentry)
  draws := by
    intro x _ hdraw
    rw [hsame.path_eq] at hdraw
    exact (hsame.hasDraw_iff h.shares h'.shares _).mpr hdraw

/-- A part that leaves a temporary file in a new directory could not have its name anywhere. -/
theorem Part.Strays.not_fits {before : List Part} (h : x.Strays d l (layAll l before t))
    (hl : d.LiesAt (layAll l before t) l) (hbefore : ∀ y ∈ before, y.IsRegular)
    (hnone : ∀ y ∈ before, y.directory? = none) (hn : x.directory? = some n)
    (hvacant : t.entry? (l ++ [n]) = none) :
    ¬ ((x.path d).fault? = none ∧ IsPlainName x.name) := by
  rintro ⟨hfault, hplain⟩
  have hhome : Tree.entry? (layAll l before t) (l ++ [n]) = none := by
    cases hentry : Tree.entry? (layAll l before t) (l ++ [n]) with
    | none => rfl
    | some e =>
        have hdirectory := (h.opens n hn).2.2 e hentry
        cases e with
        | directory mode =>
            rw [entry?_layAll_directory hbefore hnone hentry] at hvacant
            cases hvacant
        | file mode content => cases hdirectory
        | link target => cases hdirectory
  refine h.stuck ⟨hfault, hplain, ?_⟩
  rw [Part.home, hn, Option.toList_some]
  exact hl.wellFormed.vacant_below hhome _

/-- A directory that is stranded in the end was stranded before. -/
theorem Strands.of_grown (h : Strands xs d' l n u) (hd : Grown d l t₀ t) (hd' : Grown d' l t₀ u)
    (hsame : d.Resembles d' t₀) (hle : t ≤ u) (hxs : ∀ x ∈ xs, x.IsRegular)
    (hfiles : FilesFirst xs) : Strands xs d l n t := by
  obtain @⟨before, x, hfirst, hstrays, hn, hvacant⟩ := h
  obtain ⟨after, hsplit⟩ := hfirst.split
  obtain ⟨content, hbody⟩ := hstrays.file
  have hmem : ∀ y ∈ before, y ∈ xs := fun y hy => hsplit ▸ List.mem_append_left _ hy
  have hx : x ∈ xs := hsplit ▸ List.mem_append_right _ List.mem_cons_self
  have hnone := hfiles before x after content hsplit hbody
  have hregular : ∀ y ∈ before, y.IsRegular := fun y hy => hxs y (hmem y hy)
  have hroomier : Roomier d' d l xs u t := hd.roomier hd' hsame hle
  have hdirectory := hsame.symm.directory
  obtain ⟨hfit, hlaid⟩ := hroomier.fitAll hdirectory hd'.lies hd.lies
    (fun y hy => ⟨hmem y hy, hregular y hy⟩) hfirst.fit
  have hname := hstrays.not_fits (hd'.lies.of_fitAll hregular hfirst.fit) hregular hnone hn hvacant
  rw [hsame.path_eq] at hname
  have hmisfit : FirstMisfit xs d l t before x :=
    ⟨⟨after, hsplit⟩, hfit, fun hfits => hname ⟨hfits.fits.fault, hfits.fits.plain⟩⟩
  have hstrays' : x.Strays d l (layAll l before t) :=
    ⟨⟨content, hbody⟩, hlaid.opens_of hdirectory hx hstrays.opens,
      hlaid.ready_of hdirectory hx hstrays.ready, fun hfits => hname ⟨hfits.fault, hfits.plain⟩⟩
  exact .intro hmisfit hstrays' hn (entry?_eq_none_of_le hle hvacant)

/-- A role's plan has a part. -/
theorem Plan.IsOf.parts_ne_nil (hplan : plan.IsOf role) (hdecided : d.Decided plan.units rendered) :
    parts rendered plan.dropIns ≠ [] := by
  intro hnil
  have hunits : rendered = [] := by
    have happend := (List.append_eq_nil_iff.mp (List.append_eq_nil_iff.mp hnil).1).1
    exact List.map_eq_nil_iff.mp happend
  have hmap := hdecided.map_unit
  rw [hunits] at hmap
  exact hplan.units_ne_nil hmap.symm

/-- **A plan that was submitted once fails afterwards, and leaves no trace.** -/
theorem Plan.IsOf.resubmit (hplan : plan.IsOf role) (hd : Grown d l t₀ t) (hd' : Grown d' l t₀ u)
    (hsame : d.Resembles d' t₀) (hle : ((d.submit plan).run t).2 ≤ u) :
    (∃ failure, ((d'.submit plan).run u).1.value = .error failure) ∧
      ((d'.submit plan).run u).2 = u := by
  cases hrender : (d.render plan.units).run.value with
  | error failure =>
      obtain ⟨hvalue, htree⟩ := submit_of_undecided (d := d') (t := u)
        ((congrArg (fun a => a.run.value) (hsame.render_eq plan.units)).trans hrender)
      exact ⟨⟨failure, hvalue⟩, htree⟩
  | ok rendered =>
      have hdecided := render_eq_ok_iff.mp hrender
      have hfirst := hplan.submit_verdict hdecided hd.lies
      have hsecond := hplan.submit_verdict (hsame.decided hdecided) hd'.lies
      have hregular : ∀ x ∈ parts rendered plan.dropIns, x.IsRegular :=
        fun x hx => (hplan.parts_isOf hdecided hx).regular
      have hbefore : t ≤ u := le_trans (hplan.grown hd.lies).le hle
      generalize ((d.submit plan).run t).1.value = result at hfirst
      generalize ((d.submit plan).run t).2 = v at hfirst hle
      generalize ((d'.submit plan).run u).1.value = result' at hsecond ⊢
      generalize ((d'.submit plan).run u).2 = v' at hsecond ⊢
      cases hsecond with
      | undone => exact ⟨⟨_, rfl⟩, rfl⟩
      | laid hfit =>
          exfalso
          obtain ⟨hfit', -⟩ := (hd.roomier hd' hsame hbefore).fitAll hsame.symm.directory hd'.lies
            hd.lies (fun x hx => ⟨hx, hregular x hx⟩) hfit
          cases hfirst with
          | laid =>
              -- The first part is there, and so it cannot be made.
              obtain ⟨x, rest, hcons⟩ := List.exists_cons_of_ne_nil (hplan.parts_ne_nil hdecided)
              rw [hcons] at hfit hfit' hle
              have hthere := hfit'.entry?_layAll List.mem_cons_self
              exact ne_of_vacant (entry?_of_le hle hthere) hfit.1.fits.vacant rfl
          | undone hnot => exact hnot hfit'
          | stranded hstrands => exact hstrands.not_fitAll hfit'
      | stranded hstrands =>
          exfalso
          have hstrands' := hstrands.of_grown hd hd' hsame hbefore hregular hplan.filesFirst
          cases hfirst with
          | laid hfit => exact hstrands'.not_fitAll hfit
          | undone _ hno => exact hno _ hstrands'
          | stranded hstrands'' hleft =>
              -- The directory is there, and so it is not made again.
              obtain ⟨hmisfit, -, hn, -⟩ := hstrands''
              obtain ⟨-, hn', -⟩ := hstrands'.of_firstMisfit hmisfit
              rw [hn] at hn'
              cases hn'
              obtain ⟨mode, hmode⟩ :=
                isDirectoryAt_iff.mp (isDirectoryAt_of_le hle hleft.isDirectoryAt)
              obtain ⟨-, -, -, hvacant⟩ := hstrands
              rw [hmode] at hvacant
              cases hvacant

/-! ## Turns -/

/-- Whether a result is recorded, as emitted or as failed. -/
def isRecorded (r : Except Failure Outcome) : Bool := isEmission r || isRecordedFailure r

theorem isEmission_and_isRecorded (r : Except Failure Outcome) :
    (isEmission r && isRecorded r) = isEmission r := by
  unfold isRecorded
  cases isEmission r <;> rfl

theorem isRecordedFailure_and_isRecorded (r : Except Failure Outcome) :
    (isRecordedFailure r && isRecorded r) = isRecordedFailure r := by
  unfold isRecorded
  cases isEmission r <;> cases isRecordedFailure r <;> rfl

/-- **A turn of the second pass** fails if that of the first one was recorded, and leaves no
trace. -/
theorem rerun_turn (he : e.IsSound m) (hd : Grown d l t₀ t) (hd' : Grown d' l t₀ u)
    (hsame : d.Resembles d' t₀) (hle : (applying m d).after ((applying m d).turn e t) ≤ u) :
    (applying m d').after ((applying m d').turn e u) = u ∧
      isEmission ((applying m d').result ((applying m d').turn e u)) = false ∧
      isRecordedFailure ((applying m d').result ((applying m d').turn e u)) =
        isRecorded ((applying m d).result ((applying m d).turn e t)) := by
  cases hvalue : (e.decide m).run.value with
  | error failure =>
      obtain ⟨hresult, -⟩ := turn_of_error (applying m d) ((applying m d).turn e t) hvalue
      obtain ⟨hresult', hafter⟩ := turn_of_error (applying m d') ((applying m d').turn e u) hvalue
      rw [hresult, hresult', hafter]
      exact ⟨rfl, rfl, rfl⟩
  | ok decision =>
      cases decision with
      | skip reason =>
          obtain ⟨hresult, -⟩ := turn_of_skip (applying m d) ((applying m d).turn e t) hvalue
          obtain ⟨hresult', hafter⟩ :=
            turn_of_skip (applying m d') ((applying m d').turn e u) hvalue
          rw [hresult, hresult', hafter]
          exact ⟨rfl, rfl, rfl⟩
      | emit plan =>
          obtain ⟨role, -, hplan⟩ := he plan hvalue
          obtain ⟨hresult, hafter⟩ := after_applying_of_emit (d := d) (t := t) hvalue
          obtain ⟨hresult', hafter'⟩ := after_applying_of_emit (d := d') (t := u) hvalue
          rw [hafter] at hle
          obtain ⟨⟨failure, hfails⟩, htree⟩ := hplan.resubmit hd hd' hsame hle
          rw [hresult, hresult', hafter', hfails]
          refine ⟨htree, rfl, ?_⟩
          cases ((d.submit plan).run t).1.value with
          | ok _ => rfl
          | error failure' => rfl

/-- **The turns of the second pass**: nothing is emitted, what was recorded before fails, and the
files stay as they are. -/
theorem rerun_turns (hes : ∀ e ∈ es, e.IsSound m) (hd : Grown d l t₀ t) (hd' : Grown d' l t₀ u)
    (hsame : d.Resembles d' t₀) (hle : (applying m d).afterAll es t ≤ u) :
    (applying m d').afterAll es u = u ∧
      ((applying m d').play es u).filter (isEmission <| (applying m d').result ·) = [] ∧
      (((applying m d').play es u).filter
          (isRecordedFailure <| (applying m d').result ·)).map Turn.subject =
        (((applying m d).play es t).filter
          (isRecorded <| (applying m d).result ·)).map Turn.subject := by
  induction es generalizing t with
  | nil => exact ⟨rfl, rfl, rfl⟩
  | cons e rest ih =>
      have he := hes e List.mem_cons_self
      have hrest := fun e' he' => hes e' (List.mem_cons_of_mem _ he')
      have hafter := hd.trans (.after hd.lies he)
      have hend := Grown.afterAll (m := m) hafter.lies hrest
      obtain ⟨hsame', hemitted, hfailed⟩ := rerun_turn he hd hd' hsame (le_trans hend.le hle)
      obtain ⟨htree, hemissions, hfailures⟩ := ih hrest hafter hle
      simp only [afterAll, play, hsame']
      refine ⟨htree, ?_, ?_⟩
      · rw [List.filter_cons_of_neg (by rw [hemitted]; exact Bool.false_ne_true), hemissions]
      · rw [List.filter_cons, List.filter_cons, hfailed]
        split
        · rw [List.map_cons, List.map_cons, hfailures]
          rfl
        · exact hfailures

/-! ## The whole pass -/

/-- **Running a pass again is safe.**  If a pass applies its plans in an empty directory and a
second pass, given the same answers, goes on from there, then the second one emits nothing, records
as failed what the first one has recorded as emitted or as failed, in the same order, and leaves
the files as they are. -/
theorem rerun_leaves_everything (settings : Settings) (hwf : t.WellFormed)
    (hleads : t.LeadsTo d.directory l) (hempty : t.names l = []) (hsame : d.Resembles d' t) :
    let site := applying m d
    let recorded := (site.turns settings t).filter (isRecorded <| site.result ·)
    let first := site.run settings t
    let second := (applying m d').run settings first.state
    first.status.value.emitted =
        (recorded.filter (isEmission <| site.result ·)).map Turn.subject ∧
      first.status.value.failed =
        (recorded.filter (isRecordedFailure <| site.result ·)).map Turn.subject ∧
      second.status.value.emitted = [] ∧
      second.status.value.failed = recorded.map Turn.subject ∧
      second.state = first.state := by
  intro site recorded first second
  have hl : d.LiesAt t l := .of_empty hwf hleads hempty
  have hstart : Grown d l t t := .refl hl
  have hes : ∀ e ∈ site.errands settings t, e.IsSound m := fun e he => isSound_errands he
  have hend : first.state = site.afterAll (site.errands settings t) t := state_run settings t
  have hgrown : Grown d l t first.state := hend ▸ Grown.afterAll hl hes
  have hagain : Grown d' l t first.state := ⟨hsame.liesAt hgrown.lies, hgrown.le, hgrown.shares⟩
  obtain ⟨htree, hemissions, hfailures⟩ :=
    rerun_turns hes hstart hagain hsame (le_of_eq hend.symm)
  refine ⟨?_, ?_, ?_, ?_, (state_run settings first.state).trans htree⟩
  · rw [emitted_run, List.filter_filter]
    exact congrArg _ (List.filter_congr fun turn _ => (isEmission_and_isRecorded _).symm)
  · rw [failed_run, List.filter_filter]
    exact congrArg _ (List.filter_congr fun turn _ => (isRecordedFailure_and_isRecorded _).symm)
  · exact (emitted_run settings first.state).trans (congrArg _ hemissions)
  · exact (failed_run settings first.state).trans hfailures

/-- A pass that mounts two data partitions fails for both if it is run again. -/
theorem dataMachine_rerun :
    let site := applying (dataMachine (.found { fsType := some "ext4" })) bareDestination
    (site.run {} bareTree).status.value.emitted = ["home", "srv"] ∧
      (site.run {} (site.run {} bareTree).state).status.value.failed = ["home", "srv"] ∧
      (site.run {} (site.run {} bareTree).state).state = (site.run {} bareTree).state := by
  intro site
  have hstatus : (site.run {} bareTree).status.value.emitted = ["home", "srv"] := by
    decide +kernel
  have hrecorded : ((site.turns {} bareTree).filter
      (isRecorded <| site.result ·)).map Turn.subject = ["home", "srv"] := by
    decide +kernel
  obtain ⟨-, -, -, hfailed, hstate⟩ := rerun_leaves_everything
    (m := dataMachine (.found { fsType := some "ext4" })) {} bareTree_wellFormed
    bareTree_leadsTo bareTree_names (.refl bareDestination bareTree)
  exact ⟨hstatus, hfailed.trans hrecorded, hstate⟩

end PartitionUnits
