import PartitionUnits.Proofs.TreePass

/-!
# Roles do not interfere

What is found on the partition of one role changes nothing for the other roles: neither whether
they are set up, nor what is written for them.

## Main Definitions

* `AlikeBut` — two trees that differ in nothing but what is one role's and in empty directories
* `AlikeBut.roomier` — such trees have the same room for the plans of other roles
* `Machine.DiffersAt` — two machines that answer differently about one device only
* `SameOutcome` — two results that mean the same
* `roles_do_not_interfere` — two passes over such machines

## Design Notes

Roles share directories: one role may make the directory that another one uses, and take it away
again if its plan fails.  So the trees of two passes may differ in directories, and `AlikeBut` says
no more about those than that nothing but a directory is there.  That is all that a part asks of its
directory, and what is in it is compared by itself.
-/

namespace PartitionUnits

open PartitionUnits.Tree Site

variable {m m' : Machine} {d d' : Destination} {settings : Settings} {t t' t₀ u v w : Tree}
  {l l' place : Location} {n : Name} {p : Path} {role other : Role} {plan : Plan} {e : Errand}
  {es : List Errand} {xs : List Part} {x : Part} {rendered : List Destination.Rendered}

/-! ## Trees that are alike but for one role -/

/-- Two trees are alike at a location, unless it is one role's. -/
inductive AlikeAt (role : Role) (l : Location) (t t' : Tree) (l' : Location) : Prop where
  | same (h : t.entry? l' = t'.entry? l')
  | owned {place : Location} (hl : l' = l ++ place) (h : role.Owns place)
  | opened {n : Name} (hl : l' = l ++ [n]) (hn : IsDirectoryName n) (h : t.IsOpen l')
      (h' : t'.IsOpen l')

/-- **Two trees are alike but for one role**: they differ in nothing but what is at the places of
the role, and in whether there are directories where directories may be. -/
def AlikeBut (role : Role) (l : Location) (t t' : Tree) : Prop := ∀ l', AlikeAt role l t t' l'

namespace AlikeBut

theorem refl (t : Tree) : AlikeBut role l t t := fun _ => .same rfl

theorem symm (h : AlikeBut role l t t') : AlikeBut role l t' t := by
  intro l'
  cases h l' with
  | same h => exact .same h.symm
  | owned hl h => exact .owned hl h
  | opened hl hn h h' => exact .opened hl hn h' h

theorem trans (h : AlikeBut role l t u) (h' : AlikeBut role l u v) : AlikeBut role l t v := by
  intro l'
  cases h l' with
  | owned hl h => exact .owned hl h
  | same hsame =>
      cases h' l' with
      | same hsame' => exact .same (hsame.trans hsame')
      | owned hl h => exact .owned hl h
      | opened hl hn hu hv => exact .opened hl hn (fun e he => hu e (hsame ▸ he)) hv
  | opened hl hn ht hu =>
      cases h' l' with
      | same hsame' => exact .opened hl hn ht fun e he => hu e (hsame'.trans he)
      | owned hl h => exact .owned hl h
      | opened _ _ _ hv => exact .opened hl hn ht hv

/-- What is another role's is the same. -/
theorem entry?_eq (h : AlikeBut role l t t') (hother : other ≠ role) (howns : other.Owns place) :
    t.entry? (l ++ place) = t'.entry? (l ++ place) := by
  cases h (l ++ place) with
  | same h => exact h
  | owned hl howns' =>
      rw [List.append_cancel_left hl] at howns
      exact absurd (howns.unique howns') hother
  | opened hl hn =>
      rw [List.append_cancel_left hl] at howns
      exact absurd hn howns.not_directory

/-- Where directories may be, one can be made or used in both or in none. -/
theorem isOpen (h : AlikeBut role l t t') (hn : IsDirectoryName n) (hopen : t.IsOpen (l ++ [n])) :
    t'.IsOpen (l ++ [n]) := by
  cases h (l ++ [n]) with
  | same h => exact fun e he => hopen e (h.trans he)
  | owned hl howns =>
      rw [← List.append_cancel_left hl] at howns
      exact absurd hn howns.not_directory
  | opened _ _ _ h' => exact h'

/-- **Trees that are alike but for one role have the same room for the others.** -/
theorem roomier (h : AlikeBut role l t t') (hother : other ≠ role)
    (hxs : ∀ x ∈ xs, x.IsOf other) (hsame : d.Resembles d' t₀) (hd : Grown d l t₀ t)
    (hd' : Grown d' l t₀ t') : Roomier d d' l xs t t' where
  vacant := by
    intro x hx hvacant
    rw [x.place_eq] at hvacant ⊢
    rwa [← h.entry?_eq hother (hxs x hx).owned]
  opens := fun x hx n hn hopen => h.isOpen ((hxs x hx).directory n hn) hopen
  draws := by
    intro x hx hdraw
    rw [hsame.path_eq]
    exact (hsame.hasDraw_iff hd.shares hd'.shares _).mp hdraw

/-- **A part that is made in both trees keeps them alike.** -/
theorem lay_both (h : AlikeBut role l t t') (hx : x.IsOf other) (hfits : x.Fits d l t)
    (hfits' : x.Fits d' l t') (hl : t.isDirectoryAt l = true) (hl' : t'.isDirectoryAt l = true) :
    AlikeBut role l (x.lay l t) (x.lay l t') := by
  intro l'
  by_cases hplace : l' = x.place l
  · rw [hplace]
    exact .same (Part.entry?_lay_self.trans Part.entry?_lay_self.symm)
  by_cases hhome : l' ≠ x.home l ∨ x.directory? = none
  · have hnew := Part.entry?_lay_of_ne (t := t) hplace hhome
    have hnew' := Part.entry?_lay_of_ne (t := t') hplace hhome
    cases h l' with
    | same h => exact .same (hnew.trans (h.trans hnew'.symm))
    | owned hl h => exact .owned hl h
    | opened hl hn hopen hopen' =>
        exact .opened hl hn (fun e he => hopen e (hnew ▸ he)) fun e he => hopen' e (hnew' ▸ he)
  · -- The directory of the part is in both trees.
    obtain ⟨hhome, hsome⟩ := not_or.mp hhome
    obtain ⟨n, hn⟩ := Option.ne_none_iff_exists'.mp hsome
    have hhome : l' = x.home l := not_not.mp hhome
    have hat : l' = l ++ [n] := by rw [hhome, Part.home, hn, Option.toList_some]
    have hopen := isOpen_of_isDirectoryAt (hfits.isDirectoryAt_lay hl)
    have hopen' := isOpen_of_isDirectoryAt (hfits'.isDirectoryAt_lay hl')
    exact .opened hat (hx.directory n hn) (hhome ▸ hopen) (hhome ▸ hopen')

/-- **A part of the role keeps a tree alike.** -/
theorem lay (hx : x.IsOf role) (hfits : x.Fits d l t) (hl : t.isDirectoryAt l = true) :
    AlikeBut role l t (x.lay l t) := by
  intro l'
  by_cases hplace : l' = x.place l
  · exact .owned (hplace.trans (x.place_eq l)) hx.owned
  by_cases hhome : l' ≠ x.home l ∨ x.directory? = none
  · exact .same (Part.entry?_lay_of_ne hplace hhome).symm
  · obtain ⟨hhome, hsome⟩ := not_or.mp hhome
    obtain ⟨n, hn⟩ := Option.ne_none_iff_exists'.mp hsome
    have hhome : l' = x.home l := not_not.mp hhome
    have hat : l' = l ++ [n] := by rw [hhome, Part.home, hn, Option.toList_some]
    have hopen := isOpen_of_isDirectoryAt (hfits.isDirectoryAt_lay hl)
    exact .opened hat (hx.directory n hn) (hat ▸ (hfits.opens n hn).2.2) (hhome ▸ hopen)

theorem layAll_both (h : AlikeBut role l t t') (hxs : ∀ x ∈ xs, x.IsOf other)
    (hd : d.LiesAt t l) (hd' : d'.LiesAt t' l) (hfit : FitAll d l xs t)
    (hfit' : FitAll d' l xs t') :
    AlikeBut role l (layAll l xs t) (layAll l xs t') := by
  induction xs generalizing t t' with
  | nil => exact h
  | cons x rest ih =>
      have hx := hxs x List.mem_cons_self
      exact ih (h.lay_both hx hfit.1 hfit'.1 hd.leads.isDirectoryAt hd'.leads.isDirectoryAt)
        (fun y hy => hxs y (List.mem_cons_of_mem _ hy)) (hd.of_fits hx.regular hfit.1)
        (hd'.of_fits hx.regular hfit'.1) hfit.2 hfit'.2

theorem layAll (hxs : ∀ x ∈ xs, x.IsOf role) (hd : d.LiesAt t l) (hfit : FitAll d l xs t) :
    AlikeBut role l t (layAll l xs t) := by
  induction xs generalizing t with
  | nil => exact refl t
  | cons x rest ih =>
      have hx := hxs x List.mem_cons_self
      exact (lay hx hfit.1 hd.leads.isDirectoryAt).trans
        (ih (fun y hy => hxs y (List.mem_cons_of_mem _ hy)) (hd.of_fits hx.regular hfit.1) hfit.2)

/-- A directory that is stranded keeps a tree alike, whoever's it is. -/
theorem stranded (hn : IsDirectoryName n) (hvacant : t.entry? (l ++ [n]) = none)
    (h : Stranded l n t w) : AlikeBut role l t w := by
  intro l'
  by_cases hat : l' = l ++ [n]
  · refine .opened hat hn (fun e he => ?_) (hat ▸ isOpen_of_isDirectoryAt h.isDirectoryAt)
    rw [hat, hvacant] at he
    cases he
  · refine .same ?_
    cases hentry : w.entry? l' with
    | none => exact entry?_eq_none_of_le h.le hentry
    | some e => exact (h.rest l' e hentry).resolve_right hat

end AlikeBut

/-! ## Submissions -/

/-- Two results that mean the same: the same outcome, or failures that are both recorded or both
not. -/
def SameOutcome (r r' : Except Failure Outcome) : Prop :=
  r.toOption = r'.toOption ∧ isRecordedFailure r = isRecordedFailure r'

theorem SameOutcome.refl (r : Except Failure Outcome) : SameOutcome r r := ⟨rfl, rfl⟩

theorem SameOutcome.isEmission_eq {r r' : Except Failure Outcome} (h : SameOutcome r r') :
    isEmission r = isEmission r' := by
  have hoption := h.1
  cases r with
  | ok outcome =>
      cases r' with
      | ok outcome' => rw [Option.some.inj hoption]
      | error => cases hoption
  | error =>
      cases r' with
      | ok => cases hoption
      | error => rfl

/-- The results of two submissions mean the same if one succeeds just when the other does. -/
theorem SameOutcome.of_submit {plan : Plan}
    (h : ((d.submit plan).run t).1.value = .ok () ↔ ((d'.submit plan).run t').1.value = .ok ()) :
    SameOutcome (((d.submit plan).run t).1.value.map fun _ => .emitted)
      (((d'.submit plan).run t').1.value.map fun _ => .emitted) := by
  cases hvalue : ((d.submit plan).run t).1.value with
  | ok _ =>
      rw [h.mp hvalue]
      exact .refl _
  | error failure =>
      cases hvalue' : ((d'.submit plan).run t').1.value with
      | ok _ =>
          rw [h.mpr hvalue'] at hvalue
          cases hvalue
      | error failure' => exact ⟨rfl, rfl⟩

/-- A directory that a plan strands keeps a tree alike, whoever's plan it is. -/
theorem Plan.IsOf.stranded_alike (hplan : plan.IsOf other)
    (hdecided : d.Decided plan.units rendered)
    (h : Strands (parts rendered plan.dropIns) d l n t) (hleft : Stranded l n t w) :
    AlikeBut role l t w := by
  obtain ⟨x, hx, hn⟩ := h.exists_part
  obtain ⟨-, -, -, hvacant⟩ := h
  exact .stranded ((hplan.parts_isOf hdecided hx).directory n hn) hvacant hleft

/-- **A plan of the role keeps a tree alike.** -/
theorem Plan.IsOf.submit_alike (hplan : plan.IsOf role) (hl : d.LiesAt t l) :
    AlikeBut role l t ((d.submit plan).run t).2 := by
  cases hrender : (d.render plan.units).run.value with
  | error failure =>
      rw [(submit_of_undecided hrender).2]
      exact .refl t
  | ok rendered =>
      have hdecided := render_eq_ok_iff.mp hrender
      have hverdict := hplan.submit_verdict hdecided hl
      generalize ((d.submit plan).run t).1.value = result at hverdict
      generalize ((d.submit plan).run t).2 = w at hverdict ⊢
      cases hverdict with
      | laid hfit => exact .layAll (fun _ hx => hplan.parts_isOf hdecided hx) hl hfit
      | undone => exact .refl t
      | stranded hstrands hleft => exact hplan.stranded_alike hdecided hstrands hleft

/-- **A plan of another role fares the same in trees that are alike**, and keeps them so. -/
theorem Plan.IsOf.submit_both (hplan : plan.IsOf other) (hother : other ≠ role)
    (h : AlikeBut role l t t') (hsame : d.Resembles d' t₀) (hd : Grown d l t₀ t)
    (hd' : Grown d' l t₀ t') :
    (((d.submit plan).run t).1.value = .ok () ↔ ((d'.submit plan).run t').1.value = .ok ()) ∧
      AlikeBut role l ((d.submit plan).run t).2 ((d'.submit plan).run t').2 := by
  cases hrender : (d.render plan.units).run.value with
  | error failure =>
      obtain ⟨hvalue, htree⟩ := submit_of_undecided (t := t) hrender
      obtain ⟨hvalue', htree'⟩ := submit_of_undecided (d := d') (t := t')
        ((congrArg (fun a => a.run.value) (hsame.render_eq plan.units)).trans hrender)
      rw [hvalue, hvalue', htree, htree']
      exact ⟨Iff.rfl, h⟩
  | ok rendered =>
      have hdecided := render_eq_ok_iff.mp hrender
      have hdecided' := hsame.decided hdecided
      have hparts : ∀ x ∈ parts rendered plan.dropIns, x.IsOf other :=
        fun _ hx => hplan.parts_isOf hdecided hx
      have hregular : ∀ x ∈ parts rendered plan.dropIns,
          x ∈ parts rendered plan.dropIns ∧ x.IsRegular := fun x hx => ⟨hx, (hparts x hx).regular⟩
      -- What fits in one tree fits in the other.
      have hfits : FitAll d l (parts rendered plan.dropIns) t →
          FitAll d' l (parts rendered plan.dropIns) t' := fun hfit =>
        ((h.roomier hother hparts hsame hd hd').fitAll hsame.directory hd.lies hd'.lies hregular
          hfit).1
      have hfits' : FitAll d' l (parts rendered plan.dropIns) t' →
          FitAll d l (parts rendered plan.dropIns) t := fun hfit =>
        ((h.symm.roomier hother hparts hsame.symm hd' hd).fitAll hsame.symm.directory hd'.lies
          hd.lies hregular hfit).1
      have hverdict := hplan.submit_verdict hdecided hd.lies
      have hverdict' := hplan.submit_verdict hdecided' hd'.lies
      generalize ((d.submit plan).run t).1.value = result at hverdict ⊢
      generalize ((d.submit plan).run t).2 = w at hverdict ⊢
      generalize ((d'.submit plan).run t').1.value = result' at hverdict' ⊢
      generalize ((d'.submit plan).run t').2 = w' at hverdict' ⊢
      by_cases hfit : FitAll d l (parts rendered plan.dropIns) t
      · obtain ⟨rfl, rfl⟩ := hverdict.eq_of_fitAll hfit
        obtain ⟨rfl, rfl⟩ := hverdict'.eq_of_fitAll (hfits hfit)
        exact ⟨Iff.rfl, h.layAll_both hparts hd.lies hd'.lies hfit (hfits hfit)⟩
      · obtain ⟨⟨failure, rfl⟩, hleft⟩ := hverdict.of_not_fitAll hfit
        obtain ⟨⟨failure', rfl⟩, hleft'⟩ := hverdict'.of_not_fitAll (mt hfits' hfit)
        have halike : AlikeBut role l t w := by
          rcases hleft with rfl | ⟨n, hstrands, hleft⟩
          · exact .refl w
          · exact hplan.stranded_alike hdecided hstrands hleft
        have halike' : AlikeBut role l t' w' := by
          rcases hleft' with rfl | ⟨n, hstrands, hleft⟩
          · exact .refl w'
          · exact hplan.stranded_alike hdecided' hstrands hleft
        exact ⟨by simp, halike.symm.trans (h.trans halike')⟩

/-! ## Turns -/

/-- **Two turns agree but for one role**: they are for the same subject, and unless that is the
role, they have the same plan and come to the same. -/
def Agrees (role : Role) (site site' : Site Tree) (turn turn' : Turn Tree) : Prop :=
  turn.subject = turn'.subject ∧
    (turn.subject ≠ role.id → turn.plan? = turn'.plan? ∧
      SameOutcome (site.result turn) (site'.result turn'))

/-- The same subjects but for the role are told of turns that agree, if what is told of a turn is
told of those that agree with it. -/
theorem filter_subjects_eq {site site' : Site Tree} {turns turns' : List (Turn Tree)}
    {f f' : Turn Tree → Bool}
    (hf : ∀ turn turn', SameOutcome (site.result turn) (site'.result turn') → f turn = f' turn')
    (h : List.Forall₂ (Agrees role site site') turns turns') :
    ((turns.filter f).map Turn.subject).filter (· ≠ role.id) =
      ((turns'.filter f').map Turn.subject).filter (· ≠ role.id) := by
  induction h with
  | nil => rfl
  | @cons turn turn' rest rest' hagrees _ ih =>
      obtain ⟨hsubject, hsame⟩ := hagrees
      by_cases hid : turn.subject = role.id
      · -- What is told of the role's own turns is left out.
        have hid' : turn'.subject = role.id := hsubject.symm.trans hid
        cases hturn : f turn <;> cases hturn' : f' turn' <;>
          simpa [hturn, hturn', hid, hid'] using ih
      · have hid' : turn'.subject ≠ role.id := hsubject ▸ hid
        have hturn := hf turn turn' (hsame hid).2
        cases hturn' : f' turn' with
        | true => simpa [hturn.trans hturn', hturn', hsubject, hid'] using ih
        | false => simpa [hturn.trans hturn', hturn'] using ih

/-- Two passes under way, in trees that are alike but for one role. -/
structure Alongside (role : Role) (d d' : Destination) (l : Location) (t₀ t t' : Tree) :
    Prop where
  grown : Grown d l t₀ t
  grown' : Grown d' l t₀ t'
  alike : AlikeBut role l t t'

/-- **A turn for which the same is decided comes to the same**, and keeps a relation between the
trees, if the submission of its plan does. -/
theorem turn_both {I : Tree → Tree → Prop} (hdecide : e.decide m' = e.decide m) (h : I t t')
    (hsubmit : ∀ plan, (e.decide m).run.value = .ok (.emit plan) →
      (((d.submit plan).run t).1.value = .ok () ↔ ((d'.submit plan).run t').1.value = .ok ()) ∧
        I ((d.submit plan).run t).2 ((d'.submit plan).run t').2) :
    SameOutcome ((applying m d).result ((applying m d).turn e t))
        ((applying m' d').result ((applying m' d').turn e t')) ∧
      I ((applying m d).after ((applying m d).turn e t))
        ((applying m' d').after ((applying m' d').turn e t')) := by
  have hvalue' := congrArg (fun a => a.run.value) hdecide
  cases hvalue : (e.decide m).run.value with
  | error failure =>
      obtain ⟨hresult, hafter⟩ := turn_of_error (applying m d) ((applying m d).turn e t) hvalue
      obtain ⟨hresult', hafter'⟩ :=
        turn_of_error (applying m' d') ((applying m' d').turn e t') (hvalue'.trans hvalue)
      rw [hresult, hresult', hafter, hafter']
      exact ⟨.refl _, h⟩
  | ok decision =>
      cases decision with
      | skip reason =>
          obtain ⟨hresult, hafter⟩ := turn_of_skip (applying m d) ((applying m d).turn e t) hvalue
          obtain ⟨hresult', hafter'⟩ :=
            turn_of_skip (applying m' d') ((applying m' d').turn e t') (hvalue'.trans hvalue)
          rw [hresult, hresult', hafter, hafter']
          exact ⟨.refl _, h⟩
      | emit plan =>
          obtain ⟨hresult, hafter⟩ := after_applying_of_emit (d := d) (t := t) hvalue
          obtain ⟨hresult', hafter'⟩ :=
            after_applying_of_emit (d := d') (t := t') (hvalue'.trans hvalue)
          obtain ⟨hvalues, hrelated⟩ := hsubmit plan hvalue
          rw [hresult, hresult', hafter, hafter']
          exact ⟨.of_submit hvalues, hrelated⟩

/-- **Two turns for one errand agree but for a role**, given what a turn for the role and a plan of
another role keep. -/
theorem agrees_turn {I : Tree → Tree → Prop}
    (hdecide : e.subject ≠ role.id → e.decide m' = e.decide m) (h : I t t')
    (hself : e.subject = role.id → I ((applying m d).after ((applying m d).turn e t))
      ((applying m' d').after ((applying m' d').turn e t')))
    (hsubmit : e.subject ≠ role.id → ∀ plan, (e.decide m).run.value = .ok (.emit plan) →
      (((d.submit plan).run t).1.value = .ok () ↔ ((d'.submit plan).run t').1.value = .ok ()) ∧
        I ((d.submit plan).run t).2 ((d'.submit plan).run t').2) :
    Agrees role (applying m d) (applying m' d') ((applying m d).turn e t)
        ((applying m' d').turn e t') ∧
      I ((applying m d).after ((applying m d).turn e t))
        ((applying m' d').after ((applying m' d').turn e t')) := by
  by_cases hsubject : e.subject = role.id
  · exact ⟨⟨rfl, fun hne => absurd hsubject hne⟩, hself hsubject⟩
  · obtain ⟨houtcome, hrelated⟩ := turn_both (hdecide hsubject) h (hsubmit hsubject)
    refine ⟨⟨rfl, fun _ => ⟨?_, houtcome⟩⟩, hrelated⟩
    unfold Turn.plan?
    simp only [Site.turn, Site.applying, hdecide hsubject]

/-- **Two turns for one errand** agree but for the role, and keep the trees alike. -/
theorem Alongside.turn (h : Alongside role d d' l t₀ t t') (he : e.IsSound m) (he' : e.IsSound m')
    (hdecide : e.subject ≠ role.id → e.decide m' = e.decide m) (hsame : d.Resembles d' t₀) :
    Agrees role (applying m d) (applying m' d') ((applying m d).turn e t)
        ((applying m' d').turn e t') ∧
      Alongside role d d' l t₀ ((applying m d).after ((applying m d).turn e t))
        ((applying m' d').after ((applying m' d').turn e t')) := by
  refine agrees_turn hdecide h (fun hsubject => ?_) fun hsubject plan hvalue => ?_
  · have halike : AlikeBut role l t ((applying m d).after ((applying m d).turn e t)) := by
      refine after_applying (.refl t) fun plan hvalue => ?_
      obtain ⟨other, hid, hplan⟩ := he plan hvalue
      rw [Role.id_injective (hid.trans hsubject)] at hplan
      exact hplan.submit_alike h.grown.lies
    have halike' : AlikeBut role l t' ((applying m' d').after ((applying m' d').turn e t')) := by
      refine after_applying (.refl t') fun plan hvalue => ?_
      obtain ⟨other, hid, hplan⟩ := he' plan hvalue
      rw [Role.id_injective (hid.trans hsubject)] at hplan
      exact hplan.submit_alike h.grown'.lies
    exact ⟨h.grown.trans (.after h.grown.lies he), h.grown'.trans (.after h.grown'.lies he'),
      halike.symm.trans (h.alike.trans halike')⟩
  · obtain ⟨other, hid, hplan⟩ := he plan hvalue
    have hother : other ≠ role := by
      rintro rfl
      exact hsubject hid.symm
    obtain ⟨hvalues, halike⟩ := hplan.submit_both hother h.alike hsame h.grown h.grown'
    exact ⟨hvalues, h.grown.trans (hplan.grown h.grown.lies),
      h.grown'.trans (hplan.grown h.grown'.lies), halike⟩

/-! ## Machines -/

/-- **Two machines answer differently about one device only**, and about that only when asked for a
file system or a table entry. -/
structure Machine.DiffersAt (m m' : Machine) (p : Path) : Prop where
  devices : m'.devices = m.devices
  host : m'.host = m.host
  table : m'.probe.table = m.probe.table
  filesystem : ∀ q, q ≠ p → m'.probe.filesystem q = m.probe.filesystem q
  entry : ∀ q, q ≠ p → m'.probe.entry q = m.probe.entry q
  guids : m'.guids = m.guids

namespace Machine.DiffersAt

/-- The same is decided about a partition on another device. -/
theorem decide_eq (h : m.DiffersAt m' p) (rule : Rule) {a : Assignment}
    (hnode : Path.ofText a.node ≠ p) : rule.decide m' a = rule.decide m a := by
  unfold Rule.decide decideBoot decideData
  simp only [h.host, h.filesystem _ hnode, h.entry _ hnode, h.guids]

theorem discover_eq (h : m.DiffersAt m' p) : discover m' = discover m :=
  discover_congr h.devices h.table h.guids

/-- Both machines have the same errands. -/
theorem errands_eq (h : m.DiffersAt m' p) (settings : Settings) (t : Tree) :
    (applying m' d').errands settings t = (applying m d).errands settings t := by
  rw [errands_applying, errands_applying]
  unfold partitionErrands
  rw [h.discover_eq, h.host]

/-- **The same is decided on both machines**, but for the role of the partition on that device. -/
theorem decide_errand_eq (h : m.DiffersAt m' p) {elected : List (Rule × Assignment)} {rule : Rule}
    {a : Assignment} (hfound : (discover m).run.value = .ok elected)
    (honly : ∀ x ∈ elected, Path.ofText x.2.node = p → x = (rule, a))
    (he : e ∈ (applying m d).errands settings t) (hsubject : e.subject ≠ rule.role.id) :
    e.decide m' = e.decide m := by
  rw [errands_applying] at he
  rcases List.mem_append.mp he with he | he
  · unfold rootErrands at he
    split at he
    · rw [List.mem_singleton.mp he]
      exact congrArg (decideRoot settings) h.host
    · cases he
  · split at he
    · cases he
    · unfold partitionErrands at he
      rw [hfound] at he
      obtain ⟨x, hx, rfl⟩ := List.mem_map.mp he
      refine h.decide_eq x.1 fun hnode => hsubject ?_
      rw [honly x hx hnode]
      rfl

end Machine.DiffersAt

/-! ## Destinations that lead nowhere -/

/-- A file is not made where a path leads nowhere. -/
theorem Tree.newFile_nowhere {name : Name} {content : Octets} {draws : List Draw}
    {result : Except Aborted Unit} (hname : Path.IsName name) (hno : ∀ q, ¬ t.LeadsTo p q)
    (hrun : (newFile (p.join ⟨name⟩) content draws).run t = (result, u)) :
    ∃ aborted, result = .error aborted ∧ aborted.temporary = none ∧ u = t := by
  cases newFile_outcome hrun with
  | made hin => exact absurd (LeadsTo.of_inDirectory hin hname) (hno _)
  | refused howned => exact ⟨_, rfl, howned, rfl⟩
  | unsettled _ hstray =>
      obtain ⟨parent, hparent, hleads⟩ := LeadsTo.exists_parent? (p := p) hname
      obtain ⟨parent', hparent', hfile⟩ := hstray.parent
      rw [hparent] at hparent'
      cases hparent'
      have hin := hstray.inDirectory
      rw [hfile] at hin
      exact absurd ((hleads t _).mp (LeadsTo.of_inDirectory hin (Draw.isName _))) (hno _)

/-- **Nothing is applied where the destination leads nowhere.** -/
theorem Plan.IsOf.submit_nowhere (hplan : plan.IsOf role) (hwf : t.WellFormed)
    (hno : ∀ q, ¬ t.LeadsTo d.directory q) :
    (∃ failure, ((d.submit plan).run t).1.value = .error failure) ∧
      ((d.submit plan).run t).2 = t := by
  cases hrender : (d.render plan.units).run.value with
  | error failure =>
      obtain ⟨hvalue, htree⟩ := submit_of_undecided (t := t) hrender
      exact ⟨⟨failure, hvalue⟩, htree⟩
  | ok rendered =>
      have hdecided := render_eq_ok_iff.mp hrender
      cases rendered with
      | nil => exact absurd hdecided.map_unit.symm hplan.units_ne_nil
      | cons r rest =>
          -- The file of the first unit is not made.
          have hname := hplan.isOrdinaryName hdecided List.mem_cons_self
          generalize hrun : (newFile (d.directory.join (Path.ofText r.unit.name))
            (Text.encode (r.unit.text r.check).toList)
            (d.draws (d.directory.join (Path.ofText r.unit.name)))).run t = ended
          obtain ⟨result, u⟩ := ended
          obtain ⟨aborted, rfl, howned, rfl⟩ := newFile_nowhere hname.isName hno hrun
          obtain ⟨aborted', hperform, howned'⟩ := Part.run_makeFile_of_error hrun
          have hstops : Stops u (d.actions (r :: rest) plan.dropIns) [] u aborted' u :=
            (Stops.of_perform hperform).append _
          obtain ⟨hvalue, htree⟩ := submit_of_stops hrender hstops
          rw [hstops.undone_of_none hwf (howned'.trans howned)] at htree
          exact ⟨⟨_, hvalue⟩, htree⟩

/-- **Two turns for one errand** where the destination leads nowhere: they agree but for the role,
and nothing changes. -/
theorem turn_nowhere (he : e.IsSound m) (he' : e.IsSound m')
    (hdecide : e.subject ≠ role.id → e.decide m' = e.decide m) (hwf : t.WellFormed)
    (hno : ∀ q, ¬ t.LeadsTo d.directory q) (hno' : ∀ q, ¬ t.LeadsTo d'.directory q) :
    Agrees role (applying m d) (applying m' d') ((applying m d).turn e t)
        ((applying m' d').turn e t) ∧
      (applying m d).after ((applying m d).turn e t) = t ∧
      (applying m' d').after ((applying m' d').turn e t) = t := by
  refine agrees_turn (I := fun u u' => u = t ∧ u' = t) hdecide ⟨rfl, rfl⟩ (fun _ => ?_)
    fun _ plan hvalue => ?_
  · constructor
    · refine after_applying (P := (· = t)) rfl fun plan hvalue => ?_
      obtain ⟨_, -, hplan⟩ := he plan hvalue
      exact (hplan.submit_nowhere hwf hno).2
    · refine after_applying (P := (· = t)) rfl fun plan hvalue => ?_
      obtain ⟨_, -, hplan⟩ := he' plan hvalue
      exact (hplan.submit_nowhere hwf hno').2
  · obtain ⟨_, -, hplan⟩ := he plan hvalue
    obtain ⟨⟨_, hfails⟩, htree⟩ := hplan.submit_nowhere hwf hno
    obtain ⟨⟨_, hfails'⟩, htree'⟩ := hplan.submit_nowhere (d := d') hwf hno'
    rw [hfails, hfails']
    exact ⟨by simp, htree, htree'⟩

/-- Turns for errands agree there too, and nothing changes. -/
theorem turns_nowhere (hes : ∀ e ∈ es, e.IsSound m) (hes' : ∀ e ∈ es, e.IsSound m')
    (hdecide : ∀ e ∈ es, e.subject ≠ role.id → e.decide m' = e.decide m) (hwf : t.WellFormed)
    (hno : ∀ q, ¬ t.LeadsTo d.directory q) (hno' : ∀ q, ¬ t.LeadsTo d'.directory q) :
    List.Forall₂ (Agrees role (applying m d) (applying m' d')) ((applying m d).play es t)
        ((applying m' d').play es t) ∧
      (applying m d).afterAll es t = t ∧ (applying m' d').afterAll es t = t := by
  refine forall₂_play (I := fun u u' => u = t ∧ u' = t) (fun e he u u' hstay => ?_) ⟨rfl, rfl⟩
  obtain ⟨rfl, rfl⟩ := hstay
  exact turn_nowhere (hes e he) (hes' e he) (hdecide e he) hwf hno hno'

/-! ## Whole passes -/

/-- A path of a part leads to the entry at its place. -/
theorem Part.find_path_iff {entry : Entry} (hl : d.LiesAt t l) (hx : x.IsRegular) :
    t.find false (x.path d) = .ok entry ↔
      (x.path d).fault? = none ∧ IsPlainName x.name ∧
        (∀ n, x.directory? = some n → IsPlainName n) ∧ t.entry? (x.place l) = some entry := by
  cases hn : x.directory? with
  | none =>
      have hleads : t.LeadsTo (x.homePath d) (x.home l) := by
        simp only [homePath, home, hn, Option.toList_none, List.append_nil]
        exact hl.leads
      have hfind : t.find false (x.path d) = .ok entry ↔ (x.path d).fault? = none ∧
          IsPlainName x.name ∧ t.entry? (x.place l) = some entry :=
        hleads.find_iff hx.name.isName hx.name.ne_dots
      simpa using hfind
  | some n =>
      have hname := hx.directory n hn
      have hhome : x.home l = l ++ [n] := by rw [home, hn, Option.toList_some]
      have hpath : x.homePath d = d.directory.join ⟨n⟩ := by simp only [homePath, hn]
      constructor
      · intro hfound
        -- What is found is in a directory of the destination.
        obtain ⟨-, q, -, -, hq, -⟩ := LeadsTo.exists_of_find hx.name.isName hfound
        rw [hpath] at hq
        obtain ⟨hq', hplain⟩ := hl.leads.eq_of_join hname.isName hname.ne_dots (hl.noLink n) hq
        rw [← hpath, hq', ← hhome] at hq
        obtain ⟨hfault, hplain', hentry⟩ := (hq.find_iff hx.name.isName hx.name.ne_dots).mp hfound
        refine ⟨hfault, hplain', fun n' hn' => ?_, hentry⟩
        cases hn'
        exact hplain
      · rintro ⟨hfault, hplain, hplain', hentry⟩
        obtain ⟨mode, hmode⟩ := isDirectoryAt_iff.mp (hl.wellFormed.parent hentry)
        rw [hhome] at hmode
        have hleads := hl.leads.join hname.isName (hplain' n rfl) hmode
        rw [← hpath, ← hhome] at hleads
        exact (hleads.find_iff hx.name.isName hx.name.ne_dots).mpr ⟨hfault, hplain, hentry⟩

/-- **What another role has made is found in both trees or in none.** -/
theorem Alongside.find_iff {entry : Entry} (h : Alongside role d d' l t₀ t t')
    (hsame : d.Resembles d' t₀) (hother : other ≠ role) (hx : x.IsOf other) :
    t.find false (x.path d) = .ok entry ↔ t'.find false (x.path d) = .ok entry := by
  have heq := h.alike.entry?_eq hother hx.owned
  rw [← x.place_eq] at heq
  rw [Part.find_path_iff h.grown.lies hx.regular,
    Part.find_path_iff (hsame.symm.liesAt h.grown'.lies) hx.regular, heq]

section

variable {elected : List (Rule × Assignment)} {rule : Rule} {a : Assignment}
  (hwf : t.WellFormed)
  (hlinks : ∀ l, t.LeadsTo d.directory l → ∀ name target,
    t.entry? (l ++ [name]) ≠ some (.link target))
  (hsame : d.Resembles d' t) (hdiffers : m.DiffersAt m' p)
  (hfound : (discover m).run.value = .ok elected)
  (honly : ∀ x ∈ elected, Path.ofText x.2.node = p → x = (rule, a))

include hwf hlinks hsame hdiffers hfound honly

/-- **Two passes agree turn by turn** but for the role, and end with the same of what the other
roles have made. -/
theorem passes_alike (settings : Settings) :
    List.Forall₂ (Agrees rule.role (applying m d) (applying m' d'))
        ((applying m d).turns settings t) ((applying m' d').turns settings t) ∧
      ∀ other : Role, other ≠ rule.role → ∀ x : Part, x.IsOf other → ∀ entry,
        ((applying m d).run settings t).state.find false (x.path d) = .ok entry ↔
          ((applying m' d').run settings t).state.find false (x.path d) = .ok entry := by
  have herrands : (applying m' d').errands settings t = (applying m d).errands settings t :=
    hdiffers.errands_eq settings t
  have hsound : ∀ e ∈ (applying m d).errands settings t, e.IsSound m :=
    fun e he => isSound_errands he
  have hsound' : ∀ e ∈ (applying m d).errands settings t, e.IsSound m' :=
    fun e he => isSound_errands (herrands.symm ▸ he : e ∈ (applying m' d').errands settings t)
  have hdecide : ∀ e ∈ (applying m d).errands settings t, e.subject ≠ rule.role.id →
      e.decide m' = e.decide m :=
    fun e he => hdiffers.decide_errand_eq hfound honly he
  rw [state_run, state_run]
  unfold turns
  rw [herrands]
  by_cases hleads : ∃ l, t.LeadsTo d.directory l
  · obtain ⟨l, hl⟩ := hleads
    have hlies : d.LiesAt t l := ⟨hwf, hl, hlinks l hl⟩
    have hstart : Alongside rule.role d d' l t t t :=
      ⟨.refl hlies, .refl (hsame.liesAt hlies), .refl t⟩
    obtain ⟨hturns, hend⟩ := forall₂_play (I := Alongside rule.role d d' l t)
      (fun e he s s' h => h.turn (hsound e he) (hsound' e he) (hdecide e he) hsame) hstart
    exact ⟨hturns, fun other hother x hx entry => hend.find_iff hsame hother hx⟩
  · have hno : ∀ q, ¬ t.LeadsTo d.directory q := not_exists.mp hleads
    have hno' : ∀ q, ¬ t.LeadsTo d'.directory q := hsame.directory ▸ hno
    obtain ⟨hturns, hend, hend'⟩ := turns_nowhere hsound hsound' hdecide hwf hno hno'
    refine ⟨hturns, fun other _ x _ entry => ?_⟩
    rw [hend, hend']

/-- **Roles do not interfere.**  If two passes begin with the same files and answers, but for what
is found on one device, and no elected partition but one is on that device, then the turns of both
passes agree for every subject but the role of that partition: their plans are the same, and they
are both emitted, both skipped for the same reason, or both failed.  Both passes record the same
other subjects as emitted and as failed, and each file and each link of the plans for other subjects
is in the end in both trees, with the same content, or in none. -/
theorem roles_do_not_interfere (settings : Settings) :
    let site := applying m d
    let site' := applying m' d'
    let first := site.run settings t
    let second := site'.run settings t
    List.Forall₂ (Agrees rule.role site site') (site.turns settings t) (site'.turns settings t) ∧
      first.status.value.emitted.filter (· ≠ rule.role.id) =
        second.status.value.emitted.filter (· ≠ rule.role.id) ∧
      first.status.value.failed.filter (· ≠ rule.role.id) =
        second.status.value.failed.filter (· ≠ rule.role.id) ∧
      ∀ turn ∈ site.turns settings t, turn.subject ≠ rule.role.id →
        ∀ plan, turn.plan? = some plan → ∀ rendered, d.Decided plan.units rendered →
          ∀ x ∈ d.entries rendered plan.dropIns, ∀ entry,
            first.state.find false x.1 = .ok entry ↔ second.state.find false x.1 = .ok entry := by
  intro site site' first second
  obtain ⟨hturns, hfind⟩ := passes_alike hwf hlinks hsame hdiffers hfound honly settings
  refine ⟨hturns, ?_, ?_, fun turn hturn hsubject plan hplan rendered hdecided x hx entry => ?_⟩
  · rw [emitted_run, emitted_run]
    exact filter_subjects_eq (fun _ _ hsame => hsame.isEmission_eq) hturns
  · rw [failed_run, failed_run]
    exact filter_subjects_eq (fun _ _ hsame => hsame.2) hturns
  obtain ⟨before, e, after, hes, rfl⟩ := mem_play.mp hturn
  have he : e ∈ site.errands settings t := hes ▸ List.mem_append_right _ List.mem_cons_self
  obtain ⟨other, hid, hof⟩ := isSound_errands he plan (Turn.plan?_eq_some.mp hplan)
  have hother : other ≠ rule.role := by
    rintro rfl
    exact hsubject hid.symm
  -- The entry is that of a part, and the part is the other role's.
  rw [(hof.plainParts hdecided).entries_eq] at hx
  obtain ⟨part, hpart, rfl⟩ := List.mem_map.mp hx
  exact hfind other hother part (hof.parts_isOf hdecided hpart) entry

end

/-- What is found on the partition for `/home` is all that two such machines differ in. -/
theorem dataMachine_differsAt (home home' : Probed FilesystemInfo) :
    (dataMachine home).DiffersAt (dataMachine home') (Path.ofText "/dev/sda2") where
  devices := rfl
  host := rfl
  guids := rfl
  table := rfl
  filesystem := fun q hq => by simp only [dataMachine, if_neg hq]
  entry := fun _ _ => rfl

/-- Both data partitions are elected, and only the one for `/home` is on its device. -/
theorem discover_dataMachine (home : Probed FilesystemInfo) : ∃ rule a srv,
    (discover (dataMachine home)).run.value = .ok [(rule, a), srv] ∧ rule.role = .home ∧
      Path.ofText srv.2.node ≠ Path.ofText "/dev/sda2" := by
  have helected : (discover (dataMachine home)).run.value.map (·.map fun x => (x.1.role, x.2)) =
      .ok [(.home, ⟨.home, "/dev/sda2", 2, true⟩),
        (.serverData, ⟨.serverData, "/dev/sda3", 3, true⟩)] := by
    rw [(dataMachine_differsAt .nothing home).discover_eq]
    decide +kernel
  cases hfound : (discover (dataMachine home)).run.value with
  | error failure =>
      rw [hfound] at helected
      cases helected
  | ok elected =>
      rw [hfound] at helected
      obtain ⟨⟨rule, a⟩, rest, rfl, hhome, hrest⟩ :=
        List.map_eq_cons_iff.mp (Except.ok.inj helected)
      obtain ⟨srv, rest, rfl, hsrv, hnil⟩ := List.map_eq_cons_iff.mp hrest
      rw [List.map_eq_nil_iff.mp hnil]
      refine ⟨rule, a, srv, rfl, (Prod.mk.inj hhome).1, ?_⟩
      rw [(Prod.mk.inj hsrv).2]
      decide

/-- A partition for `/home` that holds nothing is not mounted, and the one for `/srv` is all the
same. -/
theorem dataMachine_srv_alike :
    let site := applying (dataMachine (.found { fsType := some "ext4" })) bareDestination
    let site' := applying (dataMachine .nothing) bareDestination
    List.Forall₂ (Agrees .home site site') (site.turns {} bareTree) (site'.turns {} bareTree) ∧
      (site.run {} bareTree).status.value.emitted = ["home", "srv"] ∧
      (site'.run {} bareTree).status.value.emitted = ["srv"] := by
  intro site site'
  have hlinks : ∀ l, bareTree.LeadsTo bareDestination.directory l → ∀ name target,
      bareTree.entry? (l ++ [name]) ≠ some (.link target) := by
    intro l hl
    rw [← bareTree_leadsTo.unique hl]
    exact (Destination.LiesAt.of_empty bareTree_wellFormed bareTree_leadsTo bareTree_names).noLink
  obtain ⟨rule, a, srv, hfound, hrole, hsrv⟩ :=
    discover_dataMachine (.found { fsType := some "ext4" })
  have honly : ∀ x ∈ [(rule, a), srv],
      Path.ofText x.2.node = Path.ofText "/dev/sda2" → x = (rule, a) := by
    intro x hx hnode
    rcases List.mem_cons.mp hx with rfl | hx
    · rfl
    · rw [List.mem_singleton.mp hx] at hnode
      exact absurd hnode hsrv
  obtain ⟨hturns, -⟩ := roles_do_not_interfere bareTree_wellFormed hlinks
    (.refl bareDestination bareTree) (dataMachine_differsAt _ .nothing) hfound honly {}
  rw [hrole] at hturns
  exact ⟨hturns, by decide +kernel, by decide +kernel⟩

end PartitionUnits
