import PartitionUnits.Proofs.Submission.Part

/-!
# Parts made one after the other

What a list of parts needs, what making it comes to, and how that compares between two trees.

## Main Definitions

* `FitAll`, `layAll` — parts that are made one after the other
* `PartsVerdict`, `Destination.LiesAt.parts_verdict` — what making them comes to, with the reasons
* `Roomier` — one tree has room for parts where another one has
* `Roomier.fitAll` — what can be made in one can be made in the other

## Design Notes

A later part may be in a directory that an earlier one has made, so what parts need is said for one
after the other.  `Roomier` compares the places of a list in two trees, and laying a part of the
list in both keeps it; nothing else of the trees is compared.
-/

namespace PartitionUnits

open PartitionUnits.Tree

variable {t t' u v : Tree} {d d' : Destination} {l q : Location} {x y : Part}
  {parts before after : List Part}

/-- **Parts can be made one after the other.** -/
def FitAll (d : Destination) (l : Location) : List Part → Tree → Prop
  | [], _ => True
  | x :: rest, t => x.Fits d l t ∧ FitAll d l rest (x.lay l t)

/-- The tree with parts and their directories. -/
def layAll (l : Location) : List Part → Tree → Tree
  | [], t => t
  | x :: rest, t => layAll l rest (x.lay l t)

theorem layAll_append : layAll l (before ++ after) t = layAll l after (layAll l before t) := by
  induction before generalizing t with
  | nil => rfl
  | cons x rest ih => exact ih

theorem fitAll_append : FitAll d l (before ++ after) t ↔
    FitAll d l before t ∧ FitAll d l after (layAll l before t) := by
  induction before generalizing t with
  | nil => exact (and_iff_right trivial).symm
  | cons x rest ih => exact (and_congr_right fun _ => ih).trans and_assoc.symm

theorem FitAll.le_layAll (h : FitAll d l parts t) : t ≤ layAll l parts t := by
  induction parts generalizing t with
  | nil => exact le_refl t
  | cons x rest ih => exact le_trans h.1.le_lay (ih h.2)

/-- Every part is there once all are. -/
theorem FitAll.entry?_layAll (h : FitAll d l parts t) (hx : x ∈ parts) :
    Tree.entry? (layAll l parts t) (x.place l) = some x.entry := by
  obtain ⟨before, after, rfl⟩ := List.append_of_mem hx
  obtain ⟨-, -, hafter⟩ := fitAll_append.mp h
  rw [layAll_append]
  exact entry?_of_le hafter.le_layAll Part.entry?_lay_self

/-! ## The directory that plans are applied in -/

namespace Destination.LiesAt

theorem of_fits (hl : d.LiesAt t l) (hx : x.IsRegular) (h : x.Fits d l t) :
    d.LiesAt (x.lay l t) l where
  wellFormed := by
    refine WellFormed.insert ?_ (h.opens.isDirectoryAt_ground hl.leads.isDirectoryAt) h.vacant
    unfold Part.ground
    split
    · exact hl.wellFormed
    unfold Tree.withDirectory
    split
    · next hvacant => exact hl.wellFormed.insert hl.leads.isDirectoryAt hvacant
    · exact hl.wellFormed
  leads := hl.leads.of_le h.le_lay
  noLink := by
    intro name target hentry
    by_cases hplace : l ++ [name] = x.place l
    · -- A link is in a directory of its own.
      rw [hplace, Part.entry?_lay_self, Part.entry] at hentry
      split at hentry
      · cases hentry
      · next hbody =>
          obtain ⟨n, hn⟩ := Option.ne_none_iff_exists'.mp (hx.sheltered _ hbody)
          have hlength := congrArg List.length hplace
          simp [Part.place, Part.home, hn] at hlength
    · by_cases hhome : l ++ [name] = x.home l
      · obtain ⟨mode, hmode⟩ := isDirectoryAt_iff.mp
          (h.isDirectoryAt_lay hl.leads.isDirectoryAt)
        rw [hhome, hmode] at hentry
        cases hentry
      · rw [Part.entry?_lay_of_ne hplace (Or.inl hhome)] at hentry
        exact hl.noLink name target hentry

theorem of_fitAll (hl : d.LiesAt t l) (hparts : ∀ x ∈ parts, x.IsRegular)
    (h : FitAll d l parts t) : d.LiesAt (layAll l parts t) l := by
  induction parts generalizing t with
  | nil => exact hl
  | cons x rest ih =>
      exact ih (hl.of_fits (hparts x List.mem_cons_self) h.1)
        (fun y hy => hparts y (List.mem_cons_of_mem _ hy)) h.2

end Destination.LiesAt

/-! ## Making parts -/

/-- **The first part that cannot be made**, and the parts before it. -/
structure FirstMisfit (parts : List Part) (d : Destination) (l : Location) (t : Tree)
    (before : List Part) (x : Part) : Prop where
  split : ∃ after, parts = before ++ x :: after
  fit : FitAll d l before t
  misfit : ¬ x.Fits d l (layAll l before t)

namespace FirstMisfit

theorem not_fitAll (h : FirstMisfit parts d l t before x) : ¬ FitAll d l parts t := by
  obtain ⟨after, rfl⟩ := h.split
  exact fun hfit => h.misfit (fitAll_append.mp hfit).2.1

/-- Up to a part that cannot be made there is no other. -/
theorem eq_of_append {before' : List Part} (h : FirstMisfit parts d l t before x)
    (h' : FirstMisfit parts d l t (before ++ before') y) : before' = [] ∧ x = y := by
  obtain ⟨after, hsplit⟩ := h.split
  obtain ⟨after', hsplit'⟩ := h'.split
  rw [hsplit, List.append_assoc, List.append_cancel_left_eq] at hsplit'
  cases before' with
  | nil => exact ⟨rfl, (List.cons.inj hsplit').1⟩
  | cons x' rest =>
      rw [← (List.cons.inj hsplit').1] at h'
      exact absurd (fitAll_append.mp h'.fit).2.1 h.misfit

theorem unique {before' : List Part} (h : FirstMisfit parts d l t before x)
    (h' : FirstMisfit parts d l t before' y) : before = before' ∧ x = y := by
  obtain ⟨after, hsplit⟩ := h.split
  obtain ⟨after', hsplit'⟩ := h'.split
  rcases List.append_eq_append_iff.mp (hsplit.symm.trans hsplit') with
    ⟨between, rfl, -⟩ | ⟨between, rfl, -⟩
  · obtain ⟨rfl, rfl⟩ := h.eq_of_append h'
    exact ⟨(List.append_nil _).symm, rfl⟩
  · obtain ⟨rfl, rfl⟩ := h'.eq_of_append h
    exact ⟨List.append_nil _, rfl⟩

theorem head (h : ¬ x.Fits d l t) (rest : List Part) : FirstMisfit (x :: rest) d l t [] x where
  split := ⟨rest, rfl⟩
  fit := trivial
  misfit := h

theorem cons (h : FirstMisfit after d l (x.lay l t) before y) (hfits : x.Fits d l t) :
    FirstMisfit (x :: after) d l t (x :: before) y where
  split := by
    obtain ⟨rest, rfl⟩ := h.split
    exact ⟨rest, List.cons_append⟩
  fit := ⟨hfits, h.fit⟩
  misfit := h.misfit

end FirstMisfit

/-- **What making parts comes to**, with the reasons. -/
inductive PartsVerdict (parts : List Part) (d : Destination) (l : Location) (t : Tree) : Prop where
  | laid {made : List Artifact} (hfit : FitAll d l parts t)
      (h : Completes t (parts.flatMap (·.actions d)) made (layAll l parts t))
  | refused {before : List Part} {x : Part} {made : List Artifact} {u v : Tree} {aborted : Aborted}
      (hfirst : FirstMisfit parts d l t before x) (hgone : ¬ x.Strays d l (layAll l before t))
      (h : Stops t (parts.flatMap (·.actions d)) made u aborted v)
      (howned : aborted.temporary = none)
  | stray {before : List Part} {x : Part} {made : List Artifact} {aborted : Aborted} {file : Path}
      {draw : Draw} (hfirst : FirstMisfit parts d l t before x)
      (hstrays : x.Strays d l (layAll l before t))
      (h : Stops t (parts.flatMap (·.actions d)) made (x.ground l (layAll l before t)) aborted
        ((x.ground l (layAll l before t)).insert (x.home l ++ [draw.name]) x.entry))
      (howns : OwnsTemporary aborted file draw (x.homePath d))
      (hvacant : Tree.entry? (x.ground l (layAll l before t)) (x.home l ++ [draw.name]) = none)

/-- **Whether parts can be made depends on their places only.** -/
theorem Destination.LiesAt.parts_verdict (hl : d.LiesAt t l)
    (hparts : ∀ x ∈ parts, x.IsRegular) : PartsVerdict parts d l t := by
  induction parts generalizing t with
  | nil => exact .laid trivial .nil
  | cons x rest ih =>
      have hx := hparts x List.mem_cons_self
      cases hl.part_verdict hx with
      | refused hnot hgone hstops howned =>
          exact .refused (.head hnot rest) hgone (hstops.append _) howned
      | stray hstrays hstops howns hvacant =>
          have hnot : ¬ x.Fits d l t := fun hfits => hstrays.stuck hfits.fits
          exact .stray (.head hnot rest) hstrays (hstops.append _) howns hvacant
      | laid hfits hfirst =>
          cases ih (hl.of_fits hx hfits) fun y hy => hparts y (List.mem_cons_of_mem _ hy) with
          | laid hfit hrest => exact .laid ⟨hfits, hfit⟩ (hfirst.append hrest)
          | refused hmisfit hgone hstops howned =>
              exact .refused (hmisfit.cons hfits) hgone (.after_completes hfirst hstops) howned
          | stray hmisfit hstrays hstops howns hvacant =>
              exact .stray (hmisfit.cons hfits) hstrays (.after_completes hfirst hstops) howns
                hvacant

/-! ## Comparing two trees -/

/-- A tree has the entries of another one under the names of temporary files. -/
def Tree.SharesTemporaries (t t' : Tree) : Prop :=
  ∀ q (draw : Draw), t'.entry? (q ++ [draw.name]) = t.entry? (q ++ [draw.name])

theorem Tree.SharesTemporaries.hasDraw_iff {draws : List Draw} (h : t.SharesTemporaries t') :
    t'.HasDraw q draws ↔ t.HasDraw q draws := by
  unfold HasDraw
  simp only [h q]

/-- A part with ordinary names changes nothing under the names of temporary files. -/
theorem Part.IsRegular.sharesTemporaries (hx : x.IsRegular) (l : Location) (t : Tree) :
    t.SharesTemporaries (x.lay l t) := by
  intro q draw
  refine entry?_lay_of_ne ?_ ?_
  · intro heq
    exact hx.name.apart draw (List.cons.inj (List.append_inj' heq rfl).2).1
  · cases hn : x.directory? with
    | none => exact Or.inr rfl
    | some n =>
        refine Or.inl fun heq => (hx.directory n hn).apart draw ?_
        rw [home, hn, Option.toList_some] at heq
        exact (List.cons.inj (List.append_inj' heq rfl).2).1

/-- **One tree has room for parts where another one has**: their places are vacant, and their
directories can be made or used. -/
structure Roomier (d d' : Destination) (l : Location) (parts : List Part) (t t' : Tree) : Prop where
  vacant : ∀ x ∈ parts, t.entry? (x.place l) = none → t'.entry? (x.place l) = none
  opens : ∀ x ∈ parts, ∀ n, x.directory? = some n → t.IsOpen (l ++ [n]) → t'.IsOpen (l ++ [n])
  draws : ∀ x ∈ parts, t.HasDraw (x.home l) (d.draws (x.path d)) →
    t'.HasDraw (x.home l) (d'.draws (x.path d'))

namespace Roomier

theorem opens_of (h : Roomier d d' l parts t t') (hsame : d'.directory = d.directory)
    (hx : x ∈ parts) (hopens : x.Opens d l t) : x.Opens d' l t' := by
  intro n hn
  obtain ⟨hfault, hplain, hopen⟩ := hopens n hn
  exact ⟨hsame ▸ hfault, hplain, h.opens x hx n hn hopen⟩

theorem ready_of (h : Roomier d d' l parts t t') (hsame : d'.directory = d.directory)
    (hx : x ∈ parts) (hready : x.Ready d l t) : x.Ready d' l t' := by
  unfold Part.Ready at hready ⊢
  split at hready
  · exact ⟨Part.path_congr hsame x ▸ hready.1, h.draws x hx hready.2⟩
  · exact hready

theorem fits_of (h : Roomier d d' l parts t t') (hsame : d'.directory = d.directory)
    (hx : x ∈ parts) (hfits : x.Fits d l t) : x.Fits d' l t' where
  opens := h.opens_of hsame hx hfits.opens
  ready := h.ready_of hsame hx hfits.ready
  fits := ⟨Part.homePath_congr hsame x ▸ hfits.fits.fault, hfits.fits.plain,
    h.vacant x hx hfits.fits.vacant⟩

/-- **A part that is made in both trees takes no room from one alone.** -/
theorem lay (h : Roomier d d' l parts t t') (hy : y.IsRegular)
    (hfits : y.Fits d l t) (hfits' : y.Fits d' l t') (hl : t.isDirectoryAt l = true)
    (hl' : t'.isDirectoryAt l = true) :
    Roomier d d' l parts (y.lay l t) (y.lay l t') where
  vacant := by
    intro x hx hvacant
    have hplace : x.place l ≠ y.place l := (ne_of_vacant Part.entry?_lay_self hvacant).symm
    have hhome : x.place l ≠ y.home l := by
      intro heq
      obtain ⟨mode, hmode⟩ := isDirectoryAt_iff.mp (hfits.isDirectoryAt_lay hl)
      exact ne_of_vacant hmode hvacant heq.symm
    rw [Part.entry?_lay_of_ne hplace (Or.inl hhome)] at hvacant ⊢
    exact h.vacant x hx hvacant
  opens := by
    intro x hx n hn hopen e hentry
    by_cases hplace : l ++ [n] = y.place l
    · rw [hplace, Part.entry?_lay_self] at hentry
      rw [hplace] at hopen
      exact hopen e (Part.entry?_lay_self.trans hentry)
    by_cases hhome : l ++ [n] = y.home l
    · obtain ⟨mode, hmode⟩ := isDirectoryAt_iff.mp (hfits'.isDirectoryAt_lay hl')
      rw [hhome, hmode] at hentry
      cases hentry
      rfl
    · rw [Part.entry?_lay_of_ne hplace (Or.inl hhome)] at hentry
      refine h.opens x hx n hn (fun e' hentry' => hopen e' ?_) e hentry
      rw [Part.entry?_lay_of_ne hplace (Or.inl hhome)]
      exact hentry'
  draws := by
    intro x hx hdraw
    rw [(hy.sharesTemporaries l t).hasDraw_iff] at hdraw
    exact (hy.sharesTemporaries l t').hasDraw_iff.mpr (h.draws x hx hdraw)

/-- **What can be made in one tree can be made in the other**, and what comes after it too. -/
theorem fitAll (h : Roomier d d' l parts t t') (hsame : d'.directory = d.directory)
    (hl : d.LiesAt t l) (hl' : d'.LiesAt t' l) (hbefore : ∀ x ∈ before, x ∈ parts ∧ x.IsRegular)
    (hfit : FitAll d l before t) :
    FitAll d' l before t' ∧ Roomier d d' l parts (layAll l before t) (layAll l before t') := by
  induction before generalizing t t' with
  | nil => exact ⟨trivial, h⟩
  | cons x rest ih =>
      obtain ⟨hx, hregular⟩ := hbefore x List.mem_cons_self
      have hfits := h.fits_of hsame hx hfit.1
      have hlaid := h.lay hregular hfit.1 hfits hl.leads.isDirectoryAt hl'.leads.isDirectoryAt
      obtain ⟨hrest, hroomier⟩ := ih hlaid (hl.of_fits hregular hfit.1)
        (hl'.of_fits hregular hfits) (fun y hy => hbefore y (List.mem_cons_of_mem _ hy)) hfit.2
      exact ⟨⟨hfits, hrest⟩, hroomier⟩

end Roomier

end PartitionUnits
