import PartitionUnits.Proofs.PlainPlans
import PartitionUnits.Proofs.Submission.Collision

/-!
# Plans that have all the room they need

Where nothing is in the way of a plan, it can be applied just if its names can be used.

## Main Definitions

* `Unobstructed` — nothing is in the way of a list of parts
* `Unobstructed.lay` — making one part puts nothing in the way of the others
* `Action.IsNameable` — the names that an action needs can be used
* `Unobstructed.fitAll_iff` — what the names decide
* `Unobstructed.blamesOther` — what they do not decide

## Design Notes

Room is said of entries and names are said of paths, so what is left to decide once there is room
does not speak of a tree.
-/

namespace PartitionUnits

open PartitionUnits.Tree

variable {t u v : Tree} {d : Destination} {l : Location} {n : Name} {p : Path} {x y : Part}
  {parts rest : List Part} {made : List Artifact} {aborted : Aborted}

/-! ## Room -/

/-- **Nothing is in the way of parts**: their places are vacant, where they have directories there
are none but directories, and no temporary file is beside them. -/
structure Unobstructed (l : Location) (parts : List Part) (t : Tree) : Prop where
  vacant : ∀ x ∈ parts, t.entry? (x.place l) = none
  opens : ∀ x ∈ parts, ∀ n, x.directory? = some n → t.IsOpen (l ++ [n])
  fresh : ∀ x ∈ parts, ∀ draw : Draw, t.entry? (x.home l ++ [draw.name]) = none

/-- A part is not where another one has its directory. -/
theorem Part.IsPlain.place_ne_home (hy : y.IsPlain) (hx : x.IsPlain) :
    y.place l ≠ x.home l ∨ x.directory? = none := by
  cases hn : x.directory? with
  | none => exact Or.inr rfl
  | some n =>
      refine Or.inl fun heq => hy.name ?_
      rw [home, hn, Option.toList_some, place] at heq
      rw [(List.cons.inj (List.append_inj' heq rfl).2).1]
      exact hx.directory n hn

namespace Unobstructed

theorem tail (h : Unobstructed l (x :: rest) t) : Unobstructed l rest t where
  vacant := fun y hy => h.vacant y (List.mem_cons_of_mem _ hy)
  opens := fun y hy => h.opens y (List.mem_cons_of_mem _ hy)
  fresh := fun y hy => h.fresh y (List.mem_cons_of_mem _ hy)

/-- **Making a part puts nothing in the way of the others.** -/
theorem lay (h : Unobstructed l rest t) (hx : x.IsPlain) (hrest : ∀ y ∈ rest, y.IsPlain)
    (hplace : x.place [] ∉ rest.map (·.place [])) (hfits : x.Fits d l t)
    (hl : t.isDirectoryAt l = true) : Unobstructed l rest (x.lay l t) where
  vacant := by
    intro y hy
    have hne : y.place l ≠ x.place l := by
      rw [y.place_eq, x.place_eq]
      intro heq
      exact hplace (List.append_cancel_left heq ▸ List.mem_map_of_mem hy)
    rw [Part.entry?_lay_of_ne hne ((hrest y hy).place_ne_home hx)]
    exact h.vacant y hy
  opens := by
    intro y hy n hn e hentry
    have hdirectory := (hrest y hy).directory n hn
    have hne : l ++ [n] ≠ x.place l := by
      intro heq
      rw [Part.place] at heq
      rw [(List.cons.inj (List.append_inj' heq rfl).2).1] at hdirectory
      exact hx.name hdirectory
    by_cases hhome : l ++ [n] = x.home l
    · have hthere := hfits.isDirectoryAt_lay hl
      rw [← hhome] at hthere
      exact isOpen_of_isDirectoryAt hthere e hentry
    · rw [Part.entry?_lay_of_ne hne (Or.inl hhome)] at hentry
      exact h.opens y hy n hn e hentry
  fresh := by
    intro y hy draw
    rw [hx.regular.sharesTemporaries l t]
    exact h.fresh y hy draw

end Unobstructed

/-! ## Names -/

/-- The last name of a path can be that of an entry. -/
def Path.IsUsable (p : Path) : Prop :=
  p.fault? = none ∧ ∀ name, p.names.getLast? = some name → IsPlainName name

/-- **The names that an action needs can be used**: its path, that of a temporary file beside a new
file, and the target of a link. -/
def Action.IsNameable : Action → Prop
  | .makeFile p _ draws => p.IsUsable ∧ p.TakesTemporary ∧ draws ≠ []
  | .ensureDirectory p => p.IsUsable
  | .makeLink target link => link.IsUsable ∧ target.fault? = none
  | .refuse _ => False

theorem Path.IsName.isUsable_join (hn : Path.IsName n) :
    (p.join ⟨n⟩).IsUsable ↔ (p.join ⟨n⟩).fault? = none ∧ IsPlainName n := by
  unfold IsUsable
  rw [hn.getLast?_names_join]
  simp

/-- **A part that has room can be made just if its names can be used.** -/
theorem Unobstructed.fits_iff (h : Unobstructed l parts t) (hx : x ∈ parts)
    (hregular : x.IsRegular) : x.Fits d l t ↔ ∀ a ∈ x.actions d, a.IsNameable := by
  have hopens : x.Opens d l t ↔ ∀ a ∈ x.directoryActions d, a.IsNameable := by
    unfold Part.Opens Part.directoryActions
    cases hn : x.directory? with
    | none => simp
    | some n =>
        have hname := (hregular.directory n hn).isName
        simp [Action.IsNameable, hname.isUsable_join, h.opens x hx n hn]
  have hfits : t.Fits (x.homePath d) (x.home l) x.name ↔ (x.path d).IsUsable := by
    rw [Part.path, hregular.name.isName.isUsable_join]
    exact ⟨fun hfits => ⟨hfits.fault, hfits.plain⟩,
      fun husable => ⟨husable.1, husable.2, h.vacant x hx⟩⟩
  have hdraw : ∀ draws, t.HasDraw (x.home l) draws ↔ draws ≠ [] := by
    intro draws
    unfold HasDraw
    simp only [h.fresh x hx, and_true]
    exact List.isEmpty_eq_false_iff_exists_mem.symm.trans List.isEmpty_eq_false_iff
  have haction : x.Ready d l t ∧ t.Fits (x.homePath d) (x.home l) x.name ↔
      (x.action d).IsNameable := by
    rw [hfits]
    unfold Part.Ready Part.action
    cases x.body with
    | file content =>
        simp only [hdraw, Action.IsNameable]
        exact and_comm
    | link target =>
        simp only [Action.IsNameable]
        exact and_comm
  unfold Part.actions
  simp only [List.mem_append, List.mem_singleton, or_imp, forall_and, forall_eq]
  rw [← hopens, ← haction]
  constructor
  · intro hfits
    exact ⟨hfits.opens, hfits.ready, hfits.fits⟩
  · rintro ⟨hopens, hready, hfits⟩
    exact ⟨hopens, hready, hfits⟩

/-! ## All parts -/

/-- A part that has room does not fail because something exists. -/
theorem Unobstructed.part_blamesOther (h : Unobstructed l parts t) (hx : x ∈ parts)
    (hl : d.LiesAt t l) (hregular : x.IsRegular)
    (hstops : Stops t (x.actions d) made u aborted v) : aborted.failure.BlamesOther := by
  rcases hstops.of_append with hdirectory | ⟨first, w, second, hdone, hlast⟩
  · cases hn : x.directory? with
    | none =>
        obtain ⟨a, ha, -⟩ := hdirectory.failed
        rw [Part.directoryActions, hn] at ha
        cases ha
    | some n =>
        rw [Part.directoryActions, hn] at hdirectory
        obtain ⟨-, hrun⟩ := hdirectory.perform_of_singleton
        have hname := hregular.directory n hn
        exact hl.leads.ensureDirectory_blamesOther hname (h.opens x hx n hn) hrun
  · have hopens : x.Opens d l t := by
      by_contra hnot
      obtain ⟨_, hrefused, -⟩ := Part.refused_of_not_opens hnot hl hregular
      exact hrefused.not_completes hdone
    obtain ⟨⟨_, hground⟩, hleads⟩ := hopens.completes hl hregular
    obtain ⟨-, rfl⟩ := hground.unique hdone
    obtain ⟨-, hrun⟩ := hlast.perform_of_singleton
    have hvacant := (Part.entry?_ground_below (l := l) (t := t) x.name).trans (h.vacant x hx)
    unfold Part.action at hrun
    split at hrun
    · exact hleads.makeFile_blamesOther hregular.name hvacant hrun
    · exact hleads.makeLink_blamesOther hregular.name hvacant hrun

section

variable (hparts : ∀ x ∈ parts, x.IsPlain) (hnodup : (parts.map (·.place [])).Nodup)
include hparts hnodup

/-- **Parts that have room can be made just if their names can be used.** -/
theorem Unobstructed.fitAll_iff (h : Unobstructed l parts t) (hl : d.LiesAt t l) :
    FitAll d l parts t ↔ ∀ a ∈ parts.flatMap (·.actions d), a.IsNameable := by
  induction parts generalizing t with
  | nil => simp [FitAll]
  | cons x rest ih =>
      have hx := hparts x List.mem_cons_self
      have hrest : ∀ y ∈ rest, y.IsPlain := fun y hy => hparts y (List.mem_cons_of_mem _ hy)
      obtain ⟨hplace, hnodup⟩ := List.nodup_cons.mp hnodup
      simp only [List.flatMap_cons, List.mem_append, or_imp, forall_and]
      rw [← h.fits_iff List.mem_cons_self hx.regular]
      refine and_congr_right fun hfits => ?_
      exact ih hrest hnodup (h.tail.lay hx hrest hplace hfits hl.leads.isDirectoryAt)
        (hl.of_fits hx.regular hfits)

/-- **Parts that have room do not fail because something exists.** -/
theorem Unobstructed.blamesOther (h : Unobstructed l parts t) (hl : d.LiesAt t l)
    (hstops : Stops t (parts.flatMap (·.actions d)) made u aborted v) :
    aborted.failure.BlamesOther := by
  induction parts generalizing t made with
  | nil =>
      obtain ⟨a, ha, -⟩ := hstops.failed
      cases ha
  | cons x rest ih =>
      have hx := hparts x List.mem_cons_self
      have hrest : ∀ y ∈ rest, y.IsPlain := fun y hy => hparts y (List.mem_cons_of_mem _ hy)
      obtain ⟨hplace, hnodup⟩ := List.nodup_cons.mp hnodup
      rcases hstops.of_append with hfirst | ⟨first, w, second, hdone, hlater⟩
      · exact h.part_blamesOther List.mem_cons_self hl hx.regular hfirst
      · cases hl.part_verdict hx.regular with
        | refused _ _ hfirst => exact absurd hdone hfirst.not_completes
        | stray _ hfirst => exact absurd hdone hfirst.not_completes
        | laid hfits hfirst =>
            obtain ⟨-, rfl⟩ := hfirst.unique hdone
            exact ih hrest hnodup (h.tail.lay hx hrest hplace hfits hl.leads.isDirectoryAt)
              (hl.of_fits hx.regular hfits) hlater

end

end PartitionUnits
