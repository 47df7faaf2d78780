import PartitionUnits.Proofs.RoleParts
import PartitionUnits.Proofs.Turns

/-!
# Passes over a tree

A pass that applies its plans only adds to the files, and what it adds stays out of the way of
later plans but for the places of their own parts.

## Main Definitions

* `Site.applying` — a machine that always answers the same, and where its plans are applied
* `Errand.IsSound`, `isSound_errands` — the plans of a pass are plans of the roles they are for
* `Destination.Resembles` — two destinations that differ in nothing but what is drawn
* `Grown`, `Grown.afterAll` — a tree that a pass has led to

## Design Notes

Two passes need not draw the same names for their temporary files.  What matters is that one runs
out of names where the other does, and since no pass leaves or removes a temporary file, this can
be asked about the tree that both have begun with.
-/

namespace PartitionUnits

open PartitionUnits.Tree Site

variable {m m' : Machine} {d d' : Destination} {settings : Settings} {t t' u v w : Tree}
  {l q : Location} {n : Name} {role : Role} {plan : Plan} {e : Errand} {es : List Errand}
  {xs : List Part} {x : Part}

/-- **The site of a machine that always answers the same**, with plans applied at a destination. -/
def Site.applying (m : Machine) (d : Destination) : Site Tree where
  machine _ := m
  submit plan t := (d.submit plan).run t

/-! ## Plans for roles -/

/-- **The plans of an errand are of the role that it is for.** -/
def Errand.IsSound (e : Errand) (m : Machine) : Prop :=
  ∀ plan, (e.decide m).run.value = .ok (.emit plan) →
    ∃ role : Role, role.id = e.subject ∧ plan.IsOf role

theorem isSound_rootErrands (he : e ∈ rootErrands settings) : e.IsSound m := by
  unfold rootErrands at he
  split at he
  · intro plan hplan
    rw [List.mem_singleton.mp he] at hplan ⊢
    exact ⟨.root, rfl, decideRoot_isOf settings m.host _ hplan plan rfl⟩
  · cases he

theorem isSound_partitionErrands (he : e ∈ partitionErrands m) : e.IsSound m' := by
  unfold partitionErrands at he
  split at he
  · intro plan hplan
    rw [List.mem_singleton.mp he] at hplan
    cases hplan
  · obtain ⟨⟨rule, a⟩, -, rfl⟩ := List.mem_map.mp he
    exact fun plan hplan => ⟨rule.role, rfl, rule.decide_isOf m' a _ hplan plan rfl⟩

/-- The errands of a pass do not depend on the files. -/
theorem errands_applying (settings : Settings) (t : Tree) :
    (applying m d).errands settings t =
      rootErrands settings ++ if m.host.inInitrd then [] else partitionErrands m := rfl

/-- **All errands of a pass are sound**, whatever the machine answers. -/
theorem isSound_errands {σ : Type} {site : Site σ} {s : σ} (he : e ∈ site.errands settings s) :
    e.IsSound m := by
  unfold errands at he
  rcases List.mem_append.mp he with he | he
  · exact isSound_rootErrands he
  · split at he
    · cases he
    · exact isSound_partitionErrands he

/-! ## Trees that passes have led to -/

/-- Plans are applied in an empty directory. -/
theorem Destination.LiesAt.of_empty (hwf : t.WellFormed) (hleads : t.LeadsTo d.directory l)
    (hempty : t.names l = []) : d.LiesAt t l where
  wellFormed := hwf
  leads := hleads
  noLink := by
    intro name target
    rw [names_eq_nil_iff.mp hempty]
    simp

/-- **A tree that passes have led to**: it has everything that was there before, with no more links
directly in the directory that plans are applied in and no more temporary files. -/
structure Grown (d : Destination) (l : Location) (t u : Tree) : Prop where
  lies : d.LiesAt u l
  le : t ≤ u
  shares : t.SharesTemporaries u

namespace Grown

theorem refl (h : d.LiesAt t l) : Grown d l t t := ⟨h, le_refl t, fun _ _ => rfl⟩

theorem trans (h : Grown d l t u) (h' : Grown d l u v) : Grown d l t v where
  lies := h'.lies
  le := le_trans h.le h'.le
  shares := fun q draw => (h'.shares q draw).trans (h.shares q draw)

theorem of_fits (hl : d.LiesAt t l) (hx : x.IsRegular) (h : x.Fits d l t) :
    Grown d l t (x.lay l t) := ⟨hl.of_fits hx h, h.le_lay, hx.sharesTemporaries l t⟩

theorem of_fitAll (hl : d.LiesAt t l) (hxs : ∀ x ∈ xs, x.IsRegular) (h : FitAll d l xs t) :
    Grown d l t (layAll l xs t) := by
  induction xs generalizing t with
  | nil => exact .refl hl
  | cons x rest ih =>
      have hfirst := of_fits hl (hxs x List.mem_cons_self) h.1
      exact hfirst.trans (ih hfirst.lies (fun y hy => hxs y (List.mem_cons_of_mem _ hy)) h.2)

theorem of_stranded (hl : d.LiesAt t l) (hwf : w.WellFormed) (hn : ∀ draw : Draw, draw.name ≠ n)
    (h : Stranded l n t w) : Grown d l t w where
  lies := by
    refine ⟨hwf, hl.leads.of_le h.le, fun name target hentry => ?_⟩
    rcases h.rest _ _ hentry with hold | hnew
    · exact hl.noLink name target hold
    · obtain ⟨mode, hmode⟩ := isDirectoryAt_iff.mp h.isDirectoryAt
      rw [hnew, hmode] at hentry
      cases hentry
  le := h.le
  shares := by
    intro q draw
    cases hentry : w.entry? (q ++ [draw.name]) with
    | none => exact (entry?_eq_none_of_le h.le hentry).symm
    | some e =>
        rcases h.rest _ _ hentry with hold | hnew
        · exact hold.symm
        · exact absurd (List.cons.inj (List.append_inj' hnew rfl).2).1 (hn draw)

end Grown

/-- The directory that a role's plan can strand is one of its parts'. -/
theorem Strands.exists_part (h : Strands xs d l n t) : ∃ x ∈ xs, x.directory? = some n := by
  obtain ⟨hfirst, -, hdirectory, -⟩ := h
  obtain ⟨after, rfl⟩ := hfirst.split
  exact ⟨_, List.mem_append_right _ List.mem_cons_self, hdirectory⟩

/-- **A submission of a role's plan leads to such a tree.** -/
theorem Plan.IsOf.grown (hplan : plan.IsOf role) (hl : d.LiesAt t l) :
    Grown d l t ((d.submit plan).run t).2 := by
  cases hrender : (d.render plan.units).run.value with
  | error failure =>
      rw [(submit_of_undecided hrender).2]
      exact .refl hl
  | ok rendered =>
      have hdecided := render_eq_ok_iff.mp hrender
      have hwf : ((d.submit plan).run t).2.WellFormed :=
        Script.wellFormed_of_mem_states hl.wellFormed (Script.run_mem_states _)
      have hverdict := hplan.submit_verdict hdecided hl
      generalize ((d.submit plan).run t).1.value = result at hverdict
      generalize ((d.submit plan).run t).2 = w at hwf hverdict ⊢
      cases hverdict with
      | laid hfit => exact .of_fitAll hl (fun _ hx => (hplan.parts_isOf hdecided hx).regular) hfit
      | undone => exact .refl hl
      | stranded hstrands hleft =>
          obtain ⟨x, hx, hn⟩ := hstrands.exists_part
          have hname := (hplan.parts_isOf hdecided hx).regular.directory _ hn
          exact .of_stranded hl hwf hname.apart hleft

/-- What a turn comes to if it applies a plan. -/
theorem after_applying_of_emit (h : (e.decide m).run.value = .ok (.emit plan)) :
    (applying m d).result ((applying m d).turn e t) =
        ((d.submit plan).run t).1.value.map (fun _ => .emitted) ∧
      (applying m d).after ((applying m d).turn e t) = ((d.submit plan).run t).2 :=
  turn_of_emit (applying m d) ((applying m d).turn e t) h

/-- Only a plan that is applied can change the files. -/
theorem after_applying {P : Tree → Prop} (h : P t)
    (hsubmit : ∀ plan, (e.decide m).run.value = .ok (.emit plan) → P ((d.submit plan).run t).2) :
    P ((applying m d).after ((applying m d).turn e t)) := by
  cases hvalue : (e.decide m).run.value with
  | error failure => rwa [(turn_of_error (applying m d) ((applying m d).turn e t) hvalue).2]
  | ok decision =>
      cases decision with
      | skip reason => rwa [(turn_of_skip (applying m d) ((applying m d).turn e t) hvalue).2]
      | emit plan =>
          rw [(after_applying_of_emit hvalue).2]
          exact hsubmit plan hvalue

namespace Grown

/-- **A turn leads to such a tree.** -/
theorem after (hl : d.LiesAt t l) (he : e.IsSound m) :
    Grown d l t ((applying m d).after ((applying m d).turn e t)) := by
  refine after_applying (.refl hl) fun plan hvalue => ?_
  obtain ⟨role, -, hplan⟩ := he plan hvalue
  exact hplan.grown hl

/-- **Turns lead to such a tree.** -/
theorem afterAll (hl : d.LiesAt t l) (hes : ∀ e ∈ es, e.IsSound m) :
    Grown d l t ((applying m d).afterAll es t) := by
  induction es generalizing t with
  | nil => exact .refl hl
  | cons e rest ih =>
      have hfirst := after hl (hes e List.mem_cons_self)
      exact hfirst.trans (ih hfirst.lies fun e' he' => hes e' (List.mem_cons_of_mem _ he'))

end Grown

/-! ## Destinations that differ in what is drawn -/

/-- **Two destinations differ in nothing but what is drawn**, and one runs out of names for
temporary files just where the other does. -/
structure Destination.Resembles (d d' : Destination) (t : Tree) : Prop where
  directory : d'.directory = d.directory
  inInitrd : d'.inInitrd = d.inInitrd
  hasHelper : d'.hasHelper = d.hasHelper
  draws : ∀ p q, t.HasDraw q (d.draws p) ↔ t.HasDraw q (d'.draws p)

namespace Destination.Resembles

theorem refl (d : Destination) (t : Tree) : d.Resembles d t := ⟨rfl, rfl, rfl, fun _ _ => Iff.rfl⟩

theorem symm (h : d.Resembles d' t) : d'.Resembles d t :=
  ⟨h.directory.symm, h.inInitrd.symm, h.hasHelper.symm, fun p q => (h.draws p q).symm⟩

theorem liesAt (h : d.Resembles d' t) (hl : d.LiesAt u l) : d'.LiesAt u l :=
  ⟨hl.wellFormed, h.directory ▸ hl.leads, hl.noLink⟩

/-- The same is decided about checks. -/
theorem render_eq (h : d.Resembles d' t) (units : List UnitFile) :
    d'.render units = d.render units := by
  unfold render
  rw [h.inInitrd, h.hasHelper]

theorem decided (h : d.Resembles d' t) {units : List UnitFile}
    {rendered : List Destination.Rendered} (hdecided : d.Decided units rendered) :
    d'.Decided units rendered := by
  rw [← render_eq_ok_iff, h.render_eq]
  exact render_eq_ok_iff.mpr hdecided

theorem path_eq (h : d.Resembles d' t) (x : Part) : x.path d' = x.path d :=
  Part.path_congr h.directory x

/-- There is a name for a temporary file in one tree if there is in the other. -/
theorem hasDraw_iff (h : d.Resembles d' t) (hu : t.SharesTemporaries u)
    (hv : t.SharesTemporaries v) (p : Path) :
    u.HasDraw q (d.draws p) ↔ v.HasDraw q (d'.draws p) := by
  rw [hu.hasDraw_iff, hv.hasDraw_iff]
  exact h.draws p q

end Destination.Resembles

/-! ## A machine with two data partitions -/

/-- A machine whose root file system is on a disk with a partition for `/home`, which holds what
the argument says, and one for `/srv`. -/
def dataMachine (home : Probed FilesystemInfo) : Machine where
  devices := {
    holding := fun _ => return some ⟨8, 1⟩
    parentDisk := fun _ =>
      return some ⟨⟨8, 0⟩, Path.ofText "/dev/sda", Path.ofText "/sys/sda", none⟩
    partitions := fun _ => return [
      ⟨⟨8, 1⟩, Path.ofText "/dev/sda1", Path.ofText "/sys/sda1", some 1⟩,
      ⟨⟨8, 2⟩, Path.ofText "/dev/sda2", Path.ofText "/sys/sda2", some 2⟩,
      ⟨⟨8, 3⟩, Path.ofText "/dev/sda3", Path.ofText "/sys/sda3", some 3⟩] }
  probe := {
    table := fun _ => return .found ⟨some "gpt", [
      { number := 2, typeText := Guid.home.text },
      { number := 3, typeText := Guid.serverData.text }]⟩
    filesystem := fun p =>
      pure (if p = Path.ofText "/dev/sda2" then home else .found { fsType := some "ext4" })
    entry := fun _ => return .nothing }
  host := {
    inInitrd := false
    inContainer := { value := false }
    isEfiBoot := false
    loaderPartition := .ok none
    staticMounts := .ok {}
    mountPointState := fun _ => .ok .missing
    isEmptyDirectory := fun _ => .ok true }

theorem bareTree_leadsTo :
    bareTree.LeadsTo bareDestination.directory [Text.encode "dest".toList] := by
  refine ⟨by decide, ?_⟩
  rw [← walk_eq_ok_iff]
  decide +kernel

theorem bareTree_names : bareTree.names [Text.encode "dest".toList] = [] := by decide

end PartitionUnits
