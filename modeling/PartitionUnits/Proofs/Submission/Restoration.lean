import PartitionUnits.Proofs.MountPlan
import PartitionUnits.Proofs.Submission.Atomicity
import PartitionUnits.Proofs.Submission.Interruption

/-!
# Failed submissions of plans for roles

A plan for a role has at most one drop-in, and with that it cannot strand a temporary file.

## Main Definitions

* `not_stray_in_new_directory` — the first file of a new directory gets its name
* `Plan.HasLoneDropIn` — a plan with at most one drop-in, whose file can have its name
* `Plan.HasLoneDropIn.restores` — such a plan leaves nothing if it cannot be applied

## Design Notes

A temporary file is in the way of the roll back only in a directory that was made for it.  Such a
directory is empty, so the first file in it gets its name if that can be a name at all: the whole
path must not be too long.
-/

namespace PartitionUnits

open PartitionUnits.Tree

variable {t u : Tree} {d : Destination} {plan : Plan} {role : Role} {before after : List Action}
  {made : List Artifact} {draws : List Draw} {draw : Draw} {file : Path} {q : Location}

/-- Files that were made open no way. -/
theorem Performs.keepsWays {acts : List Action} (h : Performs t acts made u)
    (hfiles : ∀ a ∈ acts, ∃ p content draws, a = .makeFile p content draws) : u.KeepsWays t := by
  induction h with
  | nil => exact .of_le (le_refl _)
  | @cons t u v a rest artifact? later first _ ih =>
      have hrest := ih fun b hb => hfiles b (List.mem_cons_of_mem _ hb)
      obtain ⟨p, content, draws, rfl⟩ := hfiles a List.mem_cons_self
      refine hrest.trans ?_
      cases first with
      | made hproduct _ =>
          cases hproduct
          exact .of_insert_file (by simp)
      | there ha => cases ha

/-- **The first file of a new directory gets its name**, unless that cannot be a name at all. -/
theorem not_stray_in_new_directory {dir : Path} {last : Octets} {dd : Location} {name : Name}
    {content : Octets} (hwf : t.WellFormed) (hdir : t.InDirectory dir dd name)
    (hasks : dir.asksForDirectory = false) (hvacant : t.entry? (dd ++ [name]) = none)
    (hlast : Path.IsName last) (hplain : IsPlainName last)
    (hfault : (dir.join ⟨last⟩).fault? = none) (hparent : (dir.join ⟨last⟩).parent? = some dir)
    (hdraw : draw.name ≠ last) :
    ¬ Stray (t.insert (dd ++ [name]) (.directory directoryMode)) (dir.join ⟨last⟩) content draws
      file q draw := by
  intro h
  have hentry := entry?_insert_self (t := t) (e := .directory directoryMode) (l := dd ++ [name])
    (by simp)
  have hvacantBelow : entry? (t.insert (dd ++ [name]) (.directory directoryMode))
      (dd ++ [name] ++ [last]) = none := by
    rw [entry?_insert_of_ne (by simp)]
    exact hwf.vacant_below hvacant last
  have hthere := hdir.insert hvacant (.directory directoryMode)
  generalize t.insert (dd ++ [name]) (.directory directoryMode) = u at *
  have hleads := hthere.leads_names hasks hentry
  -- The temporary file is in the new directory, …
  obtain ⟨directory, hdirectory, hfile⟩ := h.parent
  rw [hparent] at hdirectory
  cases hdirectory
  have hq : q = dd ++ [name] := by
    have hin := h.inDirectory.leads
    rw [hfile, draw.isName.names_join, List.dropLast_concat] at hin
    exact hin.unique hleads
  -- … and its final name is vacant there.
  have htarget : u.InDirectory (dir.join ⟨last⟩) (dd ++ [name]) last := by
    refine ⟨hfault, hlast.getLast?_names_join, ?_, isDirectoryAt_iff.mpr ⟨_, hentry⟩, hplain⟩
    rw [hlast.names_join, List.dropLast_concat]
    exact hleads
  have hne : dd ++ [name] ++ [last] ≠ q ++ [draw.name] := by
    rw [hq]
    intro heq
    have hnames := (List.append_inj' heq rfl).2
    exact hdraw (List.cons.inj hnames).1.symm
  refine h.stuck _ ((htarget.insert h.vacant _).rename_eq
    hlast.asksForDirectory_join ?_ (fileAt_insert _ _ h.inDirectory h.asksForDirectory h.vacant))
  rw [entry?_insert_of_ne hne]
  exact hvacantBelow

/-- A drop-in whose file can have its name. -/
structure DropIn.IsModest (x : DropIn) : Prop where
  unit : '/' ∉ x.unit.toList
  name : '/' ∉ x.name.toList
  nul : 0 ∉ (Path.ofText (x.name ++ ".conf")).octets
  length_le : (Path.ofText (x.name ++ ".conf")).octets.length ≤ maxNameLength

namespace DropIn.IsModest

variable {x : DropIn}

theorem isPlainName (h : x.IsModest) : IsPlainName (Path.ofText (x.name ++ ".conf")).octets where
  ne_dot := (DropIn.isName_file h.name).ne_dot
  ne_dots := by
    intro hdots
    have hlength := congrArg List.length hdots
    rw [Path.ofText_append, List.length_append, show (Path.ofText ".conf").octets.length = 5 by
      decide] at hlength
    simp at hlength
  length_le := h.length_le

/-- A drop-in does not strand a temporary file in a directory that was made for it. -/
theorem not_stray {e : Entry} {dd : Location} {name : Name} {content : Octets} (h : x.IsModest)
    (hwf : t.WellFormed) (hroom : (d.directory.join x.path).octets.length ≤ Path.maxLength)
    (hmade : Made t (.directory (d.dropInDirectory x)) dd name e) :
    ¬ Stray (t.insert (dd ++ [name]) e) (d.directory.join x.path) content draws file q draw := by
  have hfirst := DropIn.isName_directory h.unit
  have hlast := DropIn.isName_file h.name
  have he : e = .directory directoryMode := hmade.fits
  rw [DropIn.join_path h.unit h.name] at hroom ⊢
  rw [he]
  refine not_stray_in_new_directory hwf hmade.inDirectory hfirst.asksForDirectory_join hmade.vacant
    hlast h.isPlainName (hlast.fault?_join hmade.inDirectory.fault h.nul hroom)
    (Path.parent?_join hfirst hlast) ?_
  have hname : (Path.ofText (x.name ++ ".conf")).octets =
      (Path.ofText x.name).octets ++ (Path.ofText ".conf").octets := Path.ofText_append _ _
  show draw.name ≠ (Path.ofText (x.name ++ ".conf")).octets
  rw [hname]
  exact draw.name_ne_append (by decide) (by decide)

end DropIn.IsModest

/-- A plan with at most one drop-in, whose file can have its name. -/
def Plan.HasLoneDropIn (plan : Plan) (d : Destination) : Prop :=
  plan.dropIns = [] ∨ ∃ x : DropIn, plan.dropIns = [x] ∧ x.IsModest ∧
    (d.directory.join x.path).octets.length ≤ Path.maxLength

namespace Plan.HasLoneDropIn

variable {rendered : List Destination.Rendered}

/-- The actions up to one that makes a file make files only, but for the directory of the
drop-in. -/
theorem before_file {p : Path} {content : String} (h : plan.HasLoneDropIn d)
    (hactions : d.actions rendered plan.dropIns = before ++ .makeFile p content draws :: after) :
    (∀ a ∈ before, ∃ p content draws, a = .makeFile p content draws) ∨
      ∃ x : DropIn, x.IsModest ∧ (d.directory.join x.path).octets.length ≤ Path.maxLength ∧
        p = d.directory.join x.path ∧
        before = rendered.map d.unitFile ++ [.ensureDirectory (d.dropInDirectory x)] := by
  have hunits : ∀ a ∈ rendered.map d.unitFile,
      ∃ p content draws, a = .makeFile p content draws := by
    intro a ha
    obtain ⟨r, -, rfl⟩ := List.mem_map.mp ha
    exact ⟨_, _, _, rfl⟩
  have hlinks : .makeFile p content draws ∉ rendered.flatMap d.links :=
    fun hmem => linkActions_make_no_file hmem _ _ _ rfl
  rw [Destination.actions, List.append_assoc] at hactions
  rcases List.append_eq_append_iff.mp hactions with ⟨first, hfirst, hrest⟩ | ⟨rest, hrest, -⟩
  · -- The file is not one of the units.
    rcases h with hnone | ⟨x, hone, hx, hroom⟩
    · rw [hnone, List.flatMap_nil, List.nil_append] at hrest
      exact absurd (hrest ▸ List.mem_append_right _ List.mem_cons_self) hlinks
    · rw [hone, List.flatMap_singleton, dropInFile_eq hx.unit hx.name] at hrest
      cases first with
      | nil => simp at hrest
      | cons a first =>
          simp only [List.cons_append, List.nil_append, List.cons.injEq] at hrest
          obtain ⟨rfl, hrest⟩ := hrest
          cases first with
          | nil =>
              rw [List.nil_append] at hrest
              obtain ⟨hfile, -⟩ := List.cons.inj hrest
              obtain ⟨hp, -, -⟩ := Action.makeFile.inj hfile
              exact Or.inr ⟨x, hx, hroom, hp.symm, hfirst⟩
          | cons b first =>
              rw [List.cons_append] at hrest
              obtain ⟨-, hlater⟩ := List.cons.inj hrest
              exact absurd (hlater ▸ List.mem_append_right _ List.mem_cons_self) hlinks
  · refine Or.inl fun a ha => hunits a ?_
    rw [hrest]
    exact List.mem_append_left _ ha

/-- **A temporary file of such a plan is where a directory was before.** -/
theorem exists_slot {p : Path} {content : String} {octets : Octets} (h : plan.HasLoneDropIn d)
    (hwf : t.WellFormed)
    (hactions : d.actions rendered plan.dropIns = before ++ .makeFile p content draws :: after)
    (hbefore : Performs t before made u) (hstray : Stray u p octets draws file q draw) :
    ∃ s, t.slot file = .ok s := by
  have hfound : u.KeepsWays t → ∃ s, t.slot file = .ok s :=
    fun hways => ⟨_, (hstray.inDirectory.of_keepsWays hways).slot⟩
  rcases h.before_file hactions with hfiles | ⟨x, hx, hroom, rfl, rfl⟩
  · exact hfound (hbefore.keepsWays hfiles)
  obtain ⟨first, v, second, hunits, hlast, -⟩ := hbefore.split
  have hways : v.KeepsWays t := by
    refine hunits.keepsWays fun a ha => ?_
    obtain ⟨r, -, rfl⟩ := List.mem_map.mp ha
    exact ⟨_, _, _, rfl⟩
  cases hlast with
  | cons hdone hnil =>
      cases hnil
      cases hdone with
      | made hproduct hmade =>
          cases hproduct
          exact absurd hstray (hx.not_stray (hunits.journal.wellFormed hwf) hroom hmade)
      | there => exact hfound hways

/-- **Such a plan leaves nothing if it cannot be applied.** -/
theorem restores {failure : Failure} (h : plan.HasLoneDropIn d) (hwf : t.WellFormed)
    (hvalue : ((d.submit plan).run t).1.value = .error failure) :
    ((d.submit plan).run t).2 = t := by
  have houtcome := submit_outcome d plan t
  rw [hvalue] at houtcome
  generalize ((d.submit plan).run t).2 = final at houtcome ⊢
  cases houtcome with
  | undecided => rfl
  | aborted hrender hactions hbefore hfailed =>
      refine (release_outcome hwf hbefore.journal hfailed).1.mpr ?_
      rintro ⟨file, howned, hslot⟩
      cases hfailed with
      | refused hnone =>
          rw [hnone] at howned
          cases howned
      | stray ha howned' hstray =>
          rw [howned'] at howned
          cases howned
          rw [ha] at hactions
          obtain ⟨s, hs⟩ := h.exists_slot hwf hactions hbefore hstray
          exact hslot s hs

end Plan.HasLoneDropIn

/-- The settings for an unlocked volume are modest. -/
theorem noTimeout_isModest (id : String) : (Unlocking.noTimeout id).IsModest where
  unit := slash_notMem_deviceUnit id
  name := show '/' ∉ "50-job-timeout-sec-0".toList by decide
  nul := show 0 ∉ (Path.ofText ("50-job-timeout-sec-0" ++ ".conf")).octets by decide
  length_le := show (Path.ofText ("50-job-timeout-sec-0" ++ ".conf")).octets.length ≤ maxNameLength
    by decide

theorem Plan.IsForRole.hasLoneDropIn (h : plan.IsForRole role)
    (hroom : (d.directory.join (Unlocking.noTimeout role.id).path).octets.length ≤ Path.maxLength) :
    plan.HasLoneDropIn d :=
  h.dropIns.imp_right fun hone => ⟨_, hone, noTimeout_isModest role.id, hroom⟩

end PartitionUnits
