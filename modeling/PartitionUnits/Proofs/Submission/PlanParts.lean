import PartitionUnits.Proofs.Submission.Parts

/-!
# The parts of a plan and what becomes of them

A submission makes the parts of its plan, one after the other, or it fails.

## Main Definitions

* `parts` — the parts of a plan, and what each of them is (`IsPartOf`)
* `PlainParts.actions_eq`, `PlainParts.entries_eq` — they are what the plan stands for
* `FilesFirst` — files in other directories come right after those in the first one
* `Strands`, `Stranded` — a new directory is left with nothing in it, and when that is so
* `SubmitVerdict`, `submit_verdict` — what a submission comes to, with the reasons

## Design Notes

A submission that fails leaves no more than the directory of the one part that has failed, and that
only if it was new and a temporary file was in it when the directory should have been removed.
-/

namespace PartitionUnits

open PartitionUnits.Tree

variable {t u v w : Tree} {d : Destination} {l q : Location} {n : Name} {x : Part}
  {rendered : List Destination.Rendered} {dropIns : List DropIn} {plan : Plan}
  {made : List Artifact} {aborted : Aborted}

/-! ## The parts of a plan -/

namespace Destination.Rendered

/-- The file of a unit. -/
def unitPart (r : Rendered) : Part where
  name := (Path.ofText r.unit.name).octets
  body := .file (r.unit.text r.check)

/-- The link for a dependency on a unit, if a link can express it. -/
def edgePart? (u : UnitFile) (e : Edge) : Option Part :=
  e.relation.linkSuffix?.map fun suffix =>
    { directory? := some (Path.ofText (e.source ++ suffix)).octets
      name := (Path.ofText u.name).octets
      body := .link (Path.ofText ("../" ++ u.name)) }

/-- The link for the check of the root file system. -/
def rootCheckPart : Part where
  directory? := some (Path.ofText "local-fs.target.wants").octets
  name := (Path.ofText "systemd-fsck-root.service").octets
  body := .link (Path.ofText "/usr/lib/systemd/system/systemd-fsck-root.service")

/-- The links for a unit. -/
def linkParts (r : Rendered) : List Part :=
  r.unit.reverseEdges.filterMap (edgePart? r.unit) ++
    if r.check = .rootLink then [rootCheckPart] else []

end Destination.Rendered

open Destination.Rendered

/-- The file of a drop-in. -/
def DropIn.part (x : DropIn) : Part where
  directory? := some (Path.ofText (x.unit ++ ".d")).octets
  name := (Path.ofText (x.name ++ ".conf")).octets
  body := .file x.content

/-- **The parts of a plan**, in the order in which they are made. -/
def parts (rendered : List Destination.Rendered) (dropIns : List DropIn) : List Part :=
  rendered.map unitPart ++ dropIns.map DropIn.part ++ rendered.flatMap linkParts

/-- **What a part of a plan is**: the file of a unit, that of a drop-in, the link for a dependency,
or the one for the check of the root file system. -/
inductive IsPartOf (rendered : List Destination.Rendered) (dropIns : List DropIn) :
    Part → Prop where
  | unit {r : Destination.Rendered} (hr : r ∈ rendered) : IsPartOf rendered dropIns (unitPart r)
  | dropIn {y : DropIn} (hy : y ∈ dropIns) : IsPartOf rendered dropIns y.part
  | edge {r : Destination.Rendered} {e : Edge} {x : Part} (hr : r ∈ rendered)
      (he : e ∈ r.unit.reverseEdges) (hedge : edgePart? r.unit e = some x) :
      IsPartOf rendered dropIns x
  | rootCheck {r : Destination.Rendered} (hr : r ∈ rendered) (hcheck : r.check = .rootLink) :
      IsPartOf rendered dropIns rootCheckPart

theorem isPartOf_of_mem (hx : x ∈ parts rendered dropIns) : IsPartOf rendered dropIns x := by
  rcases List.mem_append.mp hx with hx | hx
  · rcases List.mem_append.mp hx with hx | hx
    · obtain ⟨r, hr, rfl⟩ := List.mem_map.mp hx
      exact .unit hr
    · obtain ⟨y, hy, rfl⟩ := List.mem_map.mp hx
      exact .dropIn hy
  · obtain ⟨r, hr, hlink⟩ := List.mem_flatMap.mp hx
    rcases List.mem_append.mp hlink with hlink | hlink
    · obtain ⟨e, he, hedge⟩ := List.mem_filterMap.mp hlink
      exact .edge hr he hedge
    · split at hlink
      · next hcheck =>
          rw [List.mem_singleton.mp hlink]
          exact .rootCheck hr hcheck
      · cases hlink

/-- The directory of a part is one of its plan. -/
theorem directory_mem_directories (hx : x ∈ parts rendered dropIns) (hn : x.directory? = some n) :
    d.directory.join ⟨n⟩ ∈ d.directories rendered dropIns := by
  unfold Destination.directories
  cases isPartOf_of_mem hx with
  | unit => cases hn
  | dropIn hy =>
      cases hn
      exact List.mem_append_left _ (List.mem_map_of_mem hy)
  | @edge r e _ hr he hedge =>
      obtain ⟨suffix, hsuffix, rfl⟩ := Option.map_eq_some_iff.mp hedge
      cases hn
      refine List.mem_append_right _ (List.mem_flatMap.mpr ⟨r, hr, ?_⟩)
      refine List.mem_append_left _ (List.mem_filterMap.mpr ⟨e, he, ?_⟩)
      rw [Destination.edgeDirectory?, hsuffix]
      rfl
  | @rootCheck r hr hcheck =>
      cases hn
      refine List.mem_append_right _ (List.mem_flatMap.mpr ⟨r, hr, ?_⟩)
      refine List.mem_append_right _ ?_
      rw [if_pos hcheck]
      exact List.mem_singleton.mpr rfl

/-- Links can express all dependencies of other units on those of a plan. -/
def Expressible (rendered : List Destination.Rendered) : Prop :=
  ∀ r ∈ rendered, ∀ e ∈ r.unit.reverseEdges, e.relation.linkSuffix? ≠ none

namespace PlainParts

/-- The actions for a link are those of a part. -/
theorem edgeLink_eq_actions (h : PlainParts rendered dropIns) {r : Destination.Rendered}
    (hr : r ∈ rendered) {e : Edge} (he : e ∈ r.unit.reverseEdges)
    (hsuffix : e.relation.linkSuffix? ≠ none) :
    d.edgeLink r.unit e = (edgePart? r.unit e).toList.flatMap (·.actions d) := by
  obtain ⟨suffix, hsome⟩ := Option.ne_none_iff_exists'.mp hsuffix
  rw [edgeLink_eq hsome (h.edge r hr e he) (h.unit r hr), edgePart?, hsome]
  rfl

theorem links_eq (h : PlainParts rendered dropIns) (hlinks : Expressible rendered)
    {r : Destination.Rendered} (hr : r ∈ rendered) :
    d.links r = (linkParts r).flatMap (·.actions d) := by
  have hcheck : (if r.check = .rootLink then d.rootCheckLink else []) =
      (if r.check = .rootLink then [rootCheckPart] else []).flatMap (·.actions d) := by
    split
    · rw [rootCheckLink_eq]
      rfl
    · rfl
  unfold Destination.links linkParts
  rw [List.flatMap_append, hcheck, List.filterMap_eq_flatMap_toList, List.flatMap_assoc,
    List.flatMap_congr fun e he => h.edgeLink_eq_actions hr he (hlinks r hr e he)]

/-- **The actions of a plan are those of its parts.** -/
theorem actions_eq (h : PlainParts rendered dropIns) (hlinks : Expressible rendered) :
    d.actions rendered dropIns = (parts rendered dropIns).flatMap (·.actions d) := by
  have hunits : rendered.map d.unitFile = (rendered.map unitPart).flatMap (·.actions d) := by
    rw [List.flatMap_map, List.map_eq_flatMap]
    rfl
  have hdropIns : dropIns.flatMap d.dropInFile =
      (dropIns.map DropIn.part).flatMap (·.actions d) := by
    rw [List.flatMap_map]
    refine List.flatMap_congr fun x hx => ?_
    rw [dropInFile_eq (h.dropIn x hx).1 (h.dropIn x hx).2]
    simp only [Destination.dropInEntry,
      DropIn.join_path (d := d) (h.dropIn x hx).1 (h.dropIn x hx).2]
    rfl
  unfold Destination.actions parts
  rw [List.flatMap_append, List.flatMap_append, hunits, hdropIns, List.flatMap_assoc,
    List.flatMap_congr fun r hr => h.links_eq hlinks hr]

/-- **The entries of a plan are those of its parts.** -/
theorem entries_eq (h : PlainParts rendered dropIns) :
    d.entries rendered dropIns = (parts rendered dropIns).map fun x => (x.path d, x.entry) := by
  have hunits : rendered.map d.unitEntry =
      (rendered.map unitPart).map fun x => (x.path d, x.entry) := by
    rw [List.map_map]
    rfl
  have hdropIns : dropIns.map d.dropInEntry =
      (dropIns.map DropIn.part).map fun x => (x.path d, x.entry) := by
    rw [List.map_map]
    refine List.map_congr_left fun x hx => ?_
    simp only [Destination.dropInEntry,
      DropIn.join_path (d := d) (h.dropIn x hx).1 (h.dropIn x hx).2]
    rfl
  have hlinks : ∀ r, d.linkEntries r = (linkParts r).map fun x => (x.path d, x.entry) := by
    intro r
    unfold Destination.linkEntries linkParts
    rw [List.map_append, List.map_filterMap]
    congr 1
    · refine List.filterMap_congr fun e _ => ?_
      unfold Destination.edgeEntry? Destination.edgeDirectory? edgePart?
      cases e.relation.linkSuffix? <;> rfl
    · split <;> rfl
  unfold Destination.entries Destination.fileEntries parts
  rw [List.map_append, List.map_append, hunits, hdropIns, List.map_flatMap,
    List.flatMap_congr fun r _ => hlinks r]

end PlainParts

/-! ## What is left of a plan that cannot be applied -/

/-- Before a file there are only files that need no directory. -/
def FilesFirst (xs : List Part) : Prop :=
  ∀ before x after content, xs = before ++ x :: after → x.body = .file content →
    ∀ y ∈ before, y.directory? = none

/-- **Parts strand a directory**: the first that cannot be made leaves a temporary file in a
directory that was not there before. -/
inductive Strands (xs : List Part) (d : Destination) (l : Location) (n : Name) (t : Tree) :
    Prop where
  | intro {before : List Part} {x : Part} (hfirst : FirstMisfit xs d l t before x)
      (hstrays : x.Strays d l (layAll l before t)) (hdirectory : x.directory? = some n)
      (hvacant : t.entry? (l ++ [n]) = none)

/-- **A directory was stranded**: it is there, and nothing else is new. -/
structure Stranded (l : Location) (n : Name) (t w : Tree) : Prop where
  le : t ≤ w
  isDirectoryAt : w.isDirectoryAt (l ++ [n]) = true
  rest : ∀ l' e, w.entry? l' = some e → t.entry? l' = some e ∨ l' = l ++ [n]

/-- Files that need no directory add none. -/
theorem entry?_layAll_directory {xs : List Part} {mode : Nat} {l' : Location}
    (hxs : ∀ x ∈ xs, x.IsRegular) (hnone : ∀ x ∈ xs, x.directory? = none)
    (h : Tree.entry? (layAll l xs t) l' = some (.directory mode)) :
    t.entry? l' = some (.directory mode) := by
  induction xs generalizing t with
  | nil => exact h
  | cons x rest ih =>
      have hlay := ih (fun y hy => hxs y (List.mem_cons_of_mem _ hy))
        (fun y hy => hnone y (List.mem_cons_of_mem _ hy)) h
      have hdirectory := hnone x List.mem_cons_self
      have hplace : l' ≠ x.place l := by
        rintro rfl
        rw [Part.entry?_lay_self, Part.entry] at hlay
        split at hlay
        · cases hlay
        · next hbody => exact (hxs x List.mem_cons_self).sheltered _ hbody hdirectory
      rwa [Part.entry?_lay_of_ne hplace (Or.inr hdirectory)] at hlay

/-- A temporary file in a directory that was there before goes without a trace. -/
theorem OwnsTemporary.undone {file : Path} {draw : Draw} {p : Path} {f : Entry}
    (h : OwnsTemporary aborted file draw p) (hwf : t.WellFormed) (hleads : t.LeadsTo p q)
    (hjournal : Journal t made u) (hvacant : u.entry? (q ++ [draw.name]) = none)
    (hf : f.isDirectory = false) :
    (aborted.release.run ((rollBack made).run (u.insert (q ++ [draw.name]) f)).2).2 = t := by
  have hin := h.inDirectory t q hleads
  exact stray_gone hwf hjournal h.asksForDirectory (hin.of_keepsWays (.of_le hjournal.le)) hvacant
    hf h.owned hin.slot

/-- A temporary file in a directory that was not there before goes, and the directory stays. -/
theorem OwnsTemporary.stranded {file : Path} {draw : Draw} {f : Entry} (hl : d.LiesAt t l)
    (h : OwnsTemporary aborted file draw (d.directory.join ⟨n⟩)) (hn : IsOrdinaryName n)
    (hplain : IsPlainName n) (hjournal : Journal t made u)
    (hvacant : u.entry? (l ++ [n] ++ [draw.name]) = none)
    (hdirectory : u.isDirectoryAt (l ++ [n]) = true) (hf : f.isDirectory = false)
    (hnew : ∀ l' mode, u.entry? l' = some (.directory mode) → t.entry? l' = none → l' = l ++ [n]) :
    Stranded l n t
      (aborted.release.run ((rollBack made).run (u.insert (l ++ [n] ++ [draw.name]) f)).2).2 := by
  have hnone := entry?_eq_none_of_le hjournal.le hvacant
  have hleft := stray_leftover (f := f) hjournal hvacant
  have hle : ((rollBack made).run (u.insert (l ++ [n] ++ [draw.name]) f)).2 ≤ _ := rollBack_le made
  have hwf : ((rollBack made).run (u.insert (l ++ [n] ++ [draw.name]) f)).2.WellFormed :=
    Script.wellFormed_of_mem_states ((hjournal.wellFormed hl.wellFormed).insert hdirectory hvacant)
      (Script.run_mem_states _)
  generalize ((rollBack made).run (u.insert (l ++ [n] ++ [draw.name]) f)).2 = w at hleft hle hwf
  -- The directory has kept the temporary file, which can still be found there.
  have hthere := hwf.parent hleft.stray
  obtain ⟨mode, hmode⟩ := isDirectoryAt_iff.mp hthere
  have hleads := (hl.leads.of_le hleft.le).join hn.isName hplain hmode
  rw [run_release_of_some h.owned, (h.inDirectory w _ hleads).apply_removeFile h.asksForDirectory
    hleft.stray hf]
  refine ⟨le_erase_of_le hleft.le hnone, ?_, fun l' e hentry => ?_⟩
  · rwa [isDirectoryAt_congr (entry?_erase_of_ne (by simp))]
  · have hne : l' ≠ l ++ [n] ++ [draw.name] := by
      rintro rfl
      rw [entry?_erase_self (by simp)] at hentry
      cases hentry
    rw [entry?_erase_of_ne hne] at hentry
    rcases hleft.rest l' e hentry with hold | ⟨hstray, -⟩ | ⟨rfl, hgone⟩
    · exact Or.inl hold
    · exact absurd hstray hne
    · have hentry' := entry?_of_le hle hentry
      rw [entry?_insert_of_ne hne] at hentry'
      exact Or.inr (hnew l' _ hentry' hgone)

/-- **What a submission comes to**, with the reasons. -/
inductive SubmitVerdict (xs : List Part) (d : Destination) (l : Location) (t : Tree) :
    Except Failure Unit → Tree → Prop where
  | laid (hfit : FitAll d l xs t) : SubmitVerdict xs d l t (.ok ()) (layAll l xs t)
  | undone {failure : Failure} (hnot : ¬ FitAll d l xs t) (hno : ∀ n, ¬ Strands xs d l n t) :
      SubmitVerdict xs d l t (.error failure) t
  | stranded {failure : Failure} {n : Name} {w : Tree} (h : Strands xs d l n t)
      (hleft : Stranded l n t w) : SubmitVerdict xs d l t (.error failure) w

/-- Parts strand a directory only if the first that cannot be made has it. -/
theorem Strands.of_firstMisfit {xs before : List Part} (h : Strands xs d l n t)
    (hfirst : FirstMisfit xs d l t before x) :
    x.Strays d l (layAll l before t) ∧ x.directory? = some n ∧ t.entry? (l ++ [n]) = none := by
  obtain ⟨hfirst', hstrays, hdirectory, hvacant⟩ := h
  obtain ⟨rfl, rfl⟩ := hfirst.unique hfirst'
  exact ⟨hstrays, hdirectory, hvacant⟩

theorem Strands.not_fitAll {xs : List Part} (h : Strands xs d l n t) : ¬ FitAll d l xs t := by
  obtain ⟨hfirst, -, -, -⟩ := h
  exact hfirst.not_fitAll

namespace SubmitVerdict

variable {xs : List Part} {result : Except Failure Unit}

/-- A submission succeeds if its parts can be made. -/
theorem eq_of_fitAll (h : SubmitVerdict xs d l t result w) (hfit : FitAll d l xs t) :
    result = .ok () ∧ w = layAll l xs t := by
  cases h with
  | laid => exact ⟨rfl, rfl⟩
  | undone hnot => exact absurd hfit hnot
  | stranded hstrands => exact absurd hfit hstrands.not_fitAll

/-- A submission fails if its parts cannot be made. -/
theorem of_not_fitAll (h : SubmitVerdict xs d l t result w) (hnot : ¬ FitAll d l xs t) :
    (∃ failure, result = .error failure) ∧
      (w = t ∨ ∃ n, Strands xs d l n t ∧ Stranded l n t w) := by
  cases h with
  | laid hfit => exact absurd hfit hnot
  | undone => exact ⟨⟨_, rfl⟩, Or.inl rfl⟩
  | stranded hstrands hleft => exact ⟨⟨_, rfl⟩, Or.inr ⟨_, hstrands, hleft⟩⟩

/-- **A submission succeeds just if its parts can be made.** -/
theorem eq_ok_iff (h : SubmitVerdict xs d l t result w) : result = .ok () ↔ FitAll d l xs t := by
  constructor
  · intro hok
    by_contra hnot
    obtain ⟨⟨failure, herror⟩, -⟩ := h.of_not_fitAll hnot
    rw [hok] at herror
    cases herror
  · exact fun hfit => (h.eq_of_fitAll hfit).1

end SubmitVerdict

/-- Parts that were refused without a temporary file are undone. -/
theorem Stops.undone_of_none {acts : List Action} (h : Stops t acts made u aborted v)
    (hwf : t.WellFormed) (howned : aborted.temporary = none) :
    (aborted.release.run ((rollBack made).run v).2).2 = t := by
  obtain ⟨a, -, hfailed⟩ := h.failed
  cases hfailed with
  | refused => rw [rollBack_of_journal hwf h.journal, run_release_of_none howned]
  | stray _ howned' =>
      rw [howned] at howned'
      cases howned'

section

variable {before : List Part} {file : Path} {draw : Draw} {failure : Failure} {xs : List Part}

/-- **A part that leaves a temporary file** is undone, but for its directory if that is new. -/
theorem FirstMisfit.stray_verdict (hmisfit : FirstMisfit xs d l t before x) (hl : d.LiesAt t l)
    (hregular : ∀ x ∈ xs, x.IsRegular) (hfirst : FilesFirst xs)
    (hstrays : x.Strays d l (layAll l before t))
    (hjournal : Journal t made (x.ground l (layAll l before t)))
    (howns : OwnsTemporary aborted file draw (x.homePath d))
    (hvacant : Tree.entry? (x.ground l (layAll l before t)) (x.home l ++ [draw.name]) = none) :
    SubmitVerdict xs d l t (.error failure) (aborted.release.run ((rollBack made).run
      ((x.ground l (layAll l before t)).insert (x.home l ++ [draw.name]) x.entry)).2).2 := by
  obtain ⟨after, hsplit⟩ := hmisfit.split
  obtain ⟨content, hbody⟩ := hstrays.file
  have hnone := hfirst before x after content hsplit hbody
  have hbefore : ∀ y ∈ before, y.IsRegular := fun y hy =>
    hregular y (hsplit ▸ List.mem_append_left _ hy)
  have hx : x.IsRegular := hregular x (hsplit ▸ List.mem_append_right _ List.mem_cons_self)
  cases hn : x.directory? with
  | none =>
      have hleads : t.LeadsTo (x.homePath d) (x.home l) := by
        simp only [Part.homePath, Part.home, hn, Option.toList_none, List.append_nil]
        exact hl.leads
      rw [howns.undone hl.wellFormed hleads hjournal hvacant x.isDirectory_entry]
      refine .undone hmisfit.not_fitAll fun n hstrands => ?_
      rw [(hstrands.of_firstMisfit hmisfit).2.1] at hn
      cases hn
  | some n =>
      obtain ⟨-, hplain, hopen⟩ := hstrays.opens n hn
      have hhome : x.home l = l ++ [n] := by rw [Part.home, hn, Option.toList_some]
      have hpath : x.homePath d = d.directory.join ⟨n⟩ := by simp only [Part.homePath, hn]
      rw [hpath] at howns
      cases hentry : t.entry? (l ++ [n]) with
      | none =>
          refine .stranded (.intro hmisfit hstrays hn hentry) ?_
          have hthere : (x.ground l (layAll l before t)).isDirectoryAt (x.home l) = true :=
            hstrays.opens.isDirectoryAt_ground
              (isDirectoryAt_of_le hmisfit.fit.le_layAll hl.leads.isDirectoryAt)
          rw [hhome] at hvacant hthere ⊢
          refine howns.stranded hl (hx.directory n hn) hplain hjournal hvacant hthere
            x.isDirectory_entry fun l' mode hnew hgone => ?_
          by_contra hne
          rw [Part.entry?_ground_of_ne (Or.inl (hhome ▸ hne))] at hnew
          rw [entry?_layAll_directory hbefore hnone hnew] at hgone
          cases hgone
      | some e =>
          have hthere : t.isDirectoryAt (l ++ [n]) = true := by
            rw [isDirectoryAt, hentry]
            exact hopen e (entry?_of_le hmisfit.fit.le_layAll hentry)
          obtain ⟨mode, hmode⟩ := isDirectoryAt_iff.mp hthere
          have hleads := hl.leads.join (hx.directory n hn).isName hplain hmode
          rw [hhome] at hvacant ⊢
          rw [howns.undone hl.wellFormed hleads hjournal hvacant x.isDirectory_entry]
          refine .undone hmisfit.not_fitAll fun n' hstrands => ?_
          obtain ⟨-, hn', hvacant'⟩ := hstrands.of_firstMisfit hmisfit
          rw [hn] at hn'
          cases hn'
          rw [hentry] at hvacant'
          cases hvacant'

end

/-- **A submission makes the parts of its plan, or fails and leaves at most an empty directory.** -/
theorem submit_verdict (hl : d.LiesAt t l) (hdecided : d.Decided plan.units rendered)
    (hplain : PlainParts rendered plan.dropIns) (hlinks : Expressible rendered)
    (hregular : ∀ x ∈ parts rendered plan.dropIns, x.IsRegular)
    (hfirst : FilesFirst (parts rendered plan.dropIns)) :
    SubmitVerdict (parts rendered plan.dropIns) d l t ((d.submit plan).run t).1.value
      ((d.submit plan).run t).2 := by
  have hrender := render_eq_ok_iff.mpr hdecided
  have hactions := hplain.actions_eq (d := d) hlinks
  cases hl.parts_verdict hregular with
  | laid hfit hcompletes =>
      rw [← hactions] at hcompletes
      obtain ⟨hvalue, htree⟩ := submit_of_completes hrender hcompletes
      rw [hvalue, htree]
      exact .laid hfit
  | refused hmisfit hgone hstops howned =>
      rw [← hactions] at hstops
      obtain ⟨hvalue, htree⟩ := submit_of_stops hrender hstops
      rw [hvalue, htree, hstops.undone_of_none hl.wellFormed howned]
      exact .undone hmisfit.not_fitAll fun n h => hgone (h.of_firstMisfit hmisfit).1
  | stray hmisfit hstrays hstops howns hvacant =>
      rw [← hactions] at hstops
      obtain ⟨hvalue, htree⟩ := submit_of_stops hrender hstops
      rw [hvalue, htree]
      exact hmisfit.stray_verdict hl hregular hfirst hstrays hstops.journal howns hvacant

end PartitionUnits
