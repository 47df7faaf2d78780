import PartitionUnits.Proofs.Attempt
import PartitionUnits.Proofs.Submission.Actions

/-!
# What a submission adds

A submission that succeeds adds the entries of its plan and the directories that they need, and
does nothing else.

## Main Definitions

* `Extends` — one tree is another with given entries and the directories for them
* `Performs.extends` — what a list of actions that were all done adds
* `Destination.entries`, `Destination.directories` — what a plan stands for, read off the plan
* `submit_ok_extends` — a submission that succeeds adds just this

## Design Notes

`Extends` composes, so it is proved for one action and holds for lists of them and for several
submissions after each other.  What a plan stands for is said without the order of the actions and
without `Path.parent?`; that both agree rests on `Path.parent?_join`.
-/

namespace PartitionUnits

open PartitionUnits.Tree

variable {t t' u v : Tree} {es es' : List (Path × Entry)} {ds ds' : List Path} {p : Path}
  {e : Entry}

/-- **One tree is another with given entries and the directories for them.**  Nothing that was
there has changed, every entry is new and is where its path says, and nothing else is new but those
of the directories that were not there. -/
structure Extends (t : Tree) (entries : List (Path × Entry)) (directories : List Path)
    (t' : Tree) : Prop where
  kept : t ≤ t'
  found : ∀ x ∈ entries, t'.find false x.1 = .ok x.2
  absent : ∀ x ∈ entries, ∀ e, t.find false x.1 ≠ .ok e
  nodup : (entries.map Prod.fst).Nodup
  isDirectory : ∀ p ∈ directories, t'.isDirectory p = true
  new : ∀ l e, t'.entry? l = some e →
    t.entry? l = some e ∨ (∃ p, (p, e) ∈ entries ∧ t'.locate false p = .ok l) ∨
      t.entry? l = none ∧ e = .directory directoryMode ∧
        ∃ p ∈ directories, t'.locate true p = .ok l

theorem isDirectory_of_le (hle : t ≤ t') (h : t.isDirectory p = true) :
    t'.isDirectory p = true := by
  obtain ⟨l, mode, hl, hentry⟩ := isDirectory_iff.mp h
  exact isDirectory_iff.mpr ⟨l, mode, locate_of_le hle hl, entry?_of_le hle hentry⟩

namespace Extends

theorem refl (t : Tree) : Extends t [] [] t where
  kept := le_refl t
  found := by simp
  absent := by simp
  nodup := by simp
  isDirectory := by simp
  new := fun _ _ h => Or.inl h

/-- **What is added in two steps is added.** -/
theorem trans (h : Extends t es ds u) (h' : Extends u es' ds' v) :
    Extends t (es ++ es') (ds ++ ds') v where
  kept := le_trans h.kept h'.kept
  found := by
    intro x hx
    rcases List.mem_append.mp hx with hx | hx
    · exact find_of_le h'.kept (h.found x hx)
    · exact h'.found x hx
  absent := by
    intro x hx e hfind
    rcases List.mem_append.mp hx with hx | hx
    · exact h.absent x hx e hfind
    · exact h'.absent x hx e (find_of_le h.kept hfind)
  nodup := by
    rw [List.map_append, List.nodup_append]
    refine ⟨h.nodup, h'.nodup, ?_⟩
    intro p hp p' hp' heq
    obtain ⟨x, hx, rfl⟩ := List.mem_map.mp hp
    obtain ⟨x', hx', rfl⟩ := List.mem_map.mp hp'
    -- The first is there when the second is made.
    have hfind := h.found x hx
    rw [heq] at hfind
    exact h'.absent x' hx' _ hfind
  isDirectory := by
    intro p hp
    rcases List.mem_append.mp hp with hp | hp
    · exact isDirectory_of_le h'.kept (h.isDirectory p hp)
    · exact h'.isDirectory p hp
  new := by
    intro l e hentry
    rcases h'.new l e hentry with hold | ⟨p, hp, hl⟩ | ⟨hnone, he, p, hp, hl⟩
    · rcases h.new l e hold with hold | ⟨p, hp, hl⟩ | ⟨hnone, he, p, hp, hl⟩
      · exact Or.inl hold
      · exact Or.inr (Or.inl ⟨p, List.mem_append_left _ hp, locate_of_le h'.kept hl⟩)
      · exact Or.inr (Or.inr
          ⟨hnone, he, p, List.mem_append_left _ hp, locate_of_le h'.kept hl⟩)
    · exact Or.inr (Or.inl ⟨p, List.mem_append_right _ hp, hl⟩)
    · exact Or.inr (Or.inr
        ⟨entry?_eq_none_of_le h.kept hnone, he, p, List.mem_append_right _ hp, hl⟩)

/-- One entry was added. -/
theorem insert {d : Location} {name : Name} (hin : t.InDirectory p d name)
    (hasks : p.asksForDirectory = false) (hvacant : t.entry? (d ++ [name]) = none) :
    Extends t [(p, e)] [] (t.insert (d ++ [name]) e) where
  kept := le_insert hvacant
  found := by
    intro x hx
    rw [List.mem_singleton.mp hx]
    exact ((hin.insert hvacant _).find_iff hasks).mpr
      (entry?_insert_self (by simp))
  absent := by
    intro x hx e' hfind
    rw [List.mem_singleton.mp hx, hin.find_iff hasks, hvacant] at hfind
    cases hfind
  nodup := by simp
  isDirectory := by simp
  new := by
    intro l e' hentry
    rcases entry?_insert_eq_some (by simp) hentry with ⟨rfl, rfl⟩ | ⟨-, hold⟩
    · refine Or.inr (Or.inl ⟨p, List.mem_singleton.mpr rfl, ?_⟩)
      exact ((hin.insert hvacant _).locate_iff hasks).mpr ⟨rfl, _, hentry⟩
    · exact Or.inl hold

/-- One directory was added. -/
theorem insert_directory {d : Location} {name : Name} (hin : t.InDirectory p d name)
    (hvacant : t.entry? (d ++ [name]) = none) :
    Extends t [] [p] (t.insert (d ++ [name]) (.directory directoryMode)) := by
  have hlocate : (t.insert (d ++ [name]) (.directory directoryMode)).locate true p =
      .ok (d ++ [name]) :=
    (hin.insert hvacant _).locate_directory (entry?_insert_self (by simp))
  constructor
  · exact le_insert hvacant
  · simp
  · simp
  · simp
  · intro p' hp'
    rw [List.mem_singleton.mp hp']
    exact isDirectory_iff.mpr ⟨_, _, hlocate, entry?_insert_self (by simp)⟩
  · intro l e' hentry
    rcases entry?_insert_eq_some (by simp) hentry with ⟨rfl, rfl⟩ | ⟨-, hold⟩
    · exact Or.inr (Or.inr ⟨hvacant, rfl, p, List.mem_singleton.mpr rfl, hlocate⟩)
    · exact Or.inl hold

/-- A directory that is needed was there. -/
theorem there (h : t.isDirectory p = true) : Extends t [] [p] t where
  kept := le_refl t
  found := by simp
  absent := by simp
  nodup := by simp
  isDirectory := by
    intro p' hp'
    rw [List.mem_singleton.mp hp']
    exact h
  new := fun _ _ h => Or.inl h

end Extends

/-! ## What actions add -/

namespace Action

/-- The file or the link that an action makes. -/
def entry? (a : Action) : Option (Path × Entry) :=
  match a.product? with
  | some (.file p, e) => some (p, e)
  | _ => none

/-- The directory that an action makes sure of. -/
def directory? (a : Action) : Option Path :=
  match a.product? with
  | some (.directory p, _) => some p
  | _ => none

end Action

theorem Performed.extends {a : Action} {artifact? : Option Artifact}
    (h : Performed t a artifact? u) : Extends t a.entry?.toList a.directory?.toList u := by
  cases h with
  | @made artifact d name e hproduct hmade =>
      cases artifact with
      | file p =>
          have hentry : a.entry? = some (p, e) := by simp only [Action.entry?, hproduct]
          have hdirectory : a.directory? = none := by simp only [Action.directory?, hproduct]
          rw [hentry, hdirectory]
          exact .insert hmade.inDirectory hmade.fits.1 hmade.vacant
      | directory p =>
          have hentry : a.entry? = none := by simp only [Action.entry?, hproduct]
          have hdirectory : a.directory? = some p := by simp only [Action.directory?, hproduct]
          have he : e = .directory directoryMode := hmade.fits
          rw [hentry, hdirectory, he]
          exact .insert_directory hmade.inDirectory hmade.vacant
  | @there p ha h =>
      rw [ha]
      exact .there h

/-- **What a list of actions adds**: the files and the links, and the directories that were not
there. -/
theorem Performs.extends {acts : List Action} {made : List Artifact}
    (h : Performs t acts made u) :
    Extends t (acts.filterMap Action.entry?) (acts.filterMap Action.directory?) u := by
  induction h with
  | nil => exact .refl _
  | @cons t u v a rest artifact? later first _ ih =>
      have hboth := first.extends.trans ih
      have hentries : (a :: rest).filterMap Action.entry? =
          a.entry?.toList ++ rest.filterMap Action.entry? := by
        cases hentry : a.entry? with
        | none => simp [hentry]
        | some x => simp [hentry]
      have hdirectories : (a :: rest).filterMap Action.directory? =
          a.directory?.toList ++ rest.filterMap Action.directory? := by
        cases hdirectory : a.directory? with
        | none => simp [hdirectory]
        | some p => simp [hdirectory]
      rw [hentries, hdirectories]
      exact hboth

/-! ## What a plan stands for -/

/-- A generated file with a text. -/
def textFile (content : String) : Entry :=
  .file fileMode (.octets (Text.encode content.toList))

namespace Destination

/-- The file of a unit. -/
def unitEntry (d : Destination) (r : Rendered) : Path × Entry :=
  (d.directory.join (Path.ofText r.unit.name), textFile (r.unit.text r.check))

/-- The file of a drop-in. -/
def dropInEntry (d : Destination) (x : DropIn) : Path × Entry :=
  (d.directory.join x.path, textFile x.content)

/-- The directory of a drop-in. -/
def dropInDirectory (d : Destination) (x : DropIn) : Path :=
  d.directory.join (Path.ofText (x.unit ++ ".d"))

/-- The directory of the link for a dependency, if a link can express it. -/
def edgeDirectory? (d : Destination) (e : Edge) : Option Path :=
  e.relation.linkSuffix?.map fun suffix => d.directory.join (Path.ofText (e.source ++ suffix))

/-- The link for a dependency on a unit. -/
def edgeEntry? (d : Destination) (u : UnitFile) (e : Edge) : Option (Path × Entry) :=
  (d.edgeDirectory? e).map fun directory =>
    (directory.join (Path.ofText u.name), .link (Path.ofText ("../" ++ u.name)).octets)

/-- The directory of the link for the check of the root file system. -/
def rootCheckDirectory (d : Destination) : Path :=
  d.directory.join (Path.ofText "local-fs.target.wants")

/-- The link for the check of the root file system. -/
def rootCheckEntry (d : Destination) : Path × Entry :=
  (d.rootCheckDirectory.join (Path.ofText "systemd-fsck-root.service"),
    .link (Path.ofText "/usr/lib/systemd/system/systemd-fsck-root.service").octets)

/-- The links for a unit. -/
def linkEntries (d : Destination) (r : Rendered) : List (Path × Entry) :=
  r.unit.reverseEdges.filterMap (d.edgeEntry? r.unit) ++
    if r.check = .rootLink then [d.rootCheckEntry] else []

/-- The directories of the links for a unit. -/
def linkDirectories (d : Destination) (r : Rendered) : List Path :=
  r.unit.reverseEdges.filterMap d.edgeDirectory? ++
    if r.check = .rootLink then [d.rootCheckDirectory] else []

/-- The files of a plan. -/
def fileEntries (d : Destination) (rendered : List Rendered) (dropIns : List DropIn) :
    List (Path × Entry) :=
  rendered.map d.unitEntry ++ dropIns.map d.dropInEntry

/-- **The files and the links of a plan.** -/
def entries (d : Destination) (rendered : List Rendered) (dropIns : List DropIn) :
    List (Path × Entry) :=
  d.fileEntries rendered dropIns ++ rendered.flatMap d.linkEntries

/-- **The directories of a plan**, besides the one that it is applied in. -/
def directories (d : Destination) (rendered : List Rendered) (dropIns : List DropIn) : List Path :=
  dropIns.map d.dropInDirectory ++ rendered.flatMap d.linkDirectories

end Destination

/-- No name in a plan has a slash in it. -/
structure Plan.HasPlainNames (plan : Plan) : Prop where
  unit : ∀ u ∈ plan.units, '/' ∉ u.name.toList
  edge : ∀ u ∈ plan.units, ∀ e ∈ u.edges, '/' ∉ e.source.toList
  dropIn : ∀ x ∈ plan.dropIns, '/' ∉ x.unit.toList ∧ '/' ∉ x.name.toList

/-- Units with what was decided about their checks. -/
def Destination.Decided (d : Destination) : List UnitFile → List Destination.Rendered → Prop :=
  List.Forall₂ fun u r =>
    r.unit = u ∧
      match u.check with
      | none => r.check = .none
      | some request => (request.resolve d.inInitrd d.hasHelper).run.value = .ok r.check

/-! ## The actions of a plan with plain names -/

variable {d : Destination} {plan : Plan} {first last : Octets}

theorem withDirectory_join (hfirst : Path.IsName first) (hlast : Path.IsName last) (a : Action) :
    Destination.withDirectory ((p.join ⟨first⟩).join ⟨last⟩) a =
      [.ensureDirectory (p.join ⟨first⟩), a] := by
  rw [Destination.withDirectory, Path.parent?_join hfirst hlast]
  rfl

/-- The two names of a drop-in's path below the directory that plans are applied in. -/
theorem DropIn.isName_directory {x : DropIn} (hunit : '/' ∉ x.unit.toList) :
    Path.IsName (Path.ofText (x.unit ++ ".d")).octets :=
  .ofText_append hunit (by decide) (by decide)

theorem DropIn.isName_file {x : DropIn} (hname : '/' ∉ x.name.toList) :
    Path.IsName (Path.ofText (x.name ++ ".conf")).octets :=
  .ofText_append hname (by decide) (by decide)

theorem DropIn.join_path {x : DropIn} (hunit : '/' ∉ x.unit.toList) (hname : '/' ∉ x.name.toList) :
    d.directory.join x.path = (d.dropInDirectory x).join (Path.ofText (x.name ++ ".conf")) :=
  Path.join_join (DropIn.isName_directory hunit) (DropIn.isName_file hname)

/-- The file of a drop-in and its directory, for plain names. -/
theorem dropInFile_eq {x : DropIn} (hunit : '/' ∉ x.unit.toList) (hname : '/' ∉ x.name.toList) :
    d.dropInFile x =
      [.ensureDirectory (d.dropInDirectory x),
        .makeFile (d.dropInEntry x).1 x.content (d.draws (d.dropInEntry x).1)] := by
  unfold Destination.dropInFile
  simp only [Destination.dropInEntry, DropIn.join_path hunit hname]
  exact withDirectory_join (DropIn.isName_directory hunit) (DropIn.isName_file hname) _

/-- A link that can be made and its directory, for plain names. -/
theorem edgeLink_eq {u : UnitFile} {e : Edge} {suffix : String}
    (hsuffix : e.relation.linkSuffix? = some suffix) (hsource : '/' ∉ e.source.toList)
    (hname : Path.IsName (Path.ofText u.name).octets) :
    d.edgeLink u e =
      [.ensureDirectory (d.directory.join (Path.ofText (e.source ++ suffix))),
        .makeLink (Path.ofText ("../" ++ u.name))
          ((d.directory.join (Path.ofText (e.source ++ suffix))).join (Path.ofText u.name))] := by
  have hplain : '/' ∉ suffix.toList ∧ 2 ≤ (Path.ofText suffix).octets.length := by
    cases hrelation : e.relation <;> rw [hrelation] at hsuffix <;> cases hsuffix <;> decide
  have hfirst : Path.IsName (Path.ofText (e.source ++ suffix)).octets :=
    .ofText_append hsource hplain.1 hplain.2
  have htarget : (Path.ofText "..").join (Path.ofText u.name) = Path.ofText ("../" ++ u.name) := by
    have hjoin : (Path.ofText "..").join ⟨(Path.ofText u.name).octets⟩ = _ :=
      hname.join_eq (by decide) (by decide)
    have hoctets : (Path.ofText ("../" ++ u.name)).octets =
        (Path.ofText "..").octets ++ slash :: (Path.ofText u.name).octets := by
      rw [Path.ofText_append, show (Path.ofText "../").octets = (Path.ofText "..").octets ++ [slash]
        by decide, List.append_assoc, List.singleton_append]
    exact hjoin.trans (congrArg Path.mk hoctets.symm)
  unfold Destination.edgeLink
  rw [hsuffix]
  simp only [htarget]
  exact withDirectory_join hfirst hname _

/-- The link for the check of the root file system and its directory. -/
theorem rootCheckLink_eq : d.rootCheckLink =
    [.ensureDirectory d.rootCheckDirectory,
      .makeLink (Path.ofText "/usr/lib/systemd/system/systemd-fsck-root.service")
        d.rootCheckEntry.1] := by
  have hfirst : Path.IsName (Path.ofText "local-fs.target.wants").octets := by
    constructor <;> decide
  have hlast : Path.IsName (Path.ofText "systemd-fsck-root.service").octets := by
    constructor <;> decide
  have htarget : Destination.systemUnits.join (Path.ofText rootCheckService) =
      Path.ofText "/usr/lib/systemd/system/systemd-fsck-root.service" := by
    decide
  unfold Destination.rootCheckLink
  simp only [htarget]
  exact withDirectory_join hfirst hlast _

/-- Units and drop-ins whose names are names of paths. -/
structure PlainParts (rendered : List Destination.Rendered) (dropIns : List DropIn) : Prop where
  unit : ∀ r ∈ rendered, Path.IsName (Path.ofText r.unit.name).octets
  edge : ∀ r ∈ rendered, ∀ e ∈ r.unit.reverseEdges, '/' ∉ e.source.toList
  dropIn : ∀ x ∈ dropIns, '/' ∉ x.unit.toList ∧ '/' ∉ x.name.toList

namespace PlainParts

variable {rendered : List Destination.Rendered} {dropIns : List DropIn}

/-- What the link for one dependency and its directory stand for. -/
theorem filterMap_edgeLink (h : PlainParts rendered dropIns) {r : Destination.Rendered}
    (hr : r ∈ rendered) {e : Edge} (he : e ∈ r.unit.reverseEdges) :
    (d.edgeLink r.unit e).filterMap Action.entry? = (d.edgeEntry? r.unit e).toList ∧
      (d.edgeLink r.unit e).filterMap Action.directory? = (d.edgeDirectory? e).toList := by
  cases hsuffix : e.relation.linkSuffix? with
  | none =>
      have hnone : d.edgeDirectory? e = none := by rw [Destination.edgeDirectory?, hsuffix]; rfl
      rw [Destination.edgeLink, hsuffix, Destination.edgeEntry?, hnone]
      exact ⟨rfl, rfl⟩
  | some suffix =>
      have hsome : d.edgeDirectory? e =
          some (d.directory.join (Path.ofText (e.source ++ suffix))) := by
        rw [Destination.edgeDirectory?, hsuffix]
        rfl
      rw [edgeLink_eq hsuffix (h.edge r hr e he) (h.unit r hr), Destination.edgeEntry?, hsome]
      exact ⟨rfl, rfl⟩

theorem filterMap_links (h : PlainParts rendered dropIns) {r : Destination.Rendered}
    (hr : r ∈ rendered) :
    (d.links r).filterMap Action.entry? = d.linkEntries r ∧
      (d.links r).filterMap Action.directory? = d.linkDirectories r := by
  have hcheck : (if r.check = .rootLink then d.rootCheckLink else []).filterMap Action.entry? =
        (if r.check = .rootLink then [d.rootCheckEntry] else []) ∧
      (if r.check = .rootLink then d.rootCheckLink else []).filterMap Action.directory? =
        if r.check = .rootLink then [d.rootCheckDirectory] else [] := by
    split
    · rw [rootCheckLink_eq]
      exact ⟨rfl, rfl⟩
    · exact ⟨rfl, rfl⟩
  unfold Destination.links Destination.linkEntries Destination.linkDirectories
  rw [List.filterMap_append, List.filterMap_append, hcheck.1, hcheck.2, List.filterMap_flatMap,
    List.filterMap_flatMap, List.filterMap_eq_flatMap_toList, List.filterMap_eq_flatMap_toList,
    List.flatMap_congr fun e he => (h.filterMap_edgeLink (d := d) hr he).1,
    List.flatMap_congr fun e he => (h.filterMap_edgeLink (d := d) hr he).2]
  exact ⟨rfl, rfl⟩

/-- **The actions of a plan make what the plan stands for.** -/
theorem filterMap_actions (h : PlainParts rendered dropIns) :
    (d.actions rendered dropIns).filterMap Action.entry? = d.entries rendered dropIns ∧
      (d.actions rendered dropIns).filterMap Action.directory? =
        d.directories rendered dropIns := by
  have hunits : (rendered.map d.unitFile).filterMap Action.entry? = rendered.map d.unitEntry ∧
      (rendered.map d.unitFile).filterMap Action.directory? = [] := by
    rw [List.filterMap_map, List.filterMap_map]
    refine ⟨congrFun (List.filterMap_eq_map (f := d.unitEntry)) rendered, ?_⟩
    exact List.filterMap_eq_nil_iff.mpr fun r _ => rfl
  have hdropIns : (dropIns.flatMap d.dropInFile).filterMap Action.entry? =
        dropIns.map d.dropInEntry ∧
      (dropIns.flatMap d.dropInFile).filterMap Action.directory? =
        dropIns.map d.dropInDirectory := by
    rw [List.filterMap_flatMap, List.filterMap_flatMap, List.map_eq_flatMap, List.map_eq_flatMap]
    constructor
    · refine List.flatMap_congr fun x hx => ?_
      rw [dropInFile_eq (h.dropIn x hx).1 (h.dropIn x hx).2]
      rfl
    · refine List.flatMap_congr fun x hx => ?_
      rw [dropInFile_eq (h.dropIn x hx).1 (h.dropIn x hx).2]
      rfl
  unfold Destination.actions Destination.entries Destination.fileEntries Destination.directories
  rw [List.filterMap_append, List.filterMap_append, List.filterMap_append, List.filterMap_append,
    hunits.1, hunits.2, hdropIns.1, hdropIns.2, List.filterMap_flatMap, List.filterMap_flatMap,
    List.flatMap_congr fun r hr => (h.filterMap_links (d := d) hr).1,
    List.flatMap_congr fun r hr => (h.filterMap_links (d := d) hr).2]
  exact ⟨rfl, rfl⟩

end PlainParts

/-! ## Submissions that succeed -/

/-- Deciding about checks decides about each unit. -/
theorem render_eq_ok_iff {units : List UnitFile} {rendered : List Destination.Rendered} :
    (d.render units).run.value = .ok rendered ↔ d.Decided units rendered := by
  unfold Destination.render Destination.Decided
  rw [Attempt.mapM_eq_ok]
  -- It is enough to compare one unit with what was decided about it.
  suffices h : ∀ (u : UnitFile) (r : Destination.Rendered), _ ↔ _ by
    exact ⟨fun hall => hall.imp fun u r => (h u r).mp, fun hall => hall.imp fun u r => (h u r).mpr⟩
  rintro u ⟨unit, check⟩
  cases hcheck : u.check with
  | none =>
      simp only [Attempt.pure_eq_ok, Destination.Rendered.mk.injEq]
      exact and_congr eq_comm eq_comm
  | some request =>
      simp only [Attempt.bind_eq_ok, Attempt.pure_eq_ok, Destination.Rendered.mk.injEq]
      constructor
      · rintro ⟨check, hresolve, rfl, rfl⟩
        exact ⟨rfl, hresolve⟩
      · rintro ⟨rfl, hresolve⟩
        exact ⟨_, hresolve, rfl, rfl⟩

theorem Destination.Decided.map_unit {units : List UnitFile} {rendered : List Destination.Rendered}
    (h : d.Decided units rendered) : rendered.map (·.unit) = units := by
  induction h with
  | nil => rfl
  | cons hfirst _ ih => rw [List.map_cons, hfirst.1, ih]

/-- An action of a list that was all done was done. -/
theorem Performs.performed_of_mem {acts : List Action} {made : List Artifact} {a : Action}
    (h : Performs t acts made t') (ha : a ∈ acts) :
    ∃ u artifact? v, Performed u a artifact? v := by
  induction h with
  | nil => cases ha
  | @cons t u v b rest artifact? later first _ ih =>
      rcases List.mem_cons.mp ha with rfl | hrest
      · exact ⟨t, artifact?, u, first⟩
      · exact ih hrest

/-- A file that was made has a name that says something. -/
theorem Performed.isName {octets : Octets} {content : String} {draws : List Draw}
    {artifact? : Option Artifact}
    (h : Performed t (.makeFile (p.join ⟨octets⟩) content draws) artifact? u)
    (hslash : slash ∉ octets) : Path.IsName octets := by
  cases h with
  | made hproduct hmade =>
      cases hproduct
      exact hmade.inDirectory.isName_of_join hslash hmade.fits.1
  | there ha => cases ha

/-- A dependency that no link can express is never done. -/
theorem not_performed_refuse {edge : Edge} {artifact? : Option Artifact} :
    ¬ Performed t (.refuse edge) artifact? u := by
  intro h
  cases h with
  | made hproduct => cases hproduct
  | there ha => cases ha

section

variable {rendered : List Destination.Rendered} {made : List Artifact}

theorem Destination.Decided.unit_mem (h : d.Decided plan.units rendered)
    {r : Destination.Rendered} (hr : r ∈ rendered) : r.unit ∈ plan.units := by
  rw [← h.map_unit]
  exact List.mem_map_of_mem hr

/-- Once the files of all units have been made, their names are known to say something. -/
theorem Performs.plainParts (hdone : Performs t (d.actions rendered plan.dropIns) made u)
    (hdecided : d.Decided plan.units rendered) (hnames : plan.HasPlainNames) :
    PlainParts rendered plan.dropIns where
  unit := by
    intro r hr
    have hmem : d.unitFile r ∈ d.actions rendered plan.dropIns :=
      List.mem_append_left _ (List.mem_append_left _ (List.mem_map_of_mem hr))
    obtain ⟨v, artifact?, w, hfile⟩ := hdone.performed_of_mem hmem
    exact Performed.isName (p := d.directory) hfile
      (Path.slash_notMem_ofText (hnames.unit _ (hdecided.unit_mem hr)))
  edge := by
    intro r hr e he
    exact hnames.edge _ (hdecided.unit_mem hr) e (List.mem_of_mem_filter he)
  dropIn := hnames.dropIn

/-- **The actions of a plan with plain names add what the plan stands for.** -/
theorem Performs.extends_plan (hdone : Performs t (d.actions rendered plan.dropIns) made u)
    (hdecided : d.Decided plan.units rendered) (hnames : plan.HasPlainNames) :
    Extends t (d.entries rendered plan.dropIns) (d.directories rendered plan.dropIns) u := by
  have hplain := hdone.plainParts hdecided hnames
  have hextends := hdone.extends
  rwa [hplain.filterMap_actions.1, hplain.filterMap_actions.2] at hextends

/-- If the actions of a plan are all done, links can express all dependencies on its units. -/
theorem Performs.linkSuffix?_ne_none {dropIns : List DropIn}
    (hdone : Performs t (d.actions rendered dropIns) made u)
    {r : Destination.Rendered} (hr : r ∈ rendered) {e : Edge} (he : e ∈ r.unit.reverseEdges) :
    e.relation.linkSuffix? ≠ none := by
  intro hnone
  have hlink : .refuse e ∈ d.links r := by
    refine List.mem_append_left _ (List.mem_flatMap.mpr ⟨e, he, ?_⟩)
    rw [Destination.edgeLink, hnone]
    exact List.mem_singleton.mpr rfl
  have hmem : .refuse e ∈ d.actions rendered dropIns :=
    List.mem_append_right _ (List.mem_flatMap.mpr ⟨r, hr, hlink⟩)
  obtain ⟨_, _, _, hrefused⟩ := hdone.performed_of_mem hmem
  exact not_performed_refuse hrefused

end

/-- **A submission that succeeds adds what its plan stands for, and nothing else.**  Every file and
every link is new and has a path of its own, and the plan has no dependency that no link can
express. -/
theorem submit_ok_extends (hnames : plan.HasPlainNames)
    (h : ((d.submit plan).run t).1.value = .ok ()) :
    ∃ rendered, d.Decided plan.units rendered ∧
      Extends t (d.entries rendered plan.dropIns) (d.directories rendered plan.dropIns)
        ((d.submit plan).run t).2 ∧
      ∀ u ∈ plan.units, ∀ e ∈ u.reverseEdges, e.relation = .requires ∨ e.relation = .wants := by
  have houtcome := submit_outcome d plan t
  rw [h] at houtcome
  generalize ((d.submit plan).run t).2 = final at houtcome ⊢
  cases houtcome with
  | @applied rendered made _ hrender hdone =>
      have hdecided := render_eq_ok_iff.mp hrender
      refine ⟨rendered, hdecided, hdone.extends_plan hdecided hnames, ?_⟩
      -- A dependency of another kind would have been refused.
      intro u hu e he
      rw [← hdecided.map_unit] at hu
      obtain ⟨r, hr, rfl⟩ := List.mem_map.mp hu
      have hsuffix := hdone.linkSuffix?_ne_none hr he
      cases hrelation : e.relation with
      | requires => exact Or.inl rfl
      | wants => exact Or.inr rfl
      | conflicts | bindsTo | before | after => exact absurd (by rw [hrelation]; rfl) hsuffix

/-- A mount with a link to it and settings for its device are added to an empty directory. -/
theorem homePlan_extends :
    homePlan.HasPlainNames ∧ ∃ rendered, bareDestination.Decided homePlan.units rendered ∧
      Extends bareTree (bareDestination.entries rendered homePlan.dropIns)
        (bareDestination.directories rendered homePlan.dropIns)
        ((bareDestination.submit homePlan).run bareTree).2 := by
  have hnames : homePlan.HasPlainNames := by
    constructor <;> decide
  have hvalue : ((bareDestination.submit homePlan).run bareTree).1.value = .ok () := by
    decide +kernel
  obtain ⟨rendered, hdecided, hextends, -⟩ := submit_ok_extends hnames hvalue
  exact ⟨hnames, rendered, hdecided, hextends⟩

end PartitionUnits
