import Mathlib.Data.List.Lattice
import PartitionUnits.Proofs.Concurrency.Submissions
import PartitionUnits.Proofs.LineSafety

/-!
# Dependencies on their way to the disk

A unit is told of dependencies, one after the other.  Each of them comes to the disk in one way and
in no other: as a word in the unit's own file, or as a link to the unit.

## Main Definitions

* `Declaration`, `UnitFile.declareAll` — a unit that is told of dependencies
* `UnitFile.DealsOut` — all dependencies of a unit are its own or taken on it, and never both
* `declaredEdges` — the dependencies that the text of a unit declares
* `Plan.IsRequestedInLines` — the plans that requests without line feeds come to
* `dependencies_delivered` — no dependency is lost between a request and the disk

## Design Notes

The file of a unit has one line for each kind of dependency, so the order among kinds is that of the
lines, and the order in which the unit was told of them is kept only within a kind.  The lines for a
check come later and repeat keys, so a reader has to go through the settings one by one
(`declaredEdges`): asked for all words of a key at once, it could not tell the two apart.
-/

namespace PartitionUnits

open Attempt Text

variable {u : UnitFile} {check : CheckDependency} {plan : Plan} {d : Destination}
  {rendered : List Destination.Rendered}

/-! ## Telling a unit of dependencies -/

/-- What a unit is told of a dependency. -/
inductive Declaration where
  | depends (relation : Relation) (target : String)
  | dependedOnBy (source : String) (relation : Relation)

/-- The dependency that the unit with a name is told of. -/
def Declaration.edge (name : String) : Declaration → Edge
  | depends relation target => ⟨name, relation, target⟩
  | dependedOnBy source relation => ⟨source, relation, name⟩

namespace UnitFile

/-- Tell a unit of a dependency. -/
def declare (u : UnitFile) : Declaration → UnitFile
  | .depends relation target => u.depends relation target
  | .dependedOnBy source relation => u.dependedOnBy source relation

/-- Tell a unit of dependencies, one after the other. -/
def declareAll (u : UnitFile) (ds : List Declaration) : UnitFile := ds.foldl declare u

@[simp] theorem name_declare (u : UnitFile) (x : Declaration) : (u.declare x).name = u.name := by
  cases x <;> rfl

theorem edges_declare (u : UnitFile) (x : Declaration) :
    (u.declare x).edges = u.edges ++ [x.edge u.name] := by
  cases x <;> rfl

@[simp] theorem name_declareAll (u : UnitFile) (ds : List Declaration) :
    (u.declareAll ds).name = u.name := by
  induction ds generalizing u with
  | nil => rfl
  | cons x ds ih => exact (ih (u.declare x)).trans (name_declare u x)

/-- **A unit has all dependencies that it was told of, in order.** -/
theorem edges_declareAll (u : UnitFile) (ds : List Declaration) :
    (u.declareAll ds).edges = u.edges ++ ds.map (·.edge u.name) := by
  induction ds generalizing u with
  | nil => exact (List.append_nil _).symm
  | cons x ds ih =>
      show ((u.declare x).declareAll ds).edges = _
      rw [ih, edges_declare, name_declare, List.append_assoc, List.map_cons,
        List.singleton_append]

/-! ## Own dependencies and those of others -/

/-- **The dependencies of a unit are dealt out to two lists**: each goes to one of them and to no
other, as often as it is there, and in the order in which it is there.  What a unit depends on
itself for is its own. -/
structure DealsOut (u : UnitFile) : Prop where
  own : u.ownEdges.Sublist u.edges
  reverse : u.reverseEdges.Sublist u.edges
  all : (u.ownEdges ++ u.reverseEdges).Perm u.edges
  apart : u.ownEdges.Disjoint u.reverseEdges
  self : ∀ e ∈ u.edges, e.source = e.target → e ∈ u.ownEdges

/-- A unit with no dependencies but those between itself and others deals them out. -/
theorem dealsOut_of_mem (h : ∀ e ∈ u.edges, e.source = u.name ∨ e.target = u.name) :
    u.DealsOut where
  own := List.filter_sublist
  reverse := List.filter_sublist
  all := by
    have hreverse : u.reverseEdges = u.edges.filter fun e => !decide (e.source = u.name) := by
      refine List.filter_congr fun e he => ?_
      by_cases hsource : e.source = u.name
      · simp [hsource]
      · simp [hsource, (h e he).resolve_left hsource]
    rw [hreverse]
    exact List.filter_append_perm _ _
  apart := by
    intro e hown hreverse
    have hne := of_decide_eq_true (List.mem_filter.mp hreverse).2
    exact hne.1 (of_decide_eq_true (List.mem_filter.mp hown).2)
  self := by
    intro e he hself
    have hsource : e.source = u.name := (h e he).elim id hself.trans
    exact List.mem_filter.mpr ⟨he, decide_eq_true hsource⟩

/-- **A unit deals out whatever it was told of.** -/
theorem dealsOut_declareAll (hfresh : u.edges = []) (ds : List Declaration) :
    (u.declareAll ds).DealsOut := by
  refine dealsOut_of_mem fun e he => ?_
  rw [edges_declareAll, hfresh, List.nil_append] at he
  obtain ⟨x, -, rfl⟩ := List.mem_map.mp he
  rw [name_declareAll]
  cases x with
  | depends => exact Or.inl rfl
  | dependedOnBy => exact Or.inr rfl

/-- A unit that has been told of all its dependencies. -/
def IsTold (u : UnitFile) : Prop :=
  ∃ (fresh : UnitFile) (ds : List Declaration), fresh.edges = [] ∧ u = fresh.declareAll ds

namespace IsTold

variable {relation : Relation} {source target : String}

theorem of_no_edges (h : u.edges = []) : u.IsTold := ⟨u, [], h, rfl⟩

theorem declare (h : u.IsTold) (x : Declaration) : (u.declare x).IsTold := by
  obtain ⟨fresh, ds, hfresh, rfl⟩ := h
  refine ⟨fresh, ds ++ [x], hfresh, ?_⟩
  rw [declareAll, declareAll, List.foldl_append]
  rfl

theorem depends (h : u.IsTold) : (u.depends relation target).IsTold :=
  h.declare (.depends relation target)

theorem dependedOnBy (h : u.IsTold) : (u.dependedOnBy source relation).IsTold :=
  h.declare (.dependedOnBy source relation)

theorem dealsOut (h : u.IsTold) : u.DealsOut := by
  obtain ⟨fresh, ds, hfresh, rfl⟩ := h
  exact dealsOut_declareAll hfresh ds

end IsTold

end UnitFile

theorem MountRequest.unit_isTold (r : MountRequest) (name device : String)
    (fsType : Option String) : (r.unit name device fsType).IsTold := by
  unfold MountRequest.unit
  simp only
  split
  · exact (UnitFile.IsTold.of_no_edges rfl).depends.dependedOnBy
  · exact .of_no_edges rfl

theorem Unlocking.service_isTold (id source consumer sourceUnit : String) (rw : Bool) :
    (Unlocking.service id source rw consumer sourceUnit).IsTold :=
  .dependedOnBy (.dependedOnBy (.dependedOnBy (.depends (.depends (.depends (.depends (.depends
    (.depends (.depends (.of_no_edges rfl))))))))))

/-- **The units of requested plans have been told of all their dependencies.** -/
theorem Plan.IsRequested.isTold (h : plan.IsRequested) : ∀ u ∈ plan.units, u.IsTold := by
  intro u hu
  cases h.units u hu with
  | mount => exact MountRequest.unit_isTold ..
  | service => exact Unlocking.service_isTold ..
  | automount => exact (UnitFile.IsTold.of_no_edges rfl).depends.dependedOnBy
  | swap => exact (UnitFile.IsTold.of_no_edges rfl).depends.dependedOnBy

/-! ## Reading dependencies back -/

/-- The dependencies that a setting declares for a unit: one for each word, if its key is a kind of
dependency. -/
def ReadSetting.edges (name : String) (s : ReadSetting) : List Edge :=
  match Relation.ofSetting? s.key with
  | some relation =>
    (words isBlank s.value.toList).map fun word => ⟨name, relation, String.ofList word⟩
  | none => []

/-- **The dependencies that a text declares for a unit**, setting by setting and word by word. -/
def declaredEdges (name text : String) : List Edge :=
  ((settingsOf text).filter (·.group = "Unit")).flatMap (·.edges name)

/-- The dependencies of a unit on the service that checks its device. -/
def CheckDependency.edges (name : String) : CheckDependency → List Edge
  | .service check => [⟨name, .requires, check⟩, ⟨name, .after, check⟩]
  | .none | .rootLink => []

/-- The dependencies of a unit's own, one kind after the other. -/
def UnitFile.ownEdgesByRelation (u : UnitFile) : List Edge :=
  [Relation.conflicts, .bindsTo, .requires, .wants, .before, .after].flatMap fun relation =>
    u.ownEdges.filter (·.relation = relation)

/-- Each dependency is of one kind. -/
theorem UnitFile.ownEdgesByRelation_perm (u : UnitFile) :
    u.ownEdgesByRelation.Perm u.ownEdges := by
  have hcount : ∀ (e : Edge) (relation : Relation),
      (u.ownEdges.filter (·.relation = relation)).count e =
        if e.relation = relation then u.ownEdges.count e else 0 := by
    intro e relation
    split
    · next h => exact List.count_filter (decide_eq_true h)
    · next h =>
        refine List.count_eq_zero.mpr fun hmem => h ?_
        simpa using (List.mem_filter.mp hmem).2
  rw [List.perm_iff_count]
  intro e
  simp only [ownEdgesByRelation, List.flatMap_cons, List.flatMap_nil, List.count_append, hcount]
  cases e.relation <;> simp

theorem Relation.ofSetting?_setting (relation : Relation) :
    Relation.ofSetting? relation.setting = some relation := by
  cases relation <;> decide

/-- The dependencies that settings of the group of all units declare. -/
theorem ReadSetting.flatMap_readAs (name : String) (settings : List (String × String)) :
    (readAs "Unit" settings).flatMap (ReadSetting.edges name) =
      settings.flatMap fun s => ReadSetting.edges name ⟨"Unit", s.1, s.2⟩ :=
  List.flatMap_map ..

/-- A key that is no kind of dependency declares none. -/
theorem ReadSetting.edges_of_other {name key value : String}
    (h : key ∈ ["Description", "Documentation", "DefaultDependencies", "IgnoreOnIsolate"]) :
    ReadSetting.edges name ⟨"Unit", key, value⟩ = [] := by
  have hnone : ∀ key ∈ ["Description", "Documentation", "DefaultDependencies", "IgnoreOnIsolate"],
      Relation.ofSetting? key = none := by
    decide
  rw [ReadSetting.edges]
  simp only [hnone key h]

theorem ReadSetting.edges_setting (name value : String) (relation : Relation) :
    ReadSetting.edges name ⟨"Unit", relation.setting, value⟩ =
      ((words isBlank value.toList).map String.ofList).map (⟨name, relation, ·⟩) := by
  rw [ReadSetting.edges]
  simp only [Relation.ofSetting?_setting, List.map_map]
  rfl

namespace UnitFile

/-- What is known of a unit's own dependency of one kind is whom it is on. -/
theorem map_targets (u : UnitFile) (relation : Relation) :
    (u.targets relation).map (⟨u.name, relation, ·⟩) =
      u.ownEdges.filter (·.relation = relation) := by
  rw [targets, List.map_map]
  refine (List.map_congr_left fun e he => ?_).trans (List.map_id _)
  obtain ⟨hown, hrelation⟩ := List.mem_filter.mp he
  have hsource : e.source = u.name := of_decide_eq_true (List.mem_filter.mp hown).2
  have hrelation : e.relation = relation := of_decide_eq_true hrelation
  rw [Function.comp_apply, ← hsource, ← hrelation]
  rfl

namespace Readable

variable (h : u.Readable check)
include h

/-- The line for one kind of dependency declares the unit's own dependencies of that kind. -/
theorem edges_relationSettings (relation : Relation) :
    (u.relationSettings relation).flatMap
        (fun s => ReadSetting.edges u.name ⟨"Unit", s.1, s.2⟩) =
      u.ownEdges.filter (·.relation = relation) := by
  rw [← map_targets, relationSettings]
  split
  · next hnone => rw [hnone]; rfl
  · rw [List.flatMap_singleton, ReadSetting.edges_setting,
      words_intercalate (h.isWord_targets relation)]

/-- The lines for a check declare the dependencies on its service. -/
theorem edges_check :
    check.settings.flatMap (fun s => ReadSetting.edges u.name ⟨"Unit", s.1, s.2⟩) =
      check.edges u.name := by
  cases hcheck : check with
  | none | rootLink => rfl
  | service name =>
      have hword := (h.check name hcheck).words_eq
      simp only [CheckDependency.settings, CheckDependency.edges, List.flatMap_cons,
        List.flatMap_nil, List.append_nil]
      show ReadSetting.edges u.name ⟨"Unit", Relation.requires.setting, name⟩ ++
        ReadSetting.edges u.name ⟨"Unit", Relation.after.setting, name⟩ = _
      rw [ReadSetting.edges_setting, ReadSetting.edges_setting, hword]
      simp

/-- **The file of a unit declares the unit's own dependencies**, one kind after the other, and those
on its check. -/
theorem declaredEdges_text :
    declaredEdges u.name (u.text check) = u.ownEdgesByRelation ++ check.edges u.name := by
  have hgroup : (settingsOf (u.text check)).filter (·.group = "Unit") =
      readAs "Unit" (u.unitSettings check) := by
    have hunit : (readAs "Unit" (u.unitSettings check)).filter (·.group = "Unit") =
        readAs "Unit" (u.unitSettings check) := by
      simp [readAs, List.filter_map, Function.comp_def]
    have hbody : (readAs u.body.group u.body.settings).filter (·.group = "Unit") = [] := by
      simp [readAs, List.filter_map, Function.comp_def, u.body.group_spec.2]
    rw [h.settingsOf_text, List.filter_append, hunit, hbody, List.append_nil]
  have hother : ∀ {settings : List (String × String)}, (∀ s ∈ settings, s.1 ∈
      ["Description", "Documentation", "DefaultDependencies", "IgnoreOnIsolate"]) →
      settings.flatMap (fun s => ReadSetting.edges u.name ⟨"Unit", s.1, s.2⟩) = [] :=
    fun hkeys => List.flatMap_eq_nil_iff.mpr fun s hs => ReadSetting.edges_of_other (hkeys s hs)
  have hrelations : (Relation.all.flatMap u.relationSettings).flatMap
      (fun s => ReadSetting.edges u.name ⟨"Unit", s.1, s.2⟩) = u.ownEdgesByRelation := by
    rw [List.flatMap_assoc]
    exact List.flatMap_congr fun relation _ => h.edges_relationSettings relation
  rw [declaredEdges, hgroup, ReadSetting.flatMap_readAs, unitSettings]
  simp only [List.flatMap_append, hrelations, h.edges_check]
  rw [hother (by simp), hother (by split <;> simp), hother (by split <;> simp),
    hother (by split <;> simp), List.nil_append, List.nil_append, List.nil_append, List.append_nil]

end Readable

end UnitFile

/-! ## Requests -/

theorem oneLine_toString (n : Nat) : OneLine (toString n) := by
  rw [OneLine, Nat.toString_eq_repr, Nat.toList_repr]
  intro hmem
  exact absurd (Nat.isDigit_of_mem_toDigits (by decide) (by decide) hmem) (by decide)

/-- **A plan that a request without line feeds comes to.** -/
inductive Plan.IsRequestedInLines : Plan → Prop where
  | mount {r : MountRequest} {plan : Plan} (hlines : r.HasOneLiners)
      (htype : ∀ fsType, r.fsType = some fsType → OneLine fsType)
      (h : r.plan.run.value = .ok plan) : IsRequestedInLines plan
  | onAccess {r : MountRequest} {idleSeconds : Nat} {plan : Plan} (hlines : r.HasOneLiners)
      (htype : ∀ fsType, r.fsType = some fsType → OneLine fsType)
      (h : (r.planOnAccess idleSeconds).run.value = .ok plan) : IsRequestedInLines plan
  | swap {device : String} {plan : Plan} (hline : OneLine device)
      (h : (planSwap device).run.value = .ok plan) : IsRequestedInLines plan

namespace Plan.IsRequestedInLines

theorem isRequested (h : plan.IsRequestedInLines) : plan.IsRequested := by
  cases h with
  | mount _ _ h => exact .mount h
  | onAccess _ _ h => exact .onAccess h
  | swap _ h => exact .swap h

theorem hasOneLiners (h : plan.IsRequestedInLines) : plan.HasOneLiners := by
  cases h with
  | mount hlines htype h => exact MountRequest.plan_hasOneLiners hlines htype plan h
  | onAccess hlines htype h =>
      exact MountRequest.planOnAccess_hasOneLiners hlines htype (oneLine_toString _) plan h
  | swap hline h => exact planSwap_hasOneLiners hline plan h

end Plan.IsRequestedInLines

/-! ## All dependencies -/

/-- **The dependencies of a unit reach the disk**, given what is made there: its own are what its
file declares, besides those on its check, and for each one that another unit takes on it, there is
a link in the directory of that unit. -/
structure Destination.Delivers (d : Destination) (made : List Action)
    (r : Destination.Rendered) : Prop where
  file : .makeFile (d.directory.join (Path.ofText r.unit.name)) (r.unit.text r.check)
    (d.draws (d.directory.join (Path.ofText r.unit.name))) ∈ made
  declared : declaredEdges r.unit.name (r.unit.text r.check) =
    r.unit.ownEdgesByRelation ++ r.check.edges r.unit.name
  linked : ∀ e ∈ r.unit.reverseEdges, ∃ suffix,
    (e.relation = .requires ∧ suffix = ".requires" ∨ e.relation = .wants ∧ suffix = ".wants") ∧
    .makeLink (Path.ofText ("../" ++ r.unit.name))
      ((d.directory.join (Path.ofText (e.source ++ suffix))).join (Path.ofText r.unit.name)) ∈ made

/-- Links can express what other units depend on a unit for only if they require or want it. -/
theorem Relation.linkSuffix?_eq_some {relation : Relation} {suffix : String}
    (h : relation.linkSuffix? = some suffix) :
    relation = .requires ∧ suffix = ".requires" ∨ relation = .wants ∧ suffix = ".wants" := by
  cases relation <;> cases h
  · exact Or.inl ⟨rfl, rfl⟩
  · exact Or.inr ⟨rfl, rfl⟩

/-- A part never stands for a dependency that no link can express. -/
theorem Part.refuse_notMem_actions (x : Part) (e : Edge) : .refuse e ∉ x.actions d := by
  intro h
  rcases List.mem_append.mp h with h | h
  · obtain ⟨_, -, hdirectory⟩ := List.mem_map.mp h
    cases hdirectory
  · have haction := List.mem_singleton.mp h
    unfold Part.action at haction
    split at haction <;> cases haction

namespace Plan.IsRequestedInLines

variable (hplan : plan.IsRequestedInLines)
include hplan

/-- The file of a unit of a requested plan declares the unit's own dependencies and those on its
check, whichever service that is. -/
theorem declaredEdges_text (hu : u ∈ plan.units)
    (hcheck : ∀ service, check = .service service → IsWord service) :
    declaredEdges u.name (u.text check) = u.ownEdgesByRelation ++ check.edges u.name := by
  have hreadable := (hplan.hasOneLiners u hu).readable
  exact UnitFile.Readable.declaredEdges_text
    ⟨hreadable.description, hreadable.documentation, hreadable.target, hcheck, hreadable.body⟩

/-- What other units depend on a unit of a requested plan for, links can express. -/
theorem linked (hu : u ∈ plan.units) {e : Edge} (he : e ∈ u.reverseEdges) :
    e.relation = .requires ∨ e.relation = .wants := by
  obtain ⟨hmem, hne⟩ := List.mem_filter.mp he
  have hreverse := of_decide_eq_true hne
  obtain ⟨suffix, hsuffix⟩ := Option.ne_none_iff_exists'.mp
    (((hplan.isRequested.isPlain.unit u hu).linked e hmem).resolve_left hreverse.1)
  exact (Relation.linkSuffix?_eq_some hsuffix).imp And.left And.left

variable (hdecided : d.Decided plan.units rendered)
include hdecided

/-- **All dependencies of the units of a requested plan reach the disk.** -/
theorem delivers {r : Destination.Rendered} (hr : r ∈ rendered) :
    d.Delivers (d.actions rendered plan.dropIns) r where
  file := List.mem_append_left _ (List.mem_append_left _ (List.mem_map_of_mem hr))
  declared := (hplan.hasOneLiners.readable hdecided hr).declaredEdges_text
  linked := by
    intro e he
    have hplain := hplan.isRequested.isPlain
    have hparts := hplain.plainParts hdecided
    obtain ⟨suffix, hsuffix⟩ :=
      Option.ne_none_iff_exists'.mp (hplain.expressible hdecided r hr e he)
    refine ⟨suffix, Relation.linkSuffix?_eq_some hsuffix,
      List.mem_append_right _ (List.mem_flatMap.mpr ⟨r, hr, ?_⟩)⟩
    refine List.mem_append_left _ (List.mem_flatMap.mpr ⟨e, he, ?_⟩)
    rw [edgeLink_eq hsuffix (hparts.edge r hr e he) (hparts.unit r hr)]
    exact List.mem_cons_of_mem _ List.mem_cons_self

/-- **No dependency of a requested plan is refused.** -/
theorem refuse_notMem_actions (e : Edge) : .refuse e ∉ d.actions rendered plan.dropIns := by
  have hplain := hplan.isRequested.isPlain
  rw [(hplain.plainParts hdecided).actions_eq (hplain.expressible hdecided)]
  intro h
  obtain ⟨x, -, hx⟩ := List.mem_flatMap.mp h
  exact x.refuse_notMem_actions e hx

end Plan.IsRequestedInLines

/-- **No dependency is lost between planning and the disk.**  A unit deals out all dependencies that
it is told of, in order.  So do the units of a requested plan, whose files declare their own and
those on their checks, and on which others depend in no way but those that links can express.  When
the plan is submitted all of them reach the disk, and none is ever refused. -/
theorem dependencies_delivered :
    (∀ (fresh : UnitFile) (ds : List Declaration), fresh.edges = [] →
      (fresh.declareAll ds).edges = ds.map (·.edge fresh.name) ∧
        (fresh.declareAll ds).DealsOut) ∧
    ∀ plan : Plan, plan.IsRequestedInLines →
      (∀ u ∈ plan.units, u.DealsOut ∧ u.ownEdgesByRelation.Perm u.ownEdges ∧
        (∀ check : CheckDependency, (∀ service, check = .service service → IsWord service) →
          declaredEdges u.name (u.text check) = u.ownEdgesByRelation ++ check.edges u.name) ∧
        ∀ e ∈ u.reverseEdges, e.relation = .requires ∨ e.relation = .wants) ∧
      ∀ (d : Destination) (rendered : List Destination.Rendered),
        (d.render plan.units).run.value = .ok rendered →
        rendered.map (·.unit) = plan.units ∧
          (∀ r ∈ rendered, d.Delivers (d.actions rendered plan.dropIns) r) ∧
          ∀ e, .refuse e ∉ d.actions rendered plan.dropIns := by
  refine ⟨fun fresh ds hfresh => ⟨?_, UnitFile.dealsOut_declareAll hfresh ds⟩,
    fun plan hplan => ⟨fun u hu => ?_, fun d rendered hrender => ?_⟩⟩
  · rw [UnitFile.edges_declareAll, hfresh, List.nil_append]
  · exact ⟨(hplan.isRequested.isTold u hu).dealsOut, u.ownEdgesByRelation_perm,
      fun check hcheck => hplan.declaredEdges_text hu hcheck, fun e he => hplan.linked hu he⟩
  · have hdecided := render_eq_ok_iff.mp hrender
    exact ⟨hdecided.map_unit, fun r hr => hplan.delivers hdecided hr,
      hplan.refuse_notMem_actions hdecided⟩

/-- A unit that is told that it comes after itself, and nothing else of its own, and the plan for an
encrypted home partition. -/
theorem dependencies_delivered_encryptedHome :
    let fresh : UnitFile := { name := "a.swap", description := "A", body := .swap "/a" }
    let told := fresh.declareAll
      [.dependedOnBy "swap.target" .wants, .dependedOnBy "a.swap" .after,
        .dependedOnBy "b.mount" .requires]
    told.DealsOut ∧ told.ownEdges = [⟨"a.swap", .after, "a.swap"⟩] ∧
      encryptedHomePlan.IsRequestedInLines ∧
      ∃ rendered, (bareDestination.render encryptedHomePlan.units).run.value = .ok rendered ∧
        rendered.length = 2 ∧
        (∀ r ∈ rendered,
          bareDestination.Delivers (bareDestination.actions rendered encryptedHomePlan.dropIns) r) ∧
        ∀ e, .refuse e ∉ bareDestination.actions rendered encryptedHomePlan.dropIns := by
  intro fresh told
  have htype : ∀ fsType, encryptedHome.fsType = some fsType → OneLine fsType := by
    rintro _ ⟨⟩
    decide
  have hplan : encryptedHomePlan.IsRequestedInLines :=
    .mount encryptedHome_hasOneLiners htype encryptedHome_plan
  have hrender : (bareDestination.render encryptedHomePlan.units).run.value =
      .ok (encryptedHomePlan.units.map fun u => ⟨u, if u.check = none then .none else
        .service "systemd-fsck@dev-mapper-home.service"⟩) := by
    decide +kernel
  obtain ⟨hfresh, hrequested⟩ := dependencies_delivered
  obtain ⟨-, hdelivers, hrefuse⟩ := (hrequested _ hplan).2 _ _ hrender
  exact ⟨(hfresh fresh _ rfl).2, by decide, hplan, _, hrender, rfl, hdelivers, hrefuse⟩

end PartitionUnits
