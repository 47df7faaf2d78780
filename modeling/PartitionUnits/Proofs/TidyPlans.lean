import Mathlib.Data.List.Nodup
import PartitionUnits.Proofs.RoleParts
import PartitionUnits.Proofs.Unit.Escape
import PartitionUnits.Proofs.UnlockChain

/-!
# Plans that make nothing twice

Every file and every link of a plan is at a place of its own.

## Main Definitions

* `Plan.IsTidy` — what keeps the files and links of a plan apart
* `MountRequest.plan_isTidy`, `MountRequest.planOnAccess_isTidy`, `planSwap_isTidy` — plans are tidy
* `Plan.IsOf.nodup_places` — so no place is that of two parts
* `Part.IsRegular.components_path` — places are told apart by paths too

## Design Notes

Files are directly in the directory that plans are applied in and links are below it.  A link bears
the name of the unit that it leads to, so only links to one unit can be confused, and those are in
directories that are named after other units.
-/

namespace PartitionUnits

open Attempt Destination.Rendered

variable {role : Role} {plan : Plan} {d : Destination} {rendered : List Destination.Rendered}
  {x : Part} {n : Name}

/-- The directory of the link that declares a dependency, if a link can. -/
def Edge.linkDirectory? (e : Edge) : Option String := e.relation.linkSuffix?.map (e.source ++ ·)

/-- The links to a unit are in different directories. -/
def UnitFile.HasLinksApart (u : UnitFile) : Prop := (u.edges.filterMap Edge.linkDirectory?).Nodup

/-- **A tidy plan**: its units have different names, one of them at most has something checked, and
the links to each are in different directories. -/
structure Plan.IsTidy (plan : Plan) : Prop where
  names : (plan.units.map (·.name)).Nodup
  checks : plan.units.Pairwise fun u v => u.check = none ∨ v.check = none
  links : ∀ u ∈ plan.units, u.HasLinksApart

/-! ## Requests -/

theorem Plan.IsTidy.of_unit {u : UnitFile} (h : u.HasLinksApart) :
    Plan.IsTidy { units := [u] } where
  names := List.pairwise_singleton _ _
  checks := List.pairwise_singleton _ _
  links := fun v hv => by rwa [List.mem_singleton.mp hv]

theorem MountRequest.name_unit {r : MountRequest} {name device : String} {fsType : Option String} :
    (r.unit name device fsType).name = name := by
  unfold MountRequest.unit
  simp only
  split <;> rfl

theorem MountRequest.unit_hasLinksApart {r : MountRequest} {name device : String}
    {fsType : Option String} : (r.unit name device fsType).HasLinksApart := by
  unfold MountRequest.unit
  simp only
  split <;> simp [UnitFile.HasLinksApart, UnitFile.depends, UnitFile.dependedOnBy,
    List.filterMap_cons, Edge.linkDirectory?, Relation.linkSuffix?]

/-- The device that is unlocked wants the service and the others require it, so only the names of
those matter. -/
theorem Unlocking.service_hasLinksApart {id source consumer sourceUnit : String} {rw : Bool} :
    (service id source rw consumer sourceUnit).HasLinksApart := by
  have hends : ∀ owner owner' : String, owner ++ ".wants" ≠ owner' ++ ".requires" :=
    fun _ _ => ne_of_endings (by decide) (by decide)
  have hdevice : Milestone.cryptsetup.unit ++ ".requires" ≠ deviceUnit id ++ ".requires" := by
    intro heq
    have hunit := (String.append_left_inj _).mp heq
    exact ne_of_endings (s := "") (a := "cryptsetup.target") (b := ".device") (by decide)
      (by decide) hunit
  rw [UnitFile.HasLinksApart, edges_service]
  simp only [List.filterMap_cons, List.filterMap_nil, Edge.linkDirectory?, Relation.linkSuffix?,
    Option.map_none, Option.map_some, List.nodup_cons, List.mem_cons, List.not_mem_nil, or_false,
    not_or, not_false_eq_true, List.nodup_nil, and_true]
  exact ⟨⟨hends _ _, hends _ _⟩, hdevice⟩

/-- A unit with a name of its own that has nothing checked keeps a plan tidy. -/
theorem Plan.IsTidy.append_unit {u : UnitFile} (h : plan.IsTidy)
    (hname : ∀ v ∈ plan.units, v.name ≠ u.name) (hcheck : u.check = none)
    (hlinks : u.HasLinksApart) : Plan.IsTidy { plan with units := plan.units ++ [u] } where
  names := by
    rw [List.map_append, List.map_singleton, List.nodup_append]
    refine ⟨h.names, List.pairwise_singleton _ _, fun name hname' name' hlast => ?_⟩
    obtain ⟨v, hv, rfl⟩ := List.mem_map.mp hname'
    rw [List.mem_singleton.mp hlast]
    exact hname v hv
  checks := List.pairwise_append.mpr ⟨h.checks, List.pairwise_singleton _ _,
    fun _ _ _ hlast => Or.inr (by rwa [List.mem_singleton.mp hlast])⟩
  links := fun v hv => (List.mem_append.mp hv).elim (h.links v)
    fun hlast => by rwa [List.mem_singleton.mp hlast]

/-- The units that a request to mount comes to are a service and a mount. -/
theorem MountRequest.exists_ending {r : MountRequest} (h : r.plan.run.value = .ok plan)
    {u : UnitFile} (hu : u ∈ plan.units) :
    ∃ base, ∃ ending ∈ [".service", ".mount"], u.name = base ++ ending := by
  obtain ⟨name, hname, hplanned⟩ := MountRequest.plan_eq_ok_iff.mp h
  obtain ⟨escaped, -, rfl⟩ := UnitName.ofPath_eq_ok hname
  cases hplanned with
  | plain =>
      rw [List.mem_singleton.mp hu, MountRequest.name_unit]
      exact ⟨escaped, ".mount", by decide, rfl⟩
  | unlocked =>
      rcases List.mem_cons.mp hu with rfl | hu
      · exact ⟨_, ".service", by decide, rfl⟩
      · rw [List.mem_singleton.mp hu, MountRequest.name_unit]
        exact ⟨escaped, ".mount", by decide, rfl⟩

theorem MountRequest.plan_isTidy (r : MountRequest) : Ensures r.plan Plan.IsTidy := by
  intro plan h
  obtain ⟨name, hname, hplanned⟩ := MountRequest.plan_eq_ok_iff.mp h
  obtain ⟨escaped, -, rfl⟩ := UnitName.ofPath_eq_ok hname
  cases hplanned with
  | plain => exact .of_unit MountRequest.unit_hasLinksApart
  | unlocked =>
      refine ⟨?_, List.pairwise_pair.mpr (Or.inl rfl), fun u hu => ?_⟩
      · rw [List.map_cons, List.map_singleton, MountRequest.name_unit]
        exact List.nodup_cons.mpr ⟨by
          rw [List.mem_singleton]
          exact ne_of_endings (by decide) (by decide), List.pairwise_singleton _ _⟩
      · rcases List.mem_cons.mp hu with rfl | hu
        · exact Unlocking.service_hasLinksApart
        · rw [List.mem_singleton.mp hu]
          exact MountRequest.unit_hasLinksApart

theorem MountRequest.planOnAccess_isTidy (r : MountRequest) (idleSeconds : Nat) :
    Ensures (r.planOnAccess idleSeconds) Plan.IsTidy := by
  intro plan h
  obtain ⟨inner, name, hinner, hname, rfl⟩ := MountRequest.planOnAccess_eq_ok_iff.mp h
  obtain ⟨escaped, -, rfl⟩ := UnitName.ofPath_eq_ok hname
  refine (r.behindAutomount.plan_isTidy inner hinner).append_unit (fun u hu => ?_) rfl ?_
  · obtain ⟨base, ending, hending, hbase⟩ := MountRequest.exists_ending hinner hu
    have hends : ∀ s ∈ [".service", ".mount"], ¬ s.toList <:+ ".automount".toList ∧
        ¬ ".automount".toList <:+ s.toList := by
      decide
    obtain ⟨hsuffix, hsuffix'⟩ := hends ending hending
    rw [hbase]
    exact ne_of_endings hsuffix hsuffix'
  · simp [UnitFile.HasLinksApart, MountRequest.automountUnit, UnitFile.depends,
      UnitFile.dependedOnBy, List.filterMap_cons, Edge.linkDirectory?, Relation.linkSuffix?]

theorem planSwap_isTidy (device : String) : Ensures (planSwap device) Plan.IsTidy := by
  intro plan h
  obtain ⟨name, -, rfl⟩ := planSwap_eq_ok_iff.mp h
  refine .of_unit ?_
  simp [UnitFile.HasLinksApart, swapUnit, UnitFile.depends, UnitFile.dependedOnBy,
    List.filterMap_cons, Edge.linkDirectory?, Relation.linkSuffix?]

/-! ## Places -/

/-- No two texts are the same path, octet by octet. -/
theorem Path.octets_ofText_injective {s s' : String} (h : (ofText s).octets = (ofText s').octets) :
    s = s' := String.toList_inj.mp (Text.encode_injective h)

/-- The places of the links to a unit. -/
theorem places_linkParts (r : Destination.Rendered) :
    (linkParts r).map (·.place []) =
      (r.unit.reverseEdges.filterMap Edge.linkDirectory?).map
          (fun directory => [(Path.ofText directory).octets, (Path.ofText r.unit.name).octets]) ++
        if r.check = .rootLink then [rootCheckPart.place []] else [] := by
  unfold linkParts
  rw [List.map_append, List.map_filterMap, List.map_filterMap]
  congr 1
  · refine List.filterMap_congr fun e _ => ?_
    unfold edgePart? Edge.linkDirectory?
    cases e.relation.linkSuffix? <;> rfl
  · split <;> rfl

/-- The place of a link ends in the name of the unit, unless the link is for the check of the root
file system. -/
theorem getLast?_of_mem_linkPlaces {r : Destination.Rendered} {place : Location}
    (h : place ∈ (linkParts r).map (·.place [])) :
    place.getLast? = some (Path.ofText r.unit.name).octets ∨
      r.check = .rootLink ∧ place.getLast? = some rootCheckPart.name := by
  rw [places_linkParts] at h
  rcases List.mem_append.mp h with h | h
  · obtain ⟨directory, -, rfl⟩ := List.mem_map.mp h
    exact Or.inl rfl
  · split at h
    · next hcheck =>
        rw [List.mem_singleton.mp h]
        exact Or.inr ⟨hcheck, rfl⟩
    · cases h

theorem length_of_mem_unitPlaces {place : Location}
    (h : place ∈ (rendered.map unitPart).map (·.place [])) : place.length = 1 := by
  obtain ⟨x, hx, rfl⟩ := List.mem_map.mp h
  obtain ⟨r, -, rfl⟩ := List.mem_map.mp hx
  rfl

theorem length_of_mem_linkPlaces {r : Destination.Rendered} {place : Location}
    (h : place ∈ (linkParts r).map (·.place [])) : place.length = 2 := by
  rw [places_linkParts] at h
  rcases List.mem_append.mp h with h | h
  · obtain ⟨directory, -, rfl⟩ := List.mem_map.mp h
    rfl
  · split at h
    · rw [List.mem_singleton.mp h]
      rfl
    · cases h

/-- The files of units are at different places. -/
theorem Plan.IsTidy.nodup_places_unitParts (htidy : plan.IsTidy)
    (hdecided : d.Decided plan.units rendered) :
    ((rendered.map unitPart).map (·.place [])).Nodup := by
  have hnames := htidy.names
  rw [← hdecided.map_unit, List.map_map] at hnames
  have hplaces : (rendered.map unitPart).map (·.place []) =
      (rendered.map fun r => r.unit.name).map fun name => [(Path.ofText name).octets] := by
    rw [List.map_map, List.map_map]
    rfl
  rw [hplaces]
  exact hnames.map fun _ _ heq => Path.octets_ofText_injective (List.cons.inj heq).1

namespace Plan.IsOf

variable (hplan : plan.IsOf role) (htidy : plan.IsTidy) (hdecided : d.Decided plan.units rendered)
include hplan htidy hdecided

omit htidy in
theorem name_ne_rootCheck {r : Destination.Rendered} (hr : r ∈ rendered) :
    (Path.ofText r.unit.name).octets ≠ rootCheckPart.name :=
  (hplan.unit _ (hdecided.unit_mem hr)).name.ne_rootCheck

/-- The links to a unit are at different places. -/
theorem nodup_places_linkParts {r : Destination.Rendered} (hr : r ∈ rendered) :
    ((linkParts r).map (·.place [])).Nodup := by
  have hsublist : (r.unit.reverseEdges.filterMap Edge.linkDirectory?).Sublist
      (r.unit.edges.filterMap Edge.linkDirectory?) := List.filter_sublist.filterMap _
  have hlinks : (r.unit.reverseEdges.filterMap Edge.linkDirectory?).Nodup :=
    List.Nodup.sublist hsublist (htidy.links _ (hdecided.unit_mem hr))
  rw [places_linkParts]
  refine .append (.map (fun _ _ heq => ?_) hlinks) ?_ fun place hplace hroot => ?_
  · exact Path.octets_ofText_injective (List.cons.inj heq).1
  · split
    · exact List.nodup_singleton _
    · exact List.nodup_nil
  · obtain ⟨directory, -, rfl⟩ := List.mem_map.mp hplace
    split at hroot
    · have hlast := congrArg List.getLast? (List.mem_singleton.mp hroot)
      exact hplan.name_ne_rootCheck hdecided hr (Option.some.inj hlast)
    · cases hroot

/-- Links to different units are at different places. -/
theorem links_apart : rendered.Pairwise fun r r' =>
    List.Disjoint ((linkParts r).map (·.place [])) ((linkParts r').map (·.place [])) := by
  have hunits : rendered.Pairwise fun r r' => r.unit.name ≠ r'.unit.name ∧
      (r.unit.check = none ∨ r'.unit.check = none) := by
    have hnames := htidy.names
    have hchecks := htidy.checks
    rw [← hdecided.map_unit, List.map_map, List.nodup_iff_pairwise_ne, List.pairwise_map] at hnames
    rw [← hdecided.map_unit, List.pairwise_map] at hchecks
    exact hnames.and hchecks
  have hasked : ∀ r ∈ rendered, r.unit.check = none → r.check ≠ .rootLink := by
    intro r hr hcheck hroot
    have hresolved := hdecided.resolved_of_mem hr
    rw [hcheck, hroot] at hresolved
    cases hresolved
  refine hunits.imp_of_mem fun {r r'} hr hr' ⟨hname, hcheck⟩ place hplace hplace' => ?_
  rcases getLast?_of_mem_linkPlaces hplace with hlast | ⟨hroot, hlast⟩ <;>
    rcases getLast?_of_mem_linkPlaces hplace' with hlast' | ⟨hroot', hlast'⟩
  · rw [hlast] at hlast'
    exact hname (Path.octets_ofText_injective (Option.some.inj hlast'))
  · rw [hlast] at hlast'
    exact hplan.name_ne_rootCheck hdecided hr (Option.some.inj hlast')
  · rw [hlast] at hlast'
    exact hplan.name_ne_rootCheck hdecided hr' (Option.some.inj hlast').symm
  · exact hcheck.elim (fun hnone => hasked r hr hnone hroot) fun hnone => hasked r' hr' hnone hroot'

omit htidy hdecided in
/-- The settings of a volume are where no link to a unit is. -/
theorem dropIn_of_mem_places {place : Location}
    (h : place ∈ (plan.dropIns.map DropIn.part).map (·.place [])) :
    place = [role.settingsDirectory, settingsName] := by
  obtain ⟨x, hx, rfl⟩ := List.mem_map.mp h
  obtain ⟨y, hy, rfl⟩ := List.mem_map.mp hx
  rcases hplan.forRole.dropIns with hnone | hone
  · rw [hnone] at hy
    cases hy
  · rw [hone] at hy
    rw [List.mem_singleton.mp hy, place_settingsPart]

/-- **No place is that of two parts of a plan.** -/
theorem nodup_places : ((parts rendered plan.dropIns).map (·.place [])).Nodup := by
  have hdropIns : ((plan.dropIns.map DropIn.part).map (·.place [])).Nodup := by
    rcases hplan.forRole.dropIns with hnone | hone
    · rw [hnone]
      exact List.nodup_nil
    · rw [hone]
      exact List.nodup_singleton _
  have hlinks : ((rendered.flatMap linkParts).map (·.place [])).Nodup := by
    rw [List.map_flatMap, List.nodup_flatMap]
    exact ⟨fun r hr => hplan.nodup_places_linkParts htidy hdecided hr,
      hplan.links_apart htidy hdecided⟩
  unfold parts
  rw [List.map_append, List.map_append]
  refine .append (.append (htidy.nodup_places_unitParts hdecided) hdropIns ?_) hlinks ?_
  · intro place hunit hdropIn
    have hlength := length_of_mem_unitPlaces hunit
    rw [hplan.dropIn_of_mem_places hdropIn] at hlength
    cases hlength
  · intro place hfile hlink
    rw [List.map_flatMap] at hlink
    obtain ⟨r, hr, hlink⟩ := List.mem_flatMap.mp hlink
    rcases List.mem_append.mp hfile with hunit | hdropIn
    · have hlength := length_of_mem_unitPlaces hunit
      rw [length_of_mem_linkPlaces hlink] at hlength
      cases hlength
    · obtain rfl := hplan.dropIn_of_mem_places hdropIn
      rcases getLast?_of_mem_linkPlaces hlink with hlast | ⟨-, hlast⟩
      · exact (hplan.unit _ (hdecided.unit_mem hr)).name.ne_settings (Option.some.inj hlast).symm
      · exact absurd (Option.some.inj hlast) (by decide : settingsName ≠ rootCheckPart.name)

end Plan.IsOf

/-! ## Paths -/

/-- The components of a path to a directory of parts. -/
theorem IsOrdinaryName.components_join (hn : IsOrdinaryName n) (d : Destination) :
    (d.directory.join ⟨n⟩).components = d.directory.components ++ [.name n] :=
  hn.isName.components_join hn.ne_dots

/-- **The components of a path to a part** are those of the directory that plans are applied in and
the names of its place. -/
theorem Part.IsRegular.components_path (hx : x.IsRegular) (d : Destination) :
    (x.path d).components = d.directory.components ++ (x.place []).map .name := by
  unfold Part.path
  rw [hx.name.isName.components_join hx.name.ne_dots]
  unfold Part.homePath Part.place Part.home
  cases hn : x.directory? with
  | none => simp
  | some n => simp [(hx.directory n hn).components_join]

end PartitionUnits
