import PartitionUnits.Proofs.PlainPlans
import PartitionUnits.Proofs.RolePlans

/-!
# Whose places they are

The files and links of a role's plan are at places that no other role has, in directories that many
roles may share.

## Main Definitions

* `Role.Owns` — the places of a role's files and links
* `Role.Owns.unique` — no place is that of two roles
* `Part.IsOf`, `Plan.IsOf.parts_isOf` — the parts of a role's plan
* `Plan.IsOf.submit_verdict` — what a submission of it comes to

## Design Notes

A file or a link of a role is told by its last name, which is that of one of the role's units; only
the settings of its unlocked volume are told by their directory.  Directories are told by how their
names end.
-/

namespace PartitionUnits

open PartitionUnits.Tree Destination.Rendered

variable {role role' : Role} {name : String} {plan : Plan} {d : Destination} {t : Tree}
  {l place : Location} {rendered : List Destination.Rendered} {x : Part}

/-! ## Places -/

/-- The directory of the settings of a role's unlocked volume. -/
def Role.settingsDirectory (role : Role) : Name :=
  (Path.ofText (Unlocking.deviceUnit role.id ++ ".d")).octets

/-- The file of the settings of an unlocked volume. -/
def settingsName : Name := (Path.ofText ("50-job-timeout-sec-0" ++ ".conf")).octets

/-- **The places of a role's files and links**, below the directory that plans are applied in. -/
inductive Role.Owns : Role → Location → Prop where
  | unit {role : Role} {name : String} (h : role.HasUnit name) :
      Owns role [(Path.ofText name).octets]
  | link {role : Role} {name : String} {directory : Name} (h : role.HasUnit name) :
      Owns role [directory, (Path.ofText name).octets]
  | settings {role : Role} : Owns role [role.settingsDirectory, settingsName]
  | rootCheck {directory : Name} : Owns .root [directory, rootCheckPart.name]

namespace Role.HasUnit

/-- No unit has the name of the settings of a volume. -/
theorem ne_settings (h : role.HasUnit name) : (Path.ofText name).octets ≠ settingsName := by
  obtain ⟨suffix, hsuffix, hlast⟩ := h.tellsKind.exists_getLast?
  have hends : ∀ s ∈ unitSuffixes, settingsName.getLast? ≠ (Path.ofText s).octets.getLast? := by
    decide
  intro heq
  exact hends suffix hsuffix (heq ▸ hlast)

theorem fixedUnits_ne_rootCheck : ∀ role : Role, ∀ name ∈ role.fixedUnits,
    (Path.ofText name).octets ≠ rootCheckPart.name := by
  decide +kernel

/-- No unit of a role has the name of the one that checks the root file system. -/
theorem ne_rootCheck (h : role.HasUnit name) : (Path.ofText name).octets ≠ rootCheckPart.name := by
  rcases h.mem_fixedUnits with hfixed | ⟨-, base, rfl⟩
  · exact fixedUnits_ne_rootCheck role name hfixed
  · intro heq
    have hlast := getLast?_swap base
    rw [heq] at hlast
    exact absurd hlast (by decide)

end Role.HasUnit

namespace Role.Owns

theorem settingsDirectory_injective : ∀ role role' : Role, role ≠ role' →
    role.settingsDirectory ≠ role'.settingsDirectory := by
  decide +kernel

/-- A place with the last name of a unit is that of no other role. -/
theorem eq_of_hasUnit (h : role.HasUnit name) (h' : role'.Owns place)
    (hlast : place.getLast? = some (Path.ofText name).octets) : role = role' := by
  cases h' with
  | unit h' => exact h.unique h' (Option.some.inj hlast).symm
  | link h' => exact h.unique h' (Option.some.inj hlast).symm
  | settings => exact absurd (Option.some.inj hlast).symm h.ne_settings
  | rootCheck => exact absurd (Option.some.inj hlast).symm h.ne_rootCheck

/-- **No place is that of two roles.** -/
theorem unique (h : role.Owns place) (h' : role'.Owns place) : role = role' := by
  cases h with
  | unit h => exact eq_of_hasUnit h h' rfl
  | link h => exact eq_of_hasUnit h h' rfl
  | settings =>
      generalize hplace : [role.settingsDirectory, settingsName] = place at h'
      cases h' with
      | unit => simp at hplace
      | link h' =>
          have hlast := congrArg List.getLast? hplace
          exact (eq_of_hasUnit h' .settings hlast).symm
      | settings =>
          by_contra hne
          exact settingsDirectory_injective role role' hne (List.cons.inj hplace).1
      | rootCheck =>
          obtain ⟨-, hrest⟩ := List.cons.inj hplace
          exact absurd (List.cons.inj hrest).1 (by decide)
  | @rootCheck directory =>
      generalize hplace : [directory, rootCheckPart.name] = place at h'
      cases h' with
      | unit => simp at hplace
      | link h' =>
          have hlast := congrArg List.getLast? hplace
          exact (eq_of_hasUnit h' .rootCheck hlast).symm
      | settings =>
          obtain ⟨-, hrest⟩ := List.cons.inj hplace
          exact absurd (List.cons.inj hrest).1 (by decide)
      | rootCheck => rfl

/-- **No place has the name of a directory.** -/
theorem not_directory {n : Name} (h : role.Owns [n]) : ¬ IsDirectoryName n := by
  generalize hplace : [n] = place at h
  cases h with
  | unit h =>
      rw [(List.cons.inj hplace).1]
      exact h.tellsKind.not_isDirectoryName
  | link => simp at hplace
  | settings => simp at hplace
  | rootCheck => simp at hplace

end Role.Owns

/-! ## Parts of roles -/

/-- **A part of a role**: its names are ordinary, its place is the role's, and its directory has
the name of one. -/
structure Part.IsOf (x : Part) (role : Role) : Prop where
  regular : x.IsRegular
  owned : role.Owns (x.place [])
  directory : ∀ n, x.directory? = some n → IsDirectoryName n

theorem place_settingsPart (role : Role) :
    (Unlocking.noTimeout role.id).part.place [] = [role.settingsDirectory, settingsName] := by
  simp only [Part.place, Part.home, DropIn.part, Unlocking.noTimeout, Role.settingsDirectory,
    settingsName, Option.toList_some, List.nil_append, List.cons_append]

theorem owns_settingsPart (role : Role) :
    role.Owns ((Unlocking.noTimeout role.id).part.place []) := by
  rw [place_settingsPart]
  exact .settings

theorem owns_edgePart {u : UnitFile} {e : Edge} (hunit : role.HasUnit u.name)
    (h : edgePart? u e = some x) : role.Owns (x.place []) := by
  obtain ⟨suffix, -, rfl⟩ := Option.map_eq_some_iff.mp h
  exact .link hunit

/-- Only the root file system is checked through a link. -/
theorem CheckRequest.mountPoint_of_rootLink {request : CheckRequest} {inInitrd : Bool}
    {hasHelper : String → Bool}
    (h : (request.resolve inInitrd hasHelper).run.value = .ok .rootLink) :
    request.mountPoint = "/" := by
  unfold resolve at h
  split at h
  · cases h
  split at h
  · cases h
  split at h
  · assumption
  split at h
  · cases h
  split at h <;> cases h

theorem Role.IsAt.eq_root (h : role.IsAt "/") : role = .root := by
  obtain ⟨inInitrd, hplace⟩ := h
  cases role <;> cases inInitrd <;> first | rfl | exact absurd hplace (by decide)

/-! ## The parts of a role's plan -/

namespace FilesFirst

variable {xs ys : List Part}

theorem of_no_files (h : ∀ y ∈ ys, ∀ content, y.body ≠ .file content) : FilesFirst ys := by
  intro before y after content hsplit hbody
  exact absurd hbody (h y (hsplit ▸ List.mem_append_right _ List.mem_cons_self) content)

theorem cons (h : ∀ y ∈ ys, ∀ content, y.body ≠ .file content) (x : Part) :
    FilesFirst (x :: ys) := by
  intro before y after content hsplit hbody
  cases before with
  | nil => simp
  | cons x' rest =>
      obtain ⟨-, hrest⟩ := List.cons.inj hsplit
      exact absurd hbody (h y (hrest ▸ List.mem_append_right _ List.mem_cons_self) content)

theorem append (h : FilesFirst ys) (hxs : ∀ x ∈ xs, x.directory? = none) :
    FilesFirst (xs ++ ys) := by
  intro before y after content hsplit hbody z hz
  rcases List.append_eq_append_iff.mp hsplit with ⟨between, rfl, hys⟩ | ⟨between, rfl, -⟩
  · rcases List.mem_append.mp hz with hz | hz
    · exact hxs z hz
    · exact h between y after content hys hbody z hz
  · exact hxs z (List.mem_append_left _ hz)

end FilesFirst

/-- Links are no files. -/
theorem body_ne_file_of_mem_links {content : String} (hx : x ∈ rendered.flatMap linkParts) :
    x.body ≠ .file content := by
  obtain ⟨r, -, hx⟩ := List.mem_flatMap.mp hx
  rcases List.mem_append.mp hx with hx | hx
  · obtain ⟨e, -, he⟩ := List.mem_filterMap.mp hx
    obtain ⟨suffix, -, rfl⟩ := Option.map_eq_some_iff.mp he
    simp
  · split at hx
    · rw [List.mem_singleton.mp hx]
      simp [rootCheckPart]
    · cases hx

/-- What was decided about the check of a unit. -/
theorem Destination.Decided.resolved_of_mem {units : List UnitFile}
    (h : d.Decided units rendered) {r : Destination.Rendered} (hr : r ∈ rendered) :
    match r.unit.check with
    | none => r.check = .none
    | some request => (request.resolve d.inInitrd d.hasHelper).run.value = .ok r.check := by
  induction h with
  | nil => cases hr
  | cons hfirst _ ih =>
      rcases List.mem_cons.mp hr with rfl | hrest
      · obtain ⟨hunit, hresolved⟩ := hfirst
        rwa [← hunit] at hresolved
      · exact ih hrest

namespace Plan.IsOf

variable (hplan : plan.IsOf role) (hdecided : d.Decided plan.units rendered)
include hplan hdecided

omit hdecided in
theorem isPlain : plan.IsPlain where
  unit := by
    intro u hu
    exact ⟨hplan.forRole.names.unit u hu, hplan.forRole.kinds u hu, hplan.forRole.names.edge u hu,
      (hplan.unit u hu).links⟩
  dropIn := by
    intro x hx
    rcases hplan.forRole.dropIns with hnone | hone
    · rw [hnone] at hx
      cases hx
    · rw [hone] at hx
      exact ⟨role.id, List.mem_singleton.mp hx⟩

theorem isOrdinaryName {r : Destination.Rendered} (hr : r ∈ rendered) :
    IsOrdinaryName (Path.ofText r.unit.name).octets :=
  (hplan.isPlain.unit _ (hdecided.unit_mem hr)).isOrdinaryName

theorem plainParts : PlainParts rendered plan.dropIns := hplan.isPlain.plainParts hdecided

theorem actions_eq : d.actions rendered plan.dropIns =
    (parts rendered plan.dropIns).flatMap (·.actions d) :=
  (hplan.plainParts hdecided).actions_eq (hplan.isPlain.expressible hdecided)

/-- Only a plan for the root file system has it checked through a link. -/
theorem eq_root_of_rootLink {r : Destination.Rendered} (hr : r ∈ rendered)
    (hlink : r.check = .rootLink) : role = .root := by
  have hunit := hplan.unit _ (hdecided.unit_mem hr)
  have hresolved := hdecided.resolved_of_mem hr
  cases hcheck : r.unit.check with
  | none =>
      simp only [hcheck, hlink] at hresolved
      cases hresolved
  | some request =>
      simp only [hcheck, hlink] at hresolved
      have hplace := hunit.check request hcheck
      rw [CheckRequest.mountPoint_of_rootLink hresolved] at hplace
      exact hplace.eq_root

/-- The places of the parts of a role's plan are the role's. -/
theorem owns_part (hx : x ∈ parts rendered plan.dropIns) : role.Owns (x.place []) := by
  cases isPartOf_of_mem hx with
  | unit hr => exact .unit (hplan.unit _ (hdecided.unit_mem hr)).name
  | dropIn hy =>
      rcases hplan.forRole.dropIns with hnone | hone
      · rw [hnone] at hy
        cases hy
      · rw [hone] at hy
        rw [List.mem_singleton.mp hy]
        exact owns_settingsPart role
  | edge hr _ hedge => exact owns_edgePart (hplan.unit _ (hdecided.unit_mem hr)).name hedge
  | rootCheck hr hcheck =>
      rw [hplan.eq_root_of_rootLink hdecided hr hcheck]
      exact .rootCheck

/-- **The parts of a role's plan are the role's.** -/
theorem parts_isOf (hx : x ∈ parts rendered plan.dropIns) : x.IsOf role where
  regular := (hplan.isPlain.parts_isPlain hdecided hx).regular
  owned := hplan.owns_part hdecided hx
  directory := (hplan.isPlain.parts_isPlain hdecided hx).directory

omit hdecided in
theorem filesFirst : FilesFirst (parts rendered plan.dropIns) := by
  have hlinks : ∀ x ∈ rendered.flatMap linkParts, ∀ content, x.body ≠ .file content :=
    fun x hx content => body_ne_file_of_mem_links hx
  unfold parts
  rw [List.append_assoc]
  refine .append ?_ fun x hx => ?_
  · rcases hplan.forRole.dropIns with hnone | hone
    · rw [hnone]
      exact .of_no_files hlinks
    · rw [hone]
      exact .cons hlinks _
  · obtain ⟨r, -, rfl⟩ := List.mem_map.mp hx
    rfl

/-- **What a submission of a role's plan comes to.** -/
theorem submit_verdict (hl : d.LiesAt t l) :
    SubmitVerdict (parts rendered plan.dropIns) d l t ((d.submit plan).run t).1.value
      ((d.submit plan).run t).2 :=
  PartitionUnits.submit_verdict hl hdecided (hplan.plainParts hdecided)
    (hplan.isPlain.expressible hdecided) (fun _ hx => (hplan.parts_isOf hdecided hx).regular)
    hplan.filesFirst

end Plan.IsOf

end PartitionUnits
