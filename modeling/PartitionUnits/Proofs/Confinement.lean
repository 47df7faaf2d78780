import PartitionUnits.Proofs.Concurrency.Submissions
import PartitionUnits.Proofs.Unit.Faithful

/-!
# What requests make stays where plans are applied

A request is made of texts that come from disks and from devices.  Whatever they are, all that a
submission makes for it is in the directory that plans are applied in, or in a directory there.

## Main Definitions

* `Path.IsVisibleName` — a name of a file that cannot lead elsewhere and is not hidden
* `Path.IsWithin` — a path of one or two such names below a directory
* `Action.IsConfined` — makes something within a directory, or a link that leads to a unit
* `Plan.IsRequested.actions_confined` — all that a submission makes is confined

## Design Notes

A path that is joined to another one takes its place if it is absolute, and leaves it if a name in
it is two dots.  Visible names have no slash and no dot at their start, so that what is joined to a
directory here is below it.

The names of temporary files do start with a dot.  They are drawn, and not made of a request.
-/

namespace PartitionUnits

open Attempt Destination.Rendered

variable {d : Destination} {directory p : Path} {plan : Plan}
  {rendered : List Destination.Rendered} {x : Part}

/-! ## Names -/

/-- The name of one file in a directory: it says something, has no slash and no NUL, and does not
start with a dot. -/
structure Path.IsVisibleName (name : Octets) : Prop where
  ne_nil : name ≠ []
  slash_notMem : slash ∉ name
  nul_notMem : 0 ∉ name
  notHidden : name.head? ≠ some dot

/-- **A path within a directory** is a visible name in it, or in a directory of it with one. -/
inductive Path.IsWithin : Path → Path → Prop where
  | entry {directory : Path} {name : Octets} (h : IsVisibleName name) :
      IsWithin (directory.join ⟨name⟩) directory
  | below {directory : Path} {first last : Octets} (hfirst : IsVisibleName first)
      (hlast : IsVisibleName last) : IsWithin ((directory.join ⟨first⟩).join ⟨last⟩) directory

namespace UnitName

/-- A text that is the name of one file, and of none that is hidden. -/
structure IsVisible (name : String) : Prop where
  ne_empty : name ≠ ""
  slash_notMem : '/' ∉ name.toList
  nul_notMem : '\x00' ∉ name.toList
  notHidden : name.toList.head? ≠ some '.'

theorem nul_notMem_escape (s : String) : '\x00' ∉ (escape s).toList := by
  intro h
  exact absurd (isUnitChar_of_mem_escape h) (by decide)

theorem isVisible_escape {s : String} (h : s ≠ "") : IsVisible (escape s) where
  ne_empty := mt (escape_eq_empty_iff s).mp h
  slash_notMem := slash_notMem_escape s
  nul_notMem := nul_notMem_escape s
  notHidden := head?_escape_ne_dot s

namespace IsVisible

variable {name rest : String}

theorem append (h : IsVisible name) (hslash : '/' ∉ rest.toList) (hnul : '\x00' ∉ rest.toList) :
    IsVisible (name ++ rest) where
  ne_empty := by simp [h.ne_empty]
  slash_notMem := slash_notMem_append h.slash_notMem hslash
  nul_notMem := by simp [h.nul_notMem, hnul]
  notHidden := by
    obtain ⟨c, cs, hcs⟩ := List.exists_cons_of_ne_nil (mt String.toList_eq_nil_iff.mp h.ne_empty)
    rw [String.toList_append, hcs, List.cons_append, List.head?_cons]
    simpa [hcs] using h.notHidden

/-- **A text that is visible is visible on disk.** -/
theorem isVisibleName (h : IsVisible name) : Path.IsVisibleName (Path.ofText name).octets where
  ne_nil := by
    obtain ⟨c, cs, hcs⟩ := List.exists_cons_of_ne_nil (mt String.toList_eq_nil_iff.mp h.ne_empty)
    simp [Path.ofText, Text.encode, hcs, String.utf8EncodeChar_ne_nil]
  slash_notMem := Path.slash_notMem_ofText h.slash_notMem
  nul_notMem := mt (Path.mem_encode_iff (by decide) rfl).mp h.nul_notMem
  notHidden := mt (Path.head?_encode_iff (by decide) rfl).mp h.notHidden

end IsVisible

theorem isVisible_milestone (m : Milestone) : IsVisible m.unit := by
  cases m <;> constructor <;> decide

/-- **The unit for a path is visible**, whatever the path is. -/
theorem isVisible_ofPath {path suffix name : String} (h : ofPath path suffix = .ok name)
    (hslash : '/' ∉ suffix.toList) (hnul : '\x00' ∉ suffix.toList) : IsVisible name := by
  obtain ⟨escaped, hescaped, rfl⟩ := ofPath_eq_ok h
  obtain ⟨-, -, rfl⟩ := escapePath_eq_ok_iff.mp hescaped
  refine (isVisible_escape fun hempty => ?_).append hslash hnul
  -- The empty text has no names, and the root directory is spelled with a slash.
  have hnames := segments_spelling path
  rw [hempty] at hnames
  rw [← hnames] at hempty
  exact absurd hempty (by decide)

theorem isVisible_deviceUnit (id : String) : IsVisible (Unlocking.deviceUnit id) := by
  have hstart : IsVisible "dev-mapper-" := by constructor <;> decide
  exact (hstart.append (slash_notMem_escape id) (nul_notMem_escape id)).append (by decide)
    (by decide)

theorem isVisible_serviceUnit (id : String) : IsVisible (Unlocking.serviceUnit id) := by
  have hstart : IsVisible ("systemd-cryptsetup" ++ "@") := by constructor <;> decide
  exact (hstart.append (slash_notMem_escape id) (nul_notMem_escape id)).append (by decide)
    (by decide)

end UnitName

open UnitName

/-! ## Units -/

/-- The names that the files of a unit and the directories of its links are made of. -/
structure UnitFile.IsVisible (u : UnitFile) : Prop where
  name : UnitName.IsVisible u.name
  source : ∀ e ∈ u.edges, UnitName.IsVisible e.source

namespace UnitFile.IsVisible

variable {u : UnitFile} {relation : Relation} {source target : String}

theorem of_no_edges (h : UnitName.IsVisible u.name) (hedges : u.edges = []) : u.IsVisible where
  name := h
  source := by simp [hedges]

theorem depends (h : u.IsVisible) : (u.depends relation target).IsVisible where
  name := h.name
  source := by
    simp only [UnitFile.depends, List.forall_mem_append, List.forall_mem_singleton]
    exact ⟨h.source, h.name⟩

theorem dependedOnBy (h : u.IsVisible) (hsource : UnitName.IsVisible source) :
    (u.dependedOnBy source relation).IsVisible where
  name := h.name
  source := by
    simp only [UnitFile.dependedOnBy, List.forall_mem_append, List.forall_mem_singleton]
    exact ⟨h.source, hsource⟩

/-- A unit for a path with no more than one dependency on a milestone and one of a milestone on
it. -/
theorem of_milestone {path suffix : String} {m m' : Milestone} {relation' : Relation}
    (hname : ofPath path suffix = .ok u.name) (hslash : '/' ∉ suffix.toList)
    (hnul : '\x00' ∉ suffix.toList) (hedges : u.edges = []) :
    ((u.depends relation m.unit).dependedOnBy m'.unit relation').IsVisible :=
  (of_no_edges (isVisible_ofPath hname hslash hnul) hedges).depends.dependedOnBy
    (isVisible_milestone m')

end UnitFile.IsVisible

theorem MountRequest.unit_isVisible {r : MountRequest} {name device : String}
    {fsType : Option String} (h : UnitName.IsVisible name) :
    (r.unit name device fsType).IsVisible := by
  unfold MountRequest.unit
  simp only
  split
  · exact (UnitFile.IsVisible.of_no_edges h rfl).depends.dependedOnBy (isVisible_milestone _)
  · exact .of_no_edges h rfl

theorem Unlocking.service_isVisible {id source consumer sourceUnit : String} {rw : Bool}
    (h : UnitName.IsVisible sourceUnit) :
    (Unlocking.service id source rw consumer sourceUnit).IsVisible where
  name := isVisible_serviceUnit id
  source := by
    have hservice := isVisible_serviceUnit id
    rw [edges_service]
    simp only [List.forall_mem_cons]
    exact ⟨hservice, hservice, hservice, hservice, hservice, hservice, hservice, h,
      isVisible_milestone _, isVisible_deviceUnit id, by simp⟩

/-! ## Plans -/

namespace Plan

/-- **What the links of a plan lead to**: a unit of the plan, next to the directory of the link, or
the check of the root file system. -/
inductive IsLinkTarget (plan : Plan) : Path → Prop where
  | unit {u : UnitFile} (hu : u ∈ plan.units) : IsLinkTarget plan (Path.ofText ("../" ++ u.name))
  | rootCheck :
      IsLinkTarget plan (Path.ofText "/usr/lib/systemd/system/systemd-fsck-root.service")

end Plan

/-- **The units of requested plans have visible names.** -/
theorem Plan.IsRequested.isVisible (h : plan.IsRequested) : ∀ u ∈ plan.units, u.IsVisible := by
  intro u hu
  cases h.units u hu with
  | mount hname =>
      exact MountRequest.unit_isVisible (isVisible_ofPath hname (by decide) (by decide))
  | service hsource =>
      exact Unlocking.service_isVisible (isVisible_ofPath hsource (by decide) (by decide))
  | automount hname => exact .of_milestone hname (by decide) (by decide) rfl
  | swap hname => exact .of_milestone hname (by decide) (by decide) rfl

/-! ## What a submission makes -/

/-- **A part is confined**: its names are visible, and if it is a link it leads to a unit. -/
structure Part.IsConfined (plan : Plan) (x : Part) : Prop where
  name : Path.IsVisibleName x.name
  directory : ∀ n, x.directory? = some n → Path.IsVisibleName n
  target : ∀ target, x.body = .link target → plan.IsLinkTarget target

/-- **What a plan makes in a directory is confined** to files, directories and links within it, and
the links lead to units. -/
inductive Action.IsConfined (directory : Path) (plan : Plan) : Action → Prop where
  | file {p : Path} {content : String} {draws : List Draw} (h : p.IsWithin directory) :
      IsConfined directory plan (.makeFile p content draws)
  | directory {p : Path} (h : p.IsWithin directory) :
      IsConfined directory plan (.ensureDirectory p)
  | link {target p : Path} (h : p.IsWithin directory) (htarget : plan.IsLinkTarget target) :
      IsConfined directory plan (.makeLink target p)

theorem unitPart_isConfined {r : Destination.Rendered} (h : r.unit.IsVisible) :
    (unitPart r).IsConfined plan where
  name := h.name.isVisibleName
  directory := fun _ hn => by cases hn
  target := fun _ hbody => by cases hbody

theorem settingsPart_isConfined (id : String) : (Unlocking.noTimeout id).part.IsConfined plan where
  name := by
    have hname : UnitName.IsVisible ("50-job-timeout-sec-0" ++ ".conf") := by
      constructor <;> decide
    simp only [DropIn.part, Unlocking.noTimeout]
    exact hname.isVisibleName
  directory := by
    intro n hn
    rw [← Option.some.inj hn]
    exact ((isVisible_deviceUnit id).append (by decide) (by decide)).isVisibleName
  target := fun _ hbody => by cases hbody

theorem edgePart_isConfined {u : UnitFile} {e : Edge} (hu : u ∈ plan.units) (h : u.IsVisible)
    (he : e ∈ u.edges) (hpart : edgePart? u e = some x) : x.IsConfined plan := by
  obtain ⟨suffix, hsuffix, rfl⟩ := Option.map_eq_some_iff.mp hpart
  have hends : '/' ∉ suffix.toList ∧ '\x00' ∉ suffix.toList := by
    cases hrelation : e.relation <;> rw [hrelation] at hsuffix <;> cases hsuffix <;> decide
  refine ⟨h.name.isVisibleName, ?_, ?_⟩
  · intro n hn
    rw [← Option.some.inj hn]
    exact ((h.source e he).append hends.1 hends.2).isVisibleName
  · rintro _ ⟨⟩
    exact .unit hu

theorem rootCheckPart_isConfined : rootCheckPart.IsConfined plan where
  name := by
    have hname : UnitName.IsVisible "systemd-fsck-root.service" := by constructor <;> decide
    exact hname.isVisibleName
  directory := by
    intro n hn
    rw [← Option.some.inj hn]
    have hname : UnitName.IsVisible "local-fs.target.wants" := by constructor <;> decide
    exact hname.isVisibleName
  target := by
    intro target hbody
    rw [← PartBody.link.inj hbody]
    exact .rootCheck

/-- The actions for a confined part are confined. -/
theorem Part.IsConfined.actions (h : x.IsConfined plan) {a : Action} (ha : a ∈ x.actions d) :
    a.IsConfined d.directory plan := by
  have hpath : (x.path d).IsWithin d.directory := by
    unfold Part.path Part.homePath
    split
    · exact .entry h.name
    · next n hn => exact .below (h.directory n hn) h.name
  rcases List.mem_append.mp ha with ha | ha
  · obtain ⟨n, hn, rfl⟩ := List.mem_map.mp ha
    exact .directory (.entry (h.directory n (Option.mem_toList.mp hn)))
  · rw [List.mem_singleton.mp ha]
    unfold Part.action
    split
    · exact .file hpath
    · next target hbody => exact .link hpath (h.target target hbody)

/-- **The parts of a plan that a request comes to are confined.** -/
theorem Plan.IsRequested.parts_isConfined (h : plan.IsRequested)
    (hdecided : d.Decided plan.units rendered) (hx : x ∈ parts rendered plan.dropIns) :
    x.IsConfined plan := by
  cases isPartOf_of_mem hx with
  | unit hr => exact unitPart_isConfined (h.isVisible _ (hdecided.unit_mem hr))
  | dropIn hy =>
      obtain ⟨id, rfl⟩ := h.isPlain.dropIn _ hy
      exact settingsPart_isConfined id
  | edge hr he hedge =>
      have hunit := hdecided.unit_mem hr
      exact edgePart_isConfined hunit (h.isVisible _ hunit) (List.mem_of_mem_filter he) hedge
  | rootCheck => exact rootCheckPart_isConfined

/-- **What requests make stays where plans are applied.**  Whatever the texts of a request are, all
that a submission makes for it are files, directories and links that are one or two visible names
below the directory, and each link leads to a unit of the same plan or to the check of the root file
system. -/
theorem Plan.IsRequested.actions_confined (h : plan.IsRequested)
    (hrender : (d.render plan.units).run.value = .ok rendered) :
    ∀ a ∈ d.actions rendered plan.dropIns, a.IsConfined d.directory plan := by
  have hdecided := render_eq_ok_iff.mp hrender
  intro a ha
  rw [(h.isPlain.plainParts hdecided).actions_eq (h.isPlain.expressible hdecided)] at ha
  obtain ⟨x, hx, ha⟩ := List.mem_flatMap.mp ha
  exact (h.parts_isConfined hdecided hx).actions ha

/-- A request for an encrypted partition with texts that would lead elsewhere. -/
def hostileRequest : MountRequest where
  id := "..\n/.x\x00"
  device := "/dev/./.sda\x003"
  mountPoint := "//.config/\n"
  fsType := some luksType
  rw := false
  description := "\n../"
  milestone := some .localFs

/-- What that request comes to. -/
def hostilePlan : Plan where
  units := [Unlocking.service hostileRequest.id hostileRequest.device false
      "\\x2econfig-\\x0a.mount" "dev-.-.sda\\x003.device",
    hostileRequest.unit "\\x2econfig-\\x0a.mount" ("/dev/mapper/" ++ hostileRequest.id) none]
  dropIns := [Unlocking.noTimeout hostileRequest.id]

/-- All that a submission makes for such a request is confined. -/
theorem hostilePlan_confined :
    hostileRequest.plan.run.value = .ok hostilePlan ∧
      ∃ rendered, (bareDestination.render hostilePlan.units).run.value = .ok rendered ∧
        rendered.map (·.unit) = hostilePlan.units ∧
        ∀ a ∈ bareDestination.actions rendered hostilePlan.dropIns,
          a.IsConfined bareDestination.directory hostilePlan := by
  have hmount : ofPath "//.config/\n" ".mount" = .ok "\\x2econfig-\\x0a.mount" := by
    decide +kernel
  have hsource : ofPath "/dev/./.sda\x003" ".device" = .ok "dev-.-.sda\\x003.device" := by
    decide +kernel
  have hplan : hostileRequest.plan.run.value = .ok hostilePlan :=
    MountRequest.plan_eq_ok_iff.mpr ⟨_, hmount, .unlocked rfl hsource⟩
  have hrender : (bareDestination.render hostilePlan.units).run.value =
      .ok (hostilePlan.units.map fun u => ⟨u, if u.check = none then .none else
        .service "systemd-fsck@dev-mapper-..\\x0a-.x\\x00.service"⟩) := by
    decide +kernel
  exact ⟨hplan, _, hrender, rfl, Plan.IsRequested.actions_confined (.mount hplan) hrender⟩

end PartitionUnits
