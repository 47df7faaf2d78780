import PartitionUnits.Proofs.MountPlan
import PartitionUnits.Proofs.Submission.PlanParts

/-!
# The parts of plain plans

What all parts of a plan have in common, whoever requests it: where they can be, and how their names
are told from those of directories and of temporary files.

## Main Definitions

* `IsDirectoryName` — the names of directories, which are no places of files or links
* `Part.IsPlain` — a part with ordinary names that are told apart by how they end
* `Plan.IsPlain.parts_isPlain` — the parts of a plan are plain
* `Plan.IsPlain.plainParts`, `Plan.IsPlain.expressible` — they are all that the plan makes

## Design Notes

Files and links are told from directories by how their names end, so a directory that one plan needs
is never where another has a file or a link.
-/

namespace PartitionUnits

open PartitionUnits.Tree Destination.Rendered

variable {name : String} {plan : Plan} {d : Destination} {rendered : List Destination.Rendered}
  {x : Part}

/-! ## Names -/

/-- How the names of directories end: those of settings in `.d`, those of links in `s`. -/
def IsDirectoryName (n : Name) : Prop := n.getLast? = some 0x64 ∨ n.getLast? = some 0x73

/-- A name with an ending after a dot is ordinary. -/
theorem IsOrdinaryName.ofText_append {s suffix : String} (hs : '/' ∉ s.toList)
    (hsuffix : '/' ∉ suffix.toList) (hdot : dot ∈ (Path.ofText suffix).octets)
    (hlast : (Path.ofText suffix).octets.getLast? ≠ some dot)
    (hlength : 2 ≤ (Path.ofText suffix).octets.length ∧ (Path.ofText suffix).octets.length ≤ 16) :
    IsOrdinaryName (Path.ofText (s ++ suffix)).octets where
  isName := .ofText_append hs hsuffix hlength.1
  ne_dots := by
    intro hdots
    rw [Path.ofText_append] at hdots
    have hend := congrArg List.getLast? hdots
    rw [List.getLast?_append_of_ne_nil _ (List.ne_nil_of_mem hdot)] at hend
    exact hlast hend
  apart := by
    intro draw
    rw [Path.ofText_append]
    exact draw.name_ne_append hdot hlength.2

namespace TellsKind

/-- The name of a unit ends like those of its kind. -/
theorem exists_getLast? (h : TellsKind name) : ∃ suffix ∈ unitSuffixes,
    (Path.ofText name).octets.getLast? = (Path.ofText suffix).octets.getLast? := by
  obtain ⟨base, suffix, hsuffix, rfl⟩ := h
  have hends : ∀ s ∈ unitSuffixes, (Path.ofText s).octets ≠ [] := by decide
  refine ⟨suffix, hsuffix, ?_⟩
  rw [Path.ofText_append, List.getLast?_append_of_ne_nil _ (hends suffix hsuffix)]

/-- No unit has the name of a directory. -/
theorem not_isDirectoryName (h : TellsKind name) : ¬ IsDirectoryName (Path.ofText name).octets := by
  obtain ⟨suffix, hsuffix, hlast⟩ := h.exists_getLast?
  have hends : ∀ s ∈ unitSuffixes, (Path.ofText s).octets.getLast? ≠ some 0x64 ∧
      (Path.ofText s).octets.getLast? ≠ some 0x73 := by
    decide
  obtain ⟨hd, hs⟩ := hends suffix hsuffix
  rw [IsDirectoryName, hlast]
  exact fun hname => hname.elim hd hs

/-- The name of a unit is ordinary. -/
theorem isOrdinaryName (h : TellsKind name) (hplain : '/' ∉ name.toList) :
    IsOrdinaryName (Path.ofText name).octets := by
  obtain ⟨base, suffix, hsuffix, rfl⟩ := h
  have hends : ∀ s ∈ unitSuffixes, '/' ∉ s.toList ∧ dot ∈ (Path.ofText s).octets ∧
      (Path.ofText s).octets.getLast? ≠ some dot ∧
      2 ≤ (Path.ofText s).octets.length ∧ (Path.ofText s).octets.length ≤ 16 := by
    decide
  obtain ⟨hslash, hdot, hlast, hlength⟩ := hends suffix hsuffix
  refine .ofText_append (fun hmem => hplain ?_) hslash hdot hlast hlength
  rw [String.toList_append]
  exact List.mem_append_left _ hmem

end TellsKind

/-! ## Parts -/

/-- **A plain part**: its names are ordinary, its directory has the name of one, and the part itself
does not. -/
structure Part.IsPlain (x : Part) : Prop where
  regular : x.IsRegular
  name : ¬ IsDirectoryName x.name
  directory : ∀ n, x.directory? = some n → IsDirectoryName n

theorem UnitFile.IsPlain.isOrdinaryName {u : UnitFile} (h : u.IsPlain) :
    IsOrdinaryName (Path.ofText u.name).octets := h.kind.isOrdinaryName h.name

theorem unitPart_isPlain {r : Destination.Rendered} (h : r.unit.IsPlain) :
    (unitPart r).IsPlain where
  regular := ⟨h.isOrdinaryName, fun _ hn => (by cases hn), fun _ hbody => (by cases hbody)⟩
  name := h.kind.not_isDirectoryName
  directory := fun _ hn => (by cases hn)

/-- The settings of an unlocked volume have the same name for all volumes. -/
theorem settingsPart_isPlain (id : String) : (Unlocking.noTimeout id).part.IsPlain where
  regular := by
    refine ⟨?_, fun n hn => ?_, fun _ hbody => (by cases hbody)⟩
    · simp only [DropIn.part, Unlocking.noTimeout]
      exact .ofText_append (by decide) (by decide) (by decide) (by decide) (by decide)
    · rw [← Option.some.inj hn]
      exact .ofText_append (slash_notMem_deviceUnit id) (by decide) (by decide) (by decide)
        (by decide)
  name := by
    simp only [IsDirectoryName, DropIn.part, Unlocking.noTimeout]
    decide
  directory := by
    intro n hn
    rw [← Option.some.inj hn, Path.ofText_append]
    exact Or.inl (List.getLast?_append_of_ne_nil _ (by decide))

theorem edgePart_isPlain {u : UnitFile} {e : Edge} (hunit : u.IsPlain)
    (hsource : '/' ∉ e.source.toList) (h : edgePart? u e = some x) : x.IsPlain := by
  obtain ⟨suffix, hsuffix, rfl⟩ := Option.map_eq_some_iff.mp h
  have hends : '/' ∉ suffix.toList ∧ dot ∈ (Path.ofText suffix).octets ∧
      (Path.ofText suffix).octets.getLast? = some 0x73 ∧
      2 ≤ (Path.ofText suffix).octets.length ∧ (Path.ofText suffix).octets.length ≤ 16 := by
    cases hrelation : e.relation <;> rw [hrelation] at hsuffix <;> cases hsuffix <;> decide
  obtain ⟨hslash, hdot, hlast, hlength⟩ := hends
  refine ⟨⟨hunit.isOrdinaryName, fun n hn => ?_, fun _ _ => by simp⟩,
    hunit.kind.not_isDirectoryName, fun n hn => ?_⟩
  · rw [← Option.some.inj hn]
    exact .ofText_append hsource hslash hdot (by rw [hlast]; decide) hlength
  · rw [← Option.some.inj hn, Path.ofText_append]
    exact Or.inr ((List.getLast?_append_of_ne_nil _ (List.ne_nil_of_mem hdot)).trans hlast)

theorem rootCheckPart_isPlain : rootCheckPart.IsPlain where
  regular := by
    have hfirst : IsOrdinaryName (Path.ofText ("local-fs.target" ++ ".wants")).octets :=
      .ofText_append (by decide) (by decide) (by decide) (by decide) (by decide)
    have hlast : IsOrdinaryName (Path.ofText ("systemd-fsck-root" ++ ".service")).octets :=
      .ofText_append (by decide) (by decide) (by decide) (by decide) (by decide)
    refine ⟨hlast, fun n hn => ?_, fun _ _ => by simp [rootCheckPart]⟩
    rw [← Option.some.inj hn]
    exact hfirst
  name := by
    rw [IsDirectoryName]
    decide
  directory := by
    intro n hn
    rw [← Option.some.inj hn]
    exact Or.inr (by decide)

/-! ## Plans -/

namespace Plan.IsPlain

variable (hplan : plan.IsPlain) (hdecided : d.Decided plan.units rendered)
include hplan hdecided

theorem plainParts : PlainParts rendered plan.dropIns where
  unit := fun _ hr => (hplan.unit _ (hdecided.unit_mem hr)).isOrdinaryName.isName
  edge := fun _ hr e he =>
    (hplan.unit _ (hdecided.unit_mem hr)).source e (List.mem_of_mem_filter he)
  dropIn := hplan.names.dropIn

theorem expressible : Expressible rendered := by
  intro r hr e he
  obtain ⟨hmem, hne⟩ := List.mem_filter.mp he
  have hreverse := of_decide_eq_true hne
  exact ((hplan.unit _ (hdecided.unit_mem hr)).linked e hmem).resolve_left hreverse.1

/-- **The parts of a plain plan are plain.** -/
theorem parts_isPlain (hx : x ∈ parts rendered plan.dropIns) : x.IsPlain := by
  cases isPartOf_of_mem hx with
  | unit hr => exact unitPart_isPlain (hplan.unit _ (hdecided.unit_mem hr))
  | dropIn hy =>
      obtain ⟨id, rfl⟩ := hplan.dropIn _ hy
      exact settingsPart_isPlain id
  | edge hr he hedge =>
      have hunit := hplan.unit _ (hdecided.unit_mem hr)
      exact edgePart_isPlain hunit (hunit.source _ (List.mem_of_mem_filter he)) hedge
  | rootCheck => exact rootCheckPart_isPlain

end Plan.IsPlain

end PartitionUnits
