import PartitionUnits.Proofs.Agreement
import PartitionUnits.Proofs.BootMount
import PartitionUnits.Proofs.Unit.Escape

/-!
# What the administrator has set up

The table of static mounts has a say in two roles only: any line for swap keeps partitions from
being swapped on, and any line for `/boot` keeps that from being mounted.

## Main Definitions

* `StaticMount.IsAt` — where a line mounts something, said of its text
* `StaticMounts.HasSwap`, `StaticMounts.HasBoot` — what the table is asked
* `mountsAt_iff`, `isAt_of_ofPath` — the paths of lines are compared as their texts say, and so are
  the names of units
* `static_mounts_prevail` — what follows from the answers, and that nothing else does

## Design Notes

Two rules say when paths are the same: that of components, by which lines are compared, leaves out
lone dots, and that of unit names does not.  A line whose unit would be that of `/boot` has to be
found by the first rule, or else the unit of the line and a generated one would be at odds.
-/

namespace PartitionUnits

open Attempt Text

variable {σ : Type} {m : Machine} {h : Host} {a : Assignment} {r : Rule} {plan : Plan}
  {mounts mounts' : StaticMounts} {line : StaticMount}

/-! ## Paths of texts -/

namespace Path

/-- The pieces of a text between slashes, empty ones and lone dots left out. -/
def pieces (s : String) : List (List Char) :=
  (s.toList.splitOn '/').filter fun piece => piece ≠ [] ∧ piece ≠ ['.']

theorem isFiller_encode (piece : List Char) :
    (!isFiller (encode piece)) = decide (piece ≠ [] ∧ piece ≠ ['.']) := by
  have hnil : encode piece = [] ↔ piece = [] :=
    ⟨fun h => encode_injective (h.trans (show [] = encode [] from rfl)), fun h => by rw [h]; rfl⟩
  have hdot : encode piece = [dot] ↔ piece = ['.'] :=
    ⟨fun h => encode_injective (h.trans (show [dot] = encode ['.'] from rfl)),
      fun h => by rw [h]; rfl⟩
  simp only [isFiller, hnil, hdot, Bool.not_or, decide_not, Bool.decide_and]

theorem isAbsolute_ofText (s : String) :
    (ofText s).isAbsolute = true ↔ s.toList.head? = some '/' :=
  decide_eq_true_iff.trans (head?_encode_iff (by decide) rfl)

theorem componentOf_ne_root (segment : Octets) : componentOf segment ≠ .root := by
  unfold componentOf
  split <;> simp

theorem componentOf_ne_here (segment : Octets) : componentOf segment ≠ .here := by
  unfold componentOf
  split <;> simp

/-- **The components of a text** are its pieces, after the root directory if the text starts with a
slash. -/
theorem plainComponents_ofText (s : String) : (ofText s).plainComponents =
    (if s.toList.head? = some '/' then [.root] else []) ++
      (pieces s).map (componentOf ∘ encode) := by
  have hpieces : (ofText s).segments.filter (!isFiller ·) = (pieces s).map encode := by
    rw [filter_segments, octets_ofText,
      splitOn_encode (by decide) (show String.utf8EncodeChar '/' = [slash] from rfl),
      List.filter_map]
    simp only [Function.comp_def, isFiller_encode]
    rfl
  have hnames : ((pieces s).map (componentOf ∘ encode)).filter (· ≠ .here) =
      (pieces s).map (componentOf ∘ encode) := by
    rw [List.filter_eq_self]
    intro component hcomponent
    obtain ⟨piece, -, rfl⟩ := List.mem_map.mp hcomponent
    simpa using componentOf_ne_here (encode piece)
  unfold plainComponents components
  rw [List.filter_append, hpieces, List.map_map, hnames]
  by_cases habs : (ofText s).isAbsolute = true
  · rw [if_pos habs, if_pos ((isAbsolute_ofText s).mp habs)]
    rfl
  · rw [if_neg habs, if_neg (mt (isAbsolute_ofText s).mpr habs)]
    split <;> rfl

end Path

/-! ## What the table is asked -/

/-- **A line mounts something at a place** that is given by its names: the line says an absolute
path with these pieces. -/
def StaticMount.IsAt (line : StaticMount) (names : List String) : Prop :=
  line.mountPoint.toList.head? = some '/' ∧
    Path.pieces line.mountPoint = names.map String.toList

instance (line : StaticMount) (names : List String) : Decidable (line.IsAt names) :=
  inferInstanceAs (Decidable (_ ∧ _))

namespace StaticMounts

/-- Some line is for swap. -/
def HasSwap (mounts : StaticMounts) : Prop := ∃ line ∈ mounts.mounts, line.fsType = "swap"

/-- Some line mounts something at `/boot`. -/
def HasBoot (mounts : StaticMounts) : Prop := ∃ line ∈ mounts.mounts, line.IsAt ["boot"]

instance (mounts : StaticMounts) : Decidable mounts.HasSwap :=
  inferInstanceAs (Decidable (∃ _ ∈ _, _))

instance (mounts : StaticMounts) : Decidable mounts.HasBoot :=
  inferInstanceAs (Decidable (∃ _ ∈ _, _))

theorem hasType_swap_iff : mounts.hasType "swap" = true ↔ mounts.HasSwap := by
  simp [hasType, HasSwap]

end StaticMounts

/-- **The path of a line is that of `/boot`** just when its text says so. -/
theorem StaticMount.plainComponents_eq_boot_iff :
    (Path.ofText line.mountPoint).plainComponents = (Path.ofText "/boot").plainComponents ↔
      line.IsAt ["boot"] := by
  have hboot : (Path.ofText "/boot").plainComponents = [.root, .name (encode "boot".toList)] := by
    decide
  rw [hboot, Path.plainComponents_ofText, IsAt]
  constructor
  · intro h
    split at h
    · next habs =>
        refine ⟨habs, ?_⟩
        obtain ⟨piece, hpiece, hname⟩ := List.map_eq_singleton_iff.mp (List.cons.inj h).2
        rw [hpiece]
        simp only [Function.comp_apply, Path.componentOf] at hname
        split at hname
        · cases hname
        · rw [encode_injective (Component.name.inj hname)]
          rfl
    · obtain ⟨piece, rest, -, hroot, -⟩ := List.map_eq_cons_iff.mp h
      exact absurd hroot (Path.componentOf_ne_root _)
  · rintro ⟨habs, hpieces⟩
    rw [if_pos habs, hpieces]
    rfl

theorem StaticMounts.mountsAt_iff :
    mounts.mountsAt (Path.ofText "/boot") = true ↔ mounts.HasBoot := by
  simp only [mountsAt, HasBoot, List.any_eq_true, decide_eq_true_eq,
    StaticMount.plainComponents_eq_boot_iff]

/-- **A line whose unit would be that of `/boot`** mounts something there. -/
theorem StaticMount.isAt_of_ofPath
    (h : UnitName.ofPath line.mountPoint ".mount" = .ok "boot.mount") : line.IsAt ["boot"] := by
  rw [show "boot.mount" = UnitName.escape "boot" ++ ".mount" from rfl,
    UnitName.ofPath_eq_ok_append_iff] at h
  obtain ⟨habs, hsegments⟩ := UnitName.segments_of_escapePath (by decide) h
  refine ⟨habs, ?_⟩
  have hpieces : Path.pieces line.mountPoint =
      (UnitName.segments line.mountPoint).filter (· ≠ ['.']) := by
    rw [Path.pieces, UnitName.segments, List.filter_filter]
    refine List.filter_congr fun piece _ => ?_
    simp [Bool.and_comm]
  rw [hpieces, hsegments]
  rfl

/-! ## What follows from the answers -/

/-- The machine with another table of static mounts. -/
def Machine.withStaticMounts (m : Machine) (mounts : StaticMounts) : Machine :=
  { m with host := { m.host with staticMounts := .ok mounts } }

/-- **The site of a machine whose table of static mounts has a text**, and that is the same site
otherwise. -/
def Site.withStaticMounts (site : Site σ) (text : String) : Site σ :=
  { site with machine := fun s => (site.machine s).withStaticMounts (StaticMounts.parse text) }

/-- What confirms the EFI system partition, besides that it is not a static mount. -/
theorem bootConfirmed_withStaticMounts (hboot : mounts'.HasBoot ↔ mounts.HasBoot)
    (h : BootConfirmed (m.withStaticMounts mounts) a) :
    BootConfirmed (m.withStaticMounts mounts') a where
  isEfiBoot := h.isEfiBoot
  notInInitrd := h.notInInitrd
  notInContainer := h.notInContainer
  startedFrom := h.startedFrom
  notStatic := by
    obtain ⟨asked, hasked, hfree⟩ := h.notStatic
    cases hasked
    refine ⟨mounts', rfl, ?_⟩
    rw [← Bool.not_eq_true, StaticMounts.mountsAt_iff] at hfree ⊢
    exact mt hboot.mp hfree
  notBusy := h.notBusy

/-- A swap partition is swapped on with one table if it is with another one. -/
theorem decideSwap_withStaticMounts (hswap : mounts'.HasSwap ↔ mounts.HasSwap)
    (h : (decideSwap (m.withStaticMounts mounts).host a).run.value = .ok (.emit plan)) :
    (decideSwap (m.withStaticMounts mounts').host a).run.value = .ok (.emit plan) := by
  obtain ⟨asked, hasked, hfree, hplan⟩ := decideSwap_eq_emit_iff.mp h
  cases hasked
  refine decideSwap_eq_emit_iff.mpr ⟨mounts', rfl, ?_, hplan⟩
  rw [← Bool.not_eq_true, StaticMounts.hasType_swap_iff] at hfree ⊢
  exact mt hswap.mp hfree

/-- **Nothing else of the table matters** for what is decided. -/
theorem Machine.plansLike_withStaticMounts (hswap : mounts'.HasSwap ↔ mounts.HasSwap)
    (hboot : mounts'.HasBoot ↔ mounts.HasBoot) :
    (m.withStaticMounts mounts).PlansLike (m.withStaticMounts mounts') where
  inInitrd := rfl
  discover := .refl _
  root := fun _ => rfl
  partition := by
    intro r a
    refine Option.ext fun plan => ?_
    rw [plan?_eq_some, plan?_eq_some]
    unfold Rule.decide
    split
    · exact ⟨decideSwap_withStaticMounts hswap.symm, decideSwap_withStaticMounts hswap⟩
    · rw [decideBoot_eq_emit_iff, decideBoot_eq_emit_iff]
      exact and_congr_left fun _ => ⟨bootConfirmed_withStaticMounts hboot.symm,
        bootConfirmed_withStaticMounts hboot⟩
    · exact Iff.rfl

/-- **Static mounts prevail, and have no other effect.**  No partition is swapped on if some line of
the table is for swap, and none is mounted at `/boot` if some line mounts something there; this
includes every line whose unit would be that of `/boot`.  Two tables of which both or neither are so
lead to the same plans. -/
theorem static_mounts_prevail {σ : Type} (site : Site σ) (settings : Settings) (s : σ)
    (text : String) :
    ((StaticMounts.parse text).HasSwap →
      ∀ plan ∈ (site.withStaticMounts text).submitted settings s, ¬ plan.Swaps) ∧
    ((StaticMounts.parse text).HasBoot →
      ∀ plan ∈ (site.withStaticMounts text).submitted settings s, ¬ plan.Serves "/boot") ∧
    (∀ line ∈ (StaticMounts.parse text).mounts,
      UnitName.ofPath line.mountPoint ".mount" = .ok "boot.mount" →
        (StaticMounts.parse text).HasBoot) ∧
    ∀ text', ((StaticMounts.parse text').HasSwap ↔ (StaticMounts.parse text).HasSwap) →
      ((StaticMounts.parse text').HasBoot ↔ (StaticMounts.parse text).HasBoot) →
      (site.withStaticMounts text').submitted settings s =
        (site.withStaticMounts text).submitted settings s := by
  refine ⟨fun hswap plan hplan hswaps => ?_, fun hboot plan hplan hserves => ?_,
    fun line hline hname => ⟨line, hline, line.isAt_of_ofPath hname⟩, fun text' hswap hboot => ?_⟩
  · rcases submitted_cases hplan with ⟨-, hroot⟩ | ⟨r, a, s', -, hdecided⟩
    · exact decideRoot_not_swaps settings _ _ hroot plan rfl hswaps
    · have hrole := r.decide_swaps _ a _ hdecided plan rfl hswaps
      have hemit : (decideSwap ((site.machine s').withStaticMounts
          (StaticMounts.parse text)).host a).run.value = .ok (.emit plan) := by
        rw [← hdecided, Rule.decide, hrole]
        rfl
      obtain ⟨asked, hasked, hfree, -⟩ := decideSwap_eq_emit_iff.mp hemit
      cases hasked
      rw [StaticMounts.hasType_swap_iff.mpr hswap] at hfree
      cases hfree
  · obtain ⟨r, a, s', -, hrole, hdecided⟩ :=
      submitted_serves hplan boot_isAt hserves (by decide)
    rw [value_decide_of_boot hrole] at hdecided
    obtain ⟨asked, hasked, hfree⟩ := (decideBoot_eq_emit_iff.mp hdecided).1.notStatic
    cases hasked
    rw [StaticMounts.mountsAt_iff.mpr hboot] at hfree
    cases hfree
  · exact submitted_congr rfl fun s => Machine.plansLike_withStaticMounts hswap hboot

/-- A machine that was booted by way of EFI, from a disk with a partition for swap besides that for
the root file system. -/
def efiMachine : Machine where
  devices := {
    holding := fun _ => return some ⟨8, 1⟩
    parentDisk := fun _ =>
      return some ⟨⟨8, 0⟩, Path.ofText "/dev/sda", Path.ofText "/sys/sda", none⟩
    partitions := fun _ => return [
      ⟨⟨8, 2⟩, Path.ofText "/dev/sda2", Path.ofText "/sys/sda2", some 2⟩,
      ⟨⟨8, 3⟩, Path.ofText "/dev/sda3", Path.ofText "/sys/sda3", some 3⟩] }
  probe := {
    table := fun _ => return .found ⟨some "gpt", [
      { number := 2, typeText := Guid.swap.text },
      { number := 3, typeText := Guid.efiSystem.text }]⟩
    filesystem := fun _ => return .nothing
    entry := fun _ => return .found ⟨some "vfat", some Guid.home.text⟩ }
  host := {
    inInitrd := false
    inContainer := { value := false }
    isEfiBoot := true
    loaderPartition := .ok (some Guid.home)
    staticMounts := .ok {}
    mountPointState := fun _ => .ok .missing
    isEmptyDirectory := fun _ => .ok true }

/-- A site that takes all plans for that machine. -/
def efiSite : Site Unit where
  machine _ := efiMachine
  submit _ _ := ({ value := .ok () }, ())

/-- Static mounts for `/boot` and for swap, one of them with escapes. -/
def busyTable : String :=
  "# /dev/sda2 none swap\n/dev/sdb1\t//boot/ vfat\n\nLABEL=x\tnone\tsw\\141p sw 0 0\n"

/-- Of the three plans for that machine, the root mount is left. -/
theorem efiSite_static_mounts :
    ((efiSite.withStaticMounts "").submitted {} ()).length = 3 ∧
      ((efiSite.withStaticMounts busyTable).submitted {} ()).length = 1 ∧
      (∀ plan ∈ (efiSite.withStaticMounts busyTable).submitted {} (),
        ¬ plan.Swaps ∧ ¬ plan.Serves "/boot") ∧
      (efiSite.withStaticMounts "/dev/sdb1 /boot/efi\n").submitted {} () =
        (efiSite.withStaticMounts "").submitted {} () := by
  obtain ⟨hswap, hboot, hnamed, -⟩ := static_mounts_prevail efiSite {} () busyTable
  obtain ⟨-, -, -, hsame⟩ := static_mounts_prevail efiSite {} () ""
  have hline : ⟨"/dev/sdb1", "//boot/", "vfat", "defaults"⟩ ∈
      (StaticMounts.parse busyTable).mounts := by
    decide +kernel
  refine ⟨by decide +kernel, by decide +kernel, fun plan hplan => ⟨?_, ?_⟩, ?_⟩
  · exact hswap (by decide +kernel) plan hplan
  · exact hboot (hnamed _ hline (by decide +kernel)) plan hplan
  · exact hsame "/dev/sdb1 /boot/efi\n" (by decide +kernel) (by decide +kernel)

end PartitionUnits
