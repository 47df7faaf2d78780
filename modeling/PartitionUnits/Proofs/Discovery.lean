import PartitionUnits.Proofs.Attempt
import PartitionUnits.Proofs.Partition.Election
import PartitionUnits.Pass

/-!
# Finding partitions

What a machine has to answer for partitions to be elected, and which answers matter.

## Main Definitions

* `Machine.Surveyed` — a disk with a table that can be relied on is found, and its partitions
* `Machine.Surveyed.value_discover`, `discover_eq_ok` — partitions are elected from such a survey
  and in no other way
* `nodup_roles_discover` — no two of them are for one role
* `discover_congr` — only the devices, the tables on disks and how these are read matter
-/

namespace PartitionUnits

open Attempt
open Device (Block)
open PartitionUnits.Partition (Table)

variable {m m' : Machine} {root : Device.Number} {disk : Block} {partitions : List Block}
  {table : Table}

/-- The device under the root file system, or under `/usr` if the root is on none. -/
def Devices.RootOn (d : Devices) (root : Device.Number) : Prop :=
  (d.holding (Path.ofText "/")).run.value = .ok (some root) ∨
    (d.holding (Path.ofText "/")).run.value = .ok none ∧
      (d.holding (Path.ofText "/usr")).run.value = .ok (some root)

/-- **A machine is surveyed**: the device of its root file system is on a disk with a table that can
be relied on, and the partitions of the disk can be listed. -/
structure Machine.Surveyed (m : Machine) (root : Device.Number) (disk : Block)
    (partitions : List Block) (table : Table) : Prop where
  rootOn : m.devices.RootOn root
  parentDisk : (m.devices.parentDisk root).run.value = .ok (some disk)
  probed : (m.probe.table disk.node).run.value = .ok (.found table)
  isGpt : table.isGpt = true
  listed : (m.devices.partitions disk).run.value = .ok partitions

theorem rootNumber_eq_ok {d : Devices} :
    (rootNumber d).run.value = .ok (some root) ↔ d.RootOn root := by
  unfold rootNumber Devices.RootOn
  rw [bind_eq_ok]
  simp only [during_eq_ok]
  constructor
  · rintro ⟨held?, hheld, h⟩
    cases held? with
    | some number =>
        rw [pure_eq_ok] at h
        exact Or.inl (hheld.trans (congrArg _ h))
    | none =>
        obtain ⟨used?, hused, h⟩ := bind_eq_ok.mp h
        cases used? with
        | some number =>
            rw [pure_eq_ok] at h
            exact Or.inr ⟨hheld, (during_eq_ok.mp hused).trans (congrArg _ h)⟩
        | none =>
            obtain ⟨-, -, h⟩ := bind_eq_ok.mp h
            rw [pure_eq_ok] at h
            cases h
  · rintro (hheld | ⟨hheld, hused⟩)
    · exact ⟨some root, hheld, pure_eq_ok.mpr rfl⟩
    · exact ⟨none, hheld, bind_eq_ok.mpr ⟨some root, during_eq_ok.mpr hused, pure_eq_ok.mpr rfl⟩⟩

theorem reliableTable_eq_ok {p : Probe} :
    (reliableTable p disk).run.value = .ok (some table) ↔
      (p.table disk.node).run.value = .ok (.found table) ∧ table.isGpt = true := by
  unfold reliableTable
  rw [bind_eq_ok]
  simp only [during_eq_ok]
  constructor
  · rintro ⟨probed, hprobed, h⟩
    cases probed with
    | ambiguous =>
        obtain ⟨-, -, h⟩ := bind_eq_ok.mp h
        cases pure_eq_ok.mp h
    | nothing =>
        obtain ⟨-, -, h⟩ := bind_eq_ok.mp h
        cases pure_eq_ok.mp h
    | found found =>
        simp only at h
        split at h
        · next hgpt =>
            cases pure_eq_ok.mp h
            exact ⟨hprobed, hgpt⟩
        · obtain ⟨-, -, h⟩ := bind_eq_ok.mp h
          cases pure_eq_ok.mp h
  · rintro ⟨hprobed, hgpt⟩
    refine ⟨.found table, hprobed, ?_⟩
    simp only [hgpt, if_true]
    exact pure_eq_ok.mpr rfl

/-- A machine that is surveyed elects from what was found. -/
theorem Machine.Surveyed.value_discover (h : m.Surveyed root disk partitions table) :
    (discover m).run.value = .ok (elect m.guids root disk partitions table).value := by
  unfold discover
  refine bind_eq_ok.mpr ⟨some root, rootNumber_eq_ok.mpr h.rootOn, ?_⟩
  unfold discoverBeside
  refine bind_eq_ok.mpr ⟨some disk, h.parentDisk, bind_eq_ok.mpr ⟨(), rfl, ?_⟩⟩
  refine bind_eq_ok.mpr ⟨some table, reliableTable_eq_ok.mpr ⟨h.probed, h.isGpt⟩, ?_⟩
  exact bind_eq_ok.mpr ⟨partitions, during_eq_ok.mpr h.listed, liftM_eq_ok.mpr rfl⟩

/-- Without a survey, nothing is elected. -/
theorem discover_eq_ok {elected : List (Rule × Assignment)}
    (h : (discover m).run.value = .ok elected) : elected = [] ∨
      ∃ root disk partitions table, m.Surveyed root disk partitions table ∧
        elected = (elect m.guids root disk partitions table).value := by
  unfold discover at h
  obtain ⟨root?, hroot, h⟩ := bind_eq_ok.mp h
  cases root? with
  | none => exact Or.inl (pure_eq_ok.mp h).symm
  | some root =>
  unfold discoverBeside at h
  obtain ⟨disk?, hdisk, h⟩ := bind_eq_ok.mp h
  cases disk? with
  | none => exact Or.inl (pure_eq_ok.mp h).symm
  | some disk =>
  obtain ⟨-, -, h⟩ := bind_eq_ok.mp h
  obtain ⟨table?, htable, h⟩ := bind_eq_ok.mp h
  cases table? with
  | none => exact Or.inl (pure_eq_ok.mp h).symm
  | some table =>
  obtain ⟨partitions, hpartitions, h⟩ := bind_eq_ok.mp h
  obtain ⟨hprobed, hgpt⟩ := reliableTable_eq_ok.mp htable
  exact Or.inr ⟨root, disk, partitions, table, ⟨rootNumber_eq_ok.mp hroot, hdisk, hprobed, hgpt,
    during_eq_ok.mp hpartitions⟩, (liftM_eq_ok.mp h).symm⟩

/-- **No two partitions are elected for one role.** -/
theorem nodup_roles_elect (guids : Guid.Reader) (root : Device.Number) (disk : Block)
    (partitions : List Block) (table : Table) :
    ((elect guids root disk partitions table).value.map fun x => x.1.role).Nodup := by
  have hrules : rules.Pairwise fun r r' => r.role ≠ r'.role :=
    List.pairwise_map.mp (show (rules.map Rule.role).Nodup by decide)
  rw [value_elect, List.Nodup, List.pairwise_map, List.pairwise_filterMap]
  refine hrules.imp fun {r r'} hne x hx x' hx' => ?_
  obtain ⟨a, -, rfl⟩ := Option.map_eq_some_iff.mp hx
  obtain ⟨a', -, rfl⟩ := Option.map_eq_some_iff.mp hx'
  exact hne

theorem nodup_roles_discover {elected : List (Rule × Assignment)}
    (h : (discover m).run.value = .ok elected) : (elected.map fun x => x.1.role).Nodup := by
  rcases discover_eq_ok h with rfl | ⟨root, disk, partitions, table, -, rfl⟩
  · exact List.nodup_nil
  · exact nodup_roles_elect _ root disk partitions table

/-- Only the devices and the tables on disks matter, and how these are read. -/
theorem discover_congr (hdevices : m.devices = m'.devices)
    (htable : m.probe.table = m'.probe.table) (hguids : m.guids = m'.guids) :
    discover m = discover m' := by
  have hreliable : reliableTable m.probe = reliableTable m'.probe := by
    funext disk
    unfold reliableTable
    rw [htable]
  unfold discover discoverBeside
  rw [hdevices, hreliable, hguids]

end PartitionUnits
