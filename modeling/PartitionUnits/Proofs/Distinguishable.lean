import PartitionUnits.Proofs.Attempt
import PartitionUnits.Proofs.DeviceTree

/-!
# Devices that can be told apart

A device whose number has no major part stands for a file system without a device of its own, and is
never to be handed out.  A disk and a partition never are such; a device below another may be.

## Main Definitions

* `Device.Number.IsDistinguishable` — the number of a device of its own
* `World.StackedOn`, `World.NotStacked` — what there is below a device
* `World.holding_eq_some_iff` — the device under a path
* `World.isDistinguishable_but_below` — which of the devices that are handed out are distinguishable

## Design Notes

Each number comes from a file, and the files may say anything.  Three of the four ways to a number
look at its major part before it is handed out.  The fourth hands out the number of the device
below as it is written, so it is the one way for an indistinguishable device to get through.
-/

namespace PartitionUnits

open Attempt
open Device (Block)

/-- **A device can be told from others** if its number has a major part. -/
def Device.Number.IsDistinguishable (n : Device.Number) : Prop := n.major ≠ 0

namespace World

variable {w : World} {n below : Device.Number} {p : Path}

/-! ## Devices on devices -/

/-- The directory of the devices below a device. -/
def slaves (n : Device.Number) : Path := (deviceLink n).join (Path.ofText "slaves")

/-- **A device is stacked on another** if that is the only one below it. -/
def StackedOn (w : World) (n below : Device.Number) : Prop :=
  ∃ child, w.list (slaves n) = .ok [child] ∧ w.HasNumber ((slaves n).join ⟨child⟩) below

/-- **A device is not stacked** if there is nothing below it, or more than one device. -/
def NotStacked (w : World) (n : Device.Number) : Prop :=
  w.list (slaves n) = .error .notFound ∨
    ∃ children, w.list (slaves n) = .ok children ∧ children.length ≠ 1

/-- **What is found below a device** is the one device that it is stacked on, or nothing if it is
not stacked. -/
theorem singleBelow_eq_ok {found : Option Device.Number} (h : w.singleBelow n = .ok found) :
    (found = none ∧ w.NotStacked n) ∨ ∃ below, found = some below ∧ w.StackedOn n below := by
  unfold singleBelow at h
  simp only at h
  split at h
  next hlist =>
    cases h
    exact .inl ⟨rfl, .inl hlist⟩
  · cases h
  next child hlist =>
    cases hnumber : w.numberAt ((slaves n).join ⟨child⟩) with
    | error failure =>
        rw [← slaves, hnumber] at h
        cases h
    | ok below =>
        rw [← slaves, hnumber] at h
        cases h
        exact .inr ⟨below, rfl, child, hlist, numberAt_eq_ok_iff.mp hnumber⟩
  next children hsingle hlist =>
    cases h
    refine .inl ⟨rfl, .inr ⟨children, hlist, fun hlength => ?_⟩⟩
    obtain ⟨child, rfl⟩ := List.length_eq_one_iff.mp hlength
    exact hsingle child rfl

theorem StackedOn.singleBelow_eq (h : w.StackedOn n below) :
    w.singleBelow n = .ok (some below) := by
  obtain ⟨child, hlist, hnumber⟩ := h
  unfold slaves at hlist hnumber
  unfold singleBelow
  simp only [hlist, numberAt_eq_ok_iff.mpr hnumber]
  rfl

theorem NotStacked.singleBelow_eq (h : w.NotStacked n) : w.singleBelow n = .ok none := by
  unfold singleBelow
  unfold NotStacked slaves at h
  rcases h with hlist | ⟨children, hlist, hlength⟩
  · simp only [hlist]
  · match children with
    | [] | _ :: _ :: _ => simp only [hlist]
    | [_] => exact absurd rfl hlength

/-- **The device under a path** is the one that the system tells, or the one below that; the one
that the system tells is distinguishable. -/
theorem holding_eq_some_iff : (w.holding p).run.value = .ok (some n) ↔
    ∃ top : Device.Number, w.deviceBelow p = .ok top ∧ top.IsDistinguishable ∧
      (w.StackedOn top n ∨ w.NotStacked top ∧ n = top) := by
  unfold holding
  constructor
  · intro h
    split at h
    · cases h
    · cases h
    next top htop =>
    split at h
    · cases h
    next hmajor =>
    refine ⟨top, htop, hmajor, ?_⟩
    obtain ⟨found, hfound, h⟩ := bind_eq_ok.mp h
    rcases singleBelow_eq_ok (ofExcept_eq_ok.mp hfound) with
      ⟨rfl, hstacked⟩ | ⟨below, rfl, hstacked⟩
    · exact .inr ⟨hstacked, Option.some.inj (pure_eq_ok.mp h).symm⟩
    · obtain ⟨_, -, h⟩ := bind_eq_ok.mp h
      cases pure_eq_ok.mp h
      exact .inl hstacked
  · rintro ⟨top, htop, hmajor, hstacked⟩
    rw [htop]
    simp only [if_neg hmajor]
    rw [bind_eq_ok]
    rcases hstacked with hstacked | ⟨hstacked, rfl⟩
    · refine ⟨_, ofExcept_eq_ok.mpr hstacked.singleBelow_eq, ?_⟩
      exact bind_eq_ok.mpr ⟨(), rfl, pure_eq_ok.mpr rfl⟩
    · exact ⟨_, ofExcept_eq_ok.mpr hstacked.singleBelow_eq, pure_eq_ok.mpr rfl⟩

/-! ## Disks and partitions -/

theorem parentDisk_isDistinguishable (w : World) (n : Device.Number) :
    Ensures (w.parentDisk n) fun disk? => ∀ disk ∈ disk?, disk.number.IsDistinguishable := by
  have hnone : ∀ disk ∈ (none : Option Block), disk.number.IsDistinguishable := by simp
  unfold parentDisk
  split
  · exact .bind fun _ => .pure hnone
  · exact .throw _
  split
  · exact .bind fun _ => .pure hnone
  split
  · exact .pure hnone
  unfold diskAt
  refine .bind fun properties => ?_
  split
  · split
    · exact .bind fun _ => .pure hnone
    refine .bind fun number => ?_
    split
    · exact .pure hnone
    next hmajor =>
    refine .bind fun _ => .pure ?_
    rintro disk ⟨⟩
    exact hmajor
  · exact .bind fun _ => .pure hnone
  · exact .bind fun _ => .pure hnone

theorem partitionsOf_isDistinguishable {disk : Block} {blocks : List Block}
    (h : w.partitionsOf disk = .ok blocks) : ∀ b ∈ blocks, b.number.IsDistinguishable :=
  fun _ hb => (showsPartition_of_mem h hb).major_ne_zero

/-- **Disks and partitions that are handed out are distinguishable.**  The device under a path is
not just if it is the only one below a device that is, and its own file gives it no major part. -/
theorem isDistinguishable_but_below (w : World) :
    (∀ n disk, (w.parentDisk n).run.value = .ok (some disk) → disk.number.IsDistinguishable) ∧
      (∀ disk blocks, w.partitionsOf disk = .ok blocks →
        ∀ b ∈ blocks, b.number.IsDistinguishable) ∧
      ∀ p n, ¬ n.IsDistinguishable → ((w.holding p).run.value = .ok (some n) ↔
        ∃ top : Device.Number, w.deviceBelow p = .ok top ∧ top.IsDistinguishable ∧
          w.StackedOn top n) := by
  refine ⟨fun n disk h => ?_, fun disk blocks h => partitionsOf_isDistinguishable h, ?_⟩
  · exact w.parentDisk_isDistinguishable n (some disk) h disk rfl
  · intro p n hn
    rw [holding_eq_some_iff]
    refine exists_congr fun top => and_congr_right fun _ => and_congr_right fun htop => ?_
    refine or_iff_left ?_
    rintro ⟨-, rfl⟩
    exact hn htop

/-- A machine whose root directory is on a device that is stacked on one without a major part. -/
def withVirtualBelow : World :=
  let directories := ["/sys", "/sys/dev", "/sys/dev/block", "/sys/dev/block/253:0",
    "/sys/dev/block/253:0/slaves", "/sys/dev/block/253:0/slaves/lower"]
  let number := Entry.file Tree.fileMode (.octets (Text.encode "0:5\n".toList))
  let entries := directories.map (fun d => (d, Entry.directory Tree.directoryMode)) ++
    [("/sys/dev/block/253:0/slaves/lower/dev", number)]
  { tree := ⟨entries.map fun x => ((Path.ofText x.1).names, x.2)⟩
    devicesBelow := [(Path.ofText "/", .ok ⟨253, 0⟩)] }

theorem value_holding_withVirtualBelow :
    (withVirtualBelow.holding (Path.ofText "/")).run.value = .ok (some ⟨0, 5⟩) := by
  decide +kernel

/-- The device under the root directory of such a machine is not distinguishable. -/
theorem withVirtualBelow_indistinguishable :
    ∃ n, (withVirtualBelow.holding (Path.ofText "/")).run.value = .ok (some n) ∧
      ¬ n.IsDistinguishable :=
  ⟨⟨0, 5⟩, value_holding_withVirtualBelow, fun h => h rfl⟩

/-- The device that it is stacked on is the reason, and disks and partitions are distinguishable. -/
theorem withVirtualBelow_stacked :
    (∃ disk, (withHomeDisk.parentDisk ⟨8, 2⟩).run.value = .ok (some disk) ∧
      disk.number.IsDistinguishable ∧
      ∃ blocks, withHomeDisk.partitionsOf disk = .ok blocks ∧ blocks.length = 2 ∧
        ∀ b ∈ blocks, b.number.IsDistinguishable) ∧
      ∃ top : Device.Number, withVirtualBelow.deviceBelow (Path.ofText "/") = .ok top ∧
        top.IsDistinguishable ∧ withVirtualBelow.StackedOn top ⟨0, 5⟩ := by
  obtain ⟨hdisk, hpartitions, -⟩ := isDistinguishable_but_below withHomeDisk
  obtain ⟨-, -, hholding⟩ := isDistinguishable_but_below withVirtualBelow
  let disk : Block := ⟨⟨8, 0⟩, Path.ofText "/dev/sda", Path.ofText "/sys/devices/sda", none⟩
  have hparent : (withHomeDisk.parentDisk ⟨8, 2⟩).run.value = .ok (some disk) := by
    decide +kernel
  obtain ⟨blocks, hblocks, hlength⟩ : ∃ blocks, withHomeDisk.partitionsOf disk = .ok blocks ∧
      blocks.length = 2 := exists_of_map_eq_ok (by decide +kernel)
  refine ⟨⟨disk, hparent, hdisk _ _ hparent, blocks, hblocks, hlength,
    hpartitions _ _ hblocks⟩, ?_⟩
  exact (hholding (Path.ofText "/") ⟨0, 5⟩ (fun h => h rfl)).mp value_holding_withVirtualBelow

end World

end PartitionUnits
