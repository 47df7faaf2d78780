import PartitionUnits.Proofs.Inquiry

/-!
# Which questions are asked

What the inquiries of a pass ask about and what they do not ask about.

## Main Definitions

* `Query.isFinding` — the questions about where partitions are
* `Inquiry.IsOrderly` — what the inquiries about roles have in common
* `isOrderly_rootInquiry`, `isOrderly_inquiry`, `isFinding_discoveryInquiry` — who asks what
* `unitName_of_mem` — whom units are named for

## Design Notes

`IsOrderly` is a property of the tree and not of one branch, so it is shown by walking through an
inquiry once, and holds for every machine that may be asked.
-/

namespace PartitionUnits

variable {settings : Settings} {m : Machine}

namespace Inquiry

/-- What happens when a question is asked, and afterwards. -/
theorem mem_happenings_ask {α : Type} {q : Query} {next : q.Answer → Inquiry α} {x : Happening} :
    x ∈ (ask q next).happenings m ↔ x = .asked q (failure? (m.answer q)) ∨
      ∃ a, m.answer q = .ok a ∧ x ∈ (next a).happenings m := by
  rw [happenings, List.mem_cons]
  cases m.answer q with
  | ok a => simp
  | error f => simp

theorem mem_happenings_look {α : Type} {p : Path} {next : Bool → Inquiry α} {x : Happening} :
    x ∈ (look p next).happenings m ↔ x = .looked p (m.host.occupancy p).failure? ∨
      x ∈ (next (m.host.isBusy p).value).happenings m := by
  rw [happenings, List.mem_cons]

/-- What happens when a mount point is looked at that is left alone if it is busy. -/
theorem eq_or_mem_of_look {α : Type} {p : Path} {next : Bool → Inquiry α} {a : α} {x : Happening}
    (h : x ∈ (look p next).happenings m) (hbusy : next true = done a) :
    x = .looked p (m.host.occupancy p).failure? ∨ x ∈ (next false).happenings m := by
  refine (mem_happenings_look.mp h).imp_right fun h => ?_
  cases hvalue : (m.host.isBusy p).value with
  | true =>
      rw [hvalue, hbusy] at h
      cases h
  | false =>
      rwa [hvalue] at h

end Inquiry

/-- Whether a question is about where partitions are. -/
def Query.isFinding : Query → Bool
  | holding _ | parentDisk _ | table _ | partitions _ => true
  | loaderPartition | staticMounts | filesystem _ | entry _ | unitName .. => false

/-- Whether it was asked where partitions are. -/
def Happening.isFinding : Happening → Bool
  | asked q _ => q.isFinding
  | looked .. | submitted .. => false

namespace Inquiry

/-- **An inquiry about a role**: it does not ask where partitions are, and it leaves alone what it
has looked at and has to call busy. -/
def IsOrderly : Inquiry Decision → Prop
  | done _ => True
  | ask q next => q.isFinding = false ∧ ∀ a, (next a).IsOrderly
  | look p next => next true = done (.skip (.busy p)) ∧ (next false).IsOrderly

namespace IsOrderly

variable {i : Inquiry Decision}

/-- **A mount point that cannot be looked at is left alone.** -/
theorem run_eq (h : i.IsOrderly) {p : Path} {f : Failure}
    (hlooked : .looked p (some f) ∈ i.happenings m) : i.run m = .ok (.skip (.busy p)) := by
  induction i with
  | done _ => cases hlooked
  | ask q next ih =>
      rcases mem_happenings_ask.mp hlooked with hlooked | ⟨a, hanswer, hlooked⟩
      · cases hlooked
      · rw [run, hanswer]
        exact ih a (h.2 a) hlooked
  | look p' next ih =>
      rw [run]
      rw [mem_happenings_look] at hlooked
      cases hbusy : (m.host.isBusy p').value with
      | true =>
          rw [hbusy, h.1] at hlooked
          rw [h.1]
          rcases hlooked with hlooked | hlooked
          · rw [(Happening.looked.inj hlooked).1]
            rfl
          · cases hlooked
      | false =>
          rw [hbusy] at hlooked
          rcases hlooked with hlooked | hlooked
          · -- A look that fails calls the mount point busy.
            simp only [Happening.looked.injEq] at hlooked
            simp only [Host.isBusy] at hbusy
            cases hoccupancy : m.host.occupancy p' <;>
              simp [hoccupancy, Occupancy.isBusy, Occupancy.failure?] at hbusy hlooked
          · exact ih false h.2 hlooked

theorem isFinding_eq (h : i.IsOrderly) {x : Happening} (hx : x ∈ i.happenings m) :
    x.isFinding = false := by
  induction i with
  | done _ => cases hx
  | ask q next ih =>
      rcases mem_happenings_ask.mp hx with rfl | ⟨a, -, hx⟩
      · exact h.1
      · exact ih a (h.2 a) hx
  | look p next ih =>
      rcases eq_or_mem_of_look hx h.1 with rfl | hx
      · rfl
      · exact ih false h.2 hx

end IsOrderly

end Inquiry

/-- Looking for partitions is asking where they are. -/
theorem isFinding_discoveryInquiry {guids : Guid.Reader} {x : Happening}
    (h : x ∈ (discoveryInquiry guids).happenings m) : x.isFinding = true := by
  have hbeside : ∀ root, x ∈ (inquiryBeside guids root).happenings m → x.isFinding = true := by
    intro root h
    rcases Inquiry.mem_happenings_ask.mp h with rfl | ⟨_ | disk, -, h⟩
    · rfl
    · cases h
    rcases Inquiry.mem_happenings_ask.mp h with rfl | ⟨table | _ | _, -, h⟩
    · rfl
    · simp only at h
      split at h
      · rcases Inquiry.mem_happenings_ask.mp h with rfl | ⟨_, -, h⟩
        · rfl
        · cases h
      · cases h
    · cases h
    · cases h
  rcases Inquiry.mem_happenings_ask.mp h with rfl | ⟨_ | root, -, h⟩
  · rfl
  · rcases Inquiry.mem_happenings_ask.mp h with rfl | ⟨_ | root, -, h⟩
    · rfl
    · cases h
    · exact hbeside root h
  · exact hbeside root h

/-! ## Inquiries about roles -/

theorem isOrderly_rootInquiry (settings : Settings) (m : Machine) :
    (rootInquiry settings m).IsOrderly := by
  unfold rootInquiry
  split
  · trivial
  refine ⟨rfl, ?_⟩
  rintro (_ | loader)
  · trivial
  · trivial

theorem isOrderly_dataInquiry (role : Role) (mountPoint name : String) (a : Assignment) :
    (dataInquiry role mountPoint name a).IsOrderly := by
  refine ⟨rfl, rfl, ?_⟩
  rintro (info | _ | _)
  · simp only
    cases info.fsType with
    | none => trivial
    | some fsType =>
        simp only
        split
        · exact ⟨rfl, fun _ => trivial⟩
        · trivial
  · trivial
  · trivial

theorem isOrderly_bootInquiry (m : Machine) (a : Assignment) : (bootInquiry m a).IsOrderly := by
  unfold bootInquiry
  simp only
  split
  · trivial
  split
  · trivial
  split
  · trivial
  refine ⟨rfl, ?_⟩
  rintro (_ | loader)
  · trivial
  refine ⟨rfl, fun mounts => ?_⟩
  simp only
  split
  · trivial
  refine ⟨rfl, rfl, ?_⟩
  rintro (info | _ | _)
  · simp only
    cases bootMismatch? m.guids loader info with
    | some reason => trivial
    | none => trivial
  · trivial
  · trivial

theorem isOrderly_swapInquiry (a : Assignment) : (swapInquiry a).IsOrderly := by
  refine ⟨rfl, fun mounts => ?_⟩
  simp only
  split
  · trivial
  · exact ⟨rfl, fun _ => trivial⟩

/-- **The inquiries about elected partitions are orderly.** -/
theorem isOrderly_inquiry (r : Rule) (a : Assignment) (m : Machine) :
    (r.inquiry a m).IsOrderly := by
  unfold Rule.inquiry
  cases r.role with
  | swap => exact isOrderly_swapInquiry a
  | boot => exact isOrderly_bootInquiry m a
  | root => exact isOrderly_dataInquiry _ _ _ _
  | home => exact isOrderly_dataInquiry _ _ _ _
  | serverData => exact isOrderly_dataInquiry _ _ _ _

/-! ## Whom units are named for -/

section

variable {a : Assignment} {node suffix : String} {refusal? : Option Failure}

/-- No unit is named for the root device. -/
theorem unitName_notMem_rootInquiry :
    .asked (.unitName node suffix) refusal? ∉ (rootInquiry settings m).happenings m := by
  intro h
  unfold rootInquiry at h
  split at h
  · cases h
  rcases Inquiry.mem_happenings_ask.mp h with h | ⟨_ | _, -, h⟩
  · cases h
  · cases h
  · cases h

/-- No unit is named for the node of an EFI system partition. -/
theorem unitName_notMem_bootInquiry :
    .asked (.unitName node suffix) refusal? ∉ (bootInquiry m a).happenings m := by
  intro h
  unfold bootInquiry at h
  simp only at h
  split at h
  · cases h
  split at h
  · cases h
  split at h
  · cases h
  rcases Inquiry.mem_happenings_ask.mp h with h | ⟨_ | loader, -, h⟩
  · cases h
  · cases h
  rcases Inquiry.mem_happenings_ask.mp h with h | ⟨mounts, -, h⟩
  · cases h
  split at h
  · cases h
  rcases Inquiry.eq_or_mem_of_look h rfl with h | h
  · cases h
  rcases Inquiry.mem_happenings_ask.mp h with h | ⟨info | _ | _, -, h⟩
  · cases h
  · simp only at h
    split at h
    · cases h
    · cases h
  · cases h
  · cases h

/-- A unit is named for the node of a data partition if the partition is encrypted. -/
theorem unitName_of_mem_dataInquiry {role : Role} {mountPoint name : String}
    (h : .asked (.unitName node suffix) refusal? ∈
      (dataInquiry role mountPoint name a).happenings m) : node = a.node ∧ ∃ info,
        (m.probe.filesystem (Path.ofText a.node)).run.value = .ok (.found info) ∧
          info.fsType = some luksType := by
  rcases Inquiry.eq_or_mem_of_look h rfl with h | h
  · cases h
  rcases Inquiry.mem_happenings_ask.mp h with h | ⟨info | _ | _, hanswer, h⟩
  · cases h
  · simp only at h
    cases htype : info.fsType with
    | none =>
        rw [htype] at h
        cases h
    | some fsType =>
        simp only [htype] at h
        split at h
        · next hluks =>
            rcases Inquiry.mem_happenings_ask.mp h with h | ⟨_, -, h⟩
            · cases h
              exact ⟨rfl, info, hanswer, htype.trans (congrArg some hluks)⟩
            · cases h
        · cases h
  · cases h
  · cases h

/-- **A unit is named for the node of a partition** only if it is to be swapped on or is
encrypted. -/
theorem unitName_of_mem {rule : Rule}
    (h : .asked (.unitName node suffix) refusal? ∈ (rule.inquiry a m).happenings m) :
    node = a.node ∧ (rule.role = .swap ∨ ∃ info,
      (m.probe.filesystem (Path.ofText a.node)).run.value = .ok (.found info) ∧
        info.fsType = some luksType) := by
  unfold Rule.inquiry at h
  cases hrole : rule.role with
  | swap =>
      rw [hrole] at h
      rcases Inquiry.mem_happenings_ask.mp h with h | ⟨mounts, -, h⟩
      · cases h
      split at h
      · cases h
      rcases Inquiry.mem_happenings_ask.mp h with h | ⟨_, -, h⟩
      · cases h
        exact ⟨rfl, Or.inl rfl⟩
      · cases h
  | boot =>
      rw [hrole] at h
      exact absurd h unitName_notMem_bootInquiry
  | root | home | serverData =>
      rw [hrole] at h
      exact (unitName_of_mem_dataInquiry h).imp_right Or.inr

end

end PartitionUnits
