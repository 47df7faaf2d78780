import Mathlib.Data.List.Basic
import Mathlib.Data.List.Induction

/-!
# The last one that tells something

In a list of lines or of arguments a later one overrides an earlier one, if it tells anything about
the same thing at all.

## Main Definitions

* `LastTells` — the last element that tells something, and what it tells
* `lookup_reverse_filterMap_iff` — the last element is the first one from the end
* `DecidedBy` — what the last one tells, or a default if all are silent
* `Governs` — a step sets a field to what an element tells, and keeps it if the element is silent
* `Governs.foldl_eq_iff`, `Governs.foldl_silent` — what the field is after all steps

## Design Notes

`Governs` is about one step, and `DecidedBy` about the list alone.  The induction between them goes
from the first element to the last, as it is the last one whose step counts.
-/

namespace PartitionUnits

variable {α β σ : Type} {tells : α → β → Prop} {xs : List α} {x : α} {b default : β}

/-- **The last element that tells something** tells this. -/
def LastTells (tells : α → β → Prop) (xs : List α) (b : β) : Prop :=
  ∃ before x after, xs = before ++ x :: after ∧ tells x b ∧ ∀ later ∈ after, ∀ b', ¬ tells later b'

/-- **A further element is the last one**, unless it is silent. -/
theorem lastTells_concat_iff :
    LastTells tells (xs ++ [x]) b ↔ tells x b ∨ LastTells tells xs b ∧ ∀ b', ¬ tells x b' := by
  constructor
  · rintro ⟨before, told, after, hsplit, htold, hafter⟩
    rcases List.eq_nil_or_concat' after with rfl | ⟨after, last, rfl⟩
    · cases (List.append_inj' hsplit rfl).2
      exact Or.inl htold
    · rw [← List.cons_append, ← List.append_assoc] at hsplit
      obtain ⟨rfl, hlast⟩ := List.append_inj' hsplit rfl
      cases hlast
      exact Or.inr ⟨⟨before, told, after, rfl, htold,
        fun later hlater => hafter later (List.mem_append_left _ hlater)⟩, hafter x (by simp)⟩
  · rintro (hx | ⟨⟨before, told, after, rfl, htold, hafter⟩, hsilent⟩)
    · exact ⟨xs, x, [], rfl, hx, by simp⟩
    · refine ⟨before, told, after ++ [x], by simp, htold, fun later hlater => ?_⟩
      rcases List.mem_append.mp hlater with hlater | hlater
      · exact hafter later hlater
      · rw [List.mem_singleton.mp hlater]
        exact hsilent

/-- **What is looked up from the end of what was read** is what the last element tells of the
key. -/
theorem lookup_reverse_filterMap_iff {κ : Type} [DecidableEq κ] {read : α → Option (κ × β)}
    {key : κ} : (xs.filterMap read).reverse.lookup key = some b ↔
      LastTells (fun x b => read x = some (key, b)) xs b := by
  induction xs using List.reverseRecOn with
  | nil =>
      constructor
      · intro h
        cases h
      · rintro ⟨before, x, after, hsplit, -⟩
        simp at hsplit
  | append_singleton xs x ih =>
      rw [List.filterMap_append, List.reverse_append, lastTells_concat_iff]
      cases hread : read x with
      | none =>
          rw [List.filterMap_cons_none hread]
          simpa using ih
      | some pair =>
          obtain ⟨key', b'⟩ := pair
          rw [List.filterMap_cons_some hread, List.filterMap_nil, List.reverse_singleton,
            List.singleton_append, List.lookup_cons]
          by_cases hkey : key = key'
          · -- This is the last one for the key.
            simp [hkey]
          · simpa [hkey, beq_false_of_ne hkey, eq_comm] using ih

/-- **What the last element tells, or the default** if all of them are silent. -/
def DecidedBy (tells : α → β → Prop) (xs : List α) (default b : β) : Prop :=
  LastTells tells xs b ∨ (∀ x ∈ xs, ∀ b', ¬ tells x b') ∧ b = default

theorem decidedBy_nil_iff : DecidedBy tells [] default b ↔ b = default := by
  simp [DecidedBy, LastTells]

theorem decidedBy_concat_iff : DecidedBy tells (xs ++ [x]) default b ↔
    tells x b ∨ DecidedBy tells xs default b ∧ ∀ b', ¬ tells x b' := by
  simp only [DecidedBy, lastTells_concat_iff, List.forall_mem_append, List.forall_mem_singleton]
  tauto

/-- **Elements govern a field**: a step sets it to what its element tells, and keeps it if the
element is silent. -/
structure Governs (tells : α → β → Prop) (step : σ → α → σ) (field : σ → β) : Prop where
  told : ∀ s x b, tells x b → field (step s x) = b
  silent : ∀ s x, (∀ b, ¬ tells x b) → field (step s x) = field s

namespace Governs

variable {step : σ → α → σ} {field : σ → β} (h : Governs tells step field)
include h

/-- **After all steps the field is what the last element has told**, or what it was before. -/
theorem foldl_eq_iff (xs : List α) (s : σ) (b : β) :
    field (xs.foldl step s) = b ↔ DecidedBy tells xs (field s) b := by
  induction xs using List.reverseRecOn with
  | nil => exact eq_comm.trans decidedBy_nil_iff.symm
  | append_singleton xs x ih =>
      rw [List.foldl_concat, decidedBy_concat_iff, ← ih]
      by_cases hsilent : ∀ b', ¬ tells x b'
      · simp [h.silent _ x hsilent, hsilent]
      · obtain ⟨b', hb'⟩ : ∃ b', tells x b' := by simpa using hsilent
        have hunique : tells x b → b' = b := fun hb =>
          (h.told s x b' hb').symm.trans (h.told s x b hb)
        rw [h.told _ x b' hb']
        simp only [hsilent, and_false, or_false]
        exact ⟨fun heq => heq ▸ hb', hunique⟩

/-- **A silent element can be left out**, wherever it stands. -/
theorem foldl_silent (hx : ∀ b, ¬ tells x b) (before after : List α) (s : σ) :
    field ((before ++ x :: after).foldl step s) = field ((before ++ after).foldl step s) := by
  rw [List.foldl_append, List.foldl_append, List.foldl_cons, h.foldl_eq_iff, h.silent _ x hx,
    ← h.foldl_eq_iff]

end Governs

end PartitionUnits
