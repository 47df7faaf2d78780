import PartitionUnits.FileSystem.Error
import PartitionUnits.Path

/-!
# Refused lookups

What is asked of the files through a path can be refused for reasons that are not in the tree, such
as missing permissions or bad media.

## Main Definitions

* `Lookup` — what can be asked of the files
* `Refusals` — which lookups are refused, and why
* `Refusals.none` — none of them

## Design Notes

A refusal can be any error but that nothing is there, and it goes by the path as it was given: a
directory that must not be searched refuses all paths below it.  To resolve a path is to look at
what it leads to, so a path that must not be looked at cannot be resolved.
-/

namespace PartitionUnits

/-- What can be asked of the files through a path. -/
inductive Lookup where
  /-- What is there, where a link stands for itself. -/
  | status
  /-- What is there, where a link stands for what it leads to. -/
  | target
  /-- The path without links. -/
  | resolution
  | opening
  /-- What a file holds that was opened. -/
  | reading
  | listing
deriving DecidableEq, Repr

/-- The lookups that are refused. -/
structure Refusals where
  refusal? : Lookup → Path → Option FileError
  /-- Nothing is refused as missing. -/
  ne_notFound : ∀ lookup p, refusal? lookup p ≠ some .notFound
  /-- What must not be looked at cannot be resolved. -/
  resolution_of_status : ∀ p, (refusal? .status p).isSome → (refusal? .resolution p).isSome

namespace Refusals

/-- Nothing is refused. -/
protected def none : Refusals where
  refusal? _ _ := Option.none
  ne_notFound _ _ h := nomatch h
  resolution_of_status _ h := h

/-- The answer to a lookup, given what the tree says. -/
def answer {α : Type} (r : Refusals) (lookup : Lookup) (p : Path) (told : Except FileError α) :
    Except FileError α :=
  match r.refusal? lookup p with
  | some e => .error e
  | none => told

variable {α : Type} {r : Refusals} {lookup : Lookup} {p : Path} {told : Except FileError α} {a : α}

/-- **What a lookup finds is what the tree says.** -/
theorem answer_eq_ok_iff :
    r.answer lookup p told = .ok a ↔ r.refusal? lookup p = none ∧ told = .ok a := by
  unfold answer
  cases r.refusal? lookup p <;> simp

/-- **A lookup that finds nothing** is told so by the tree. -/
theorem answer_eq_notFound_iff :
    r.answer lookup p told = .error .notFound ↔
      r.refusal? lookup p = none ∧ told = .error .notFound := by
  have hrefusal := r.ne_notFound lookup p
  unfold answer
  cases hlookup : r.refusal? lookup p with
  | none => simp
  | some e =>
      have hne : e ≠ .notFound := fun he => hrefusal (he ▸ hlookup)
      simp [hne]

/-- A path that can be resolved can be looked at. -/
theorem status_of_resolution (h : r.refusal? .resolution p = none) :
    r.refusal? .status p = none := by
  have hresolution := r.resolution_of_status p
  cases hstatus : r.refusal? .status p with
  | none => rfl
  | some e => simp [hstatus, h] at hresolution

end Refusals

end PartitionUnits
