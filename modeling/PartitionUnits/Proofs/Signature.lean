import Mathlib.Data.List.Induction
import PartitionUnits.LiveSite
import PartitionUnits.Proofs.Attempt
import PartitionUnits.Proofs.LastTold

/-!
# What a look for signatures comes to

A program is started to look for the signatures on a device, and what comes of it is one of three
things: it has failed to look, it leaves a question open, or it tells the answer.

## Main Definitions

* `Signature.Sets`, `Signature.LastSets` — a line that tells a value, and the last of several
* `Signature.FailsToLook`, `Signature.LeavesOpen`, `Signature.Tells` — the three things
* `Signature.three_ways` — it is always one of them
* `Properties.get?_eq_some_iff` — the value that is read is the one that the last line tells
* `Signature.filesystem_of_tells`, `World.probeTable_of_unknown` and others — what each of them
  becomes in the answer of a probe

## Design Notes

The three are said of what came of starting the program alone: the error if it could not be started,
else its exit code and its output, line by line.  How keys and values are kept in between is not
mentioned.  That the last line counts is shown for all readers of lines at once, in `LastTold`.
-/

namespace PartitionUnits

open Text

/-! ## Lines that tell a value -/

namespace Signature

/-- **A line tells a value for a key**: the key stands before the first equals sign, with or without
blanks around it, and what stands after it is the value once backslashes are undone. -/
def Sets (line : List Char) (key value : String) : Prop :=
  ∃ name text, line = name ++ '=' :: text ∧ '=' ∉ name ∧ String.ofList (trim name) = key ∧
    String.ofList (Properties.unescape text) = value

/-- **The last line for a key** tells a value. -/
def LastSets (ls : List (List Char)) (key value : String) : Prop :=
  ∃ before line after, ls = before ++ line :: after ∧ Sets line key value ∧
    ∀ later ∈ after, ∀ value', ¬ Sets later key value'

theorem sets_iff {line : List Char} {key value : String} :
    Sets line key value ↔ Properties.ofLine? line = some (key, value) := by
  unfold Sets Properties.ofLine?
  rw [Option.map_eq_some_iff]
  constructor
  · rintro ⟨name, text, rfl, hname, rfl, rfl⟩
    exact ⟨(name, text), cut?_append hname, rfl⟩
  · rintro ⟨⟨name, text⟩, hcut, hpair⟩
    obtain ⟨hline, hname⟩ := eq_append_of_cut? hcut
    cases hpair
    exact ⟨name, text, hline, hname, rfl, rfl⟩

/-- A line tells one value for a key. -/
theorem Sets.unique {line : List Char} {key value value' : String} (h : Sets line key value)
    (h' : Sets line key value') : value = value' := by
  have hpair := (sets_iff.mp h).symm.trans (sets_iff.mp h')
  exact congrArg Prod.snd (Option.some.inj hpair)

end Signature

open Signature

namespace Properties

variable {ls : List (List Char)} {output : List Char} {key value : String}

/-- The lines are gone through from the last to the first. -/
theorem lookup_lines_eq_some_iff :
    (ls.filterMap ofLine?).reverse.lookup key = some value ↔ LastSets ls key value := by
  rw [lookup_reverse_filterMap_iff]
  simp only [← sets_iff]
  rfl

/-- **The value for a key is the one that the last line for it tells.** -/
theorem get?_eq_some_iff :
    (parse output).get? key = some value ↔ LastSets (lines output) key value :=
  lookup_lines_eq_some_iff

/-- There is no value for a key that no line is for. -/
theorem get?_eq_none (h : ∀ line ∈ lines output, ∀ value, ¬ Sets line key value) :
    (parse output).get? key = none := by
  rw [Option.eq_none_iff_forall_ne_some]
  intro value hvalue
  obtain ⟨before, line, after, hsplit, hsets, -⟩ := get?_eq_some_iff.mp hvalue
  exact h line (by simp [hsplit]) value hsets

theorem exists_get? {line : List Char} (hline : line ∈ lines output) (h : Sets line key value) :
    ∃ value', (parse output).get? key = some value' := by
  by_contra hnone
  have hget : (parse output).get? key = none := by
    rw [Option.eq_none_iff_forall_ne_some]
    exact fun value' h' => hnone ⟨value', h'⟩
  rw [get?, List.lookup_eq_none_iff] at hget
  have hmem : (key, value) ∈ (parse output).pairs.reverse := by
    rw [List.mem_reverse]
    exact List.mem_filterMap.mpr ⟨line, hline, sets_iff.mp h⟩
  simpa using hget _ hmem

end Properties

/-! ## Three ways -/

namespace Signature

/-- **The program has failed to look**: it could not be started, was killed, or ended with an exit
code that stands for a failure. -/
inductive FailsToLook : Except FileError ProgramRun → Prop where
  | notStarted (e : FileError) : FailsToLook (.error e)
  | killed {r : ProgramRun} (h : r.ending = .killed) : FailsToLook (.ok r)
  | exited {r : ProgramRun} {code : Nat} (h : r.ending = .exited code) (hfound : code ≠ 0)
      (hnothing : code ≠ 2) (hambiguous : code ≠ 8) : FailsToLook (.ok r)

/-- **The program leaves open** what the value for a key is: it found nothing, or contradictory
signatures, or it has no line for the key. -/
inductive LeavesOpen (key : String) : Except FileError ProgramRun → Prop where
  | nothing {r : ProgramRun} (h : r.ending = .exited 2) : LeavesOpen key (.ok r)
  | ambiguous {r : ProgramRun} (h : r.ending = .exited 8) : LeavesOpen key (.ok r)
  | silent {r : ProgramRun} (h : r.ending = .exited 0)
      (hsilent : ∀ line ∈ lines (decodeLossy r.output), ∀ value, ¬ Sets line key value) :
      LeavesOpen key (.ok r)

/-- **The program tells the value** for a key. -/
inductive Tells (key value : String) : Except FileError ProgramRun → Prop where
  | found {r : ProgramRun} (h : r.ending = .exited 0)
      (hlast : LastSets (lines (decodeLossy r.output)) key value) : Tells key value (.ok r)

variable {started : Except FileError ProgramRun} {key value : String}

/-- **One of the three has come of it.** -/
theorem three_ways (key : String) (started : Except FileError ProgramRun) :
    FailsToLook started ∨ LeavesOpen key started ∨ ∃ value, Tells key value started := by
  cases started with
  | error e => exact Or.inl (.notStarted e)
  | ok r =>
      cases hending : r.ending with
      | killed => exact Or.inl (.killed hending)
      | exited code =>
          by_cases hfound : code = 0
          · subst hfound
            right
            by_cases hsilent : ∀ line ∈ lines (decodeLossy r.output), ∀ value,
                ¬ Sets line key value
            · exact Or.inl (.silent hending hsilent)
            · push Not at hsilent
              obtain ⟨line, hline, value, hsets⟩ := hsilent
              obtain ⟨value', hvalue'⟩ := Properties.exists_get? hline hsets
              exact Or.inr ⟨value', .found hending (Properties.get?_eq_some_iff.mp hvalue')⟩
          by_cases hnothing : code = 2
          · exact Or.inr (Or.inl (.nothing (hnothing ▸ hending)))
          by_cases hambiguous : code = 8
          · exact Or.inr (Or.inl (.ambiguous (hambiguous ▸ hending)))
          · exact Or.inl (.exited hending hfound hnothing hambiguous)

/-! ## The answer of a probe -/

variable {start : Command → Except FileError ProgramRun} {program device : Path}

/-- A failure to look is a failure of the probe. -/
theorem probe_of_failsToLook (h : FailsToLook (start (command program device))) :
    ∃ failure, probe start program device = .error failure := by
  unfold probe Command.check
  simp only
  generalize start (command program device) = started at h
  cases h with
  | notStarted e => exact ⟨_, rfl⟩
  | killed h => exact ⟨_, by simp only [h]; rfl⟩
  | exited h hfound hnothing hambiguous =>
      exact ⟨_, by simp only [h, ofExit, if_neg hfound, if_neg hnothing, if_neg hambiguous]; rfl⟩

/-- **What is left open is no failure.**  Either nothing was found, or contradictory signatures, or
properties without the key. -/
theorem probe_of_leavesOpen (h : LeavesOpen key (start (command program device))) :
    probe start program device = .ok .nothing ∨ probe start program device = .ok .ambiguous ∨
      ∃ p, probe start program device = .ok (.found p) ∧ p.get? key = none := by
  unfold probe Command.check
  simp only
  generalize start (command program device) = started at h
  cases h with
  | nothing h => exact Or.inl (by simp only [h]; rfl)
  | ambiguous h => exact Or.inr (Or.inl (by simp only [h]; rfl))
  | silent h hsilent =>
      exact Or.inr (Or.inr ⟨_, by simp only [h]; rfl, Properties.get?_eq_none hsilent⟩)

/-- **What is told is found.** -/
theorem probe_of_tells (h : Tells key value (start (command program device))) :
    ∃ p, probe start program device = .ok (.found p) ∧ p.get? key = some value := by
  unfold probe Command.check
  simp only
  generalize start (command program device) = started at h
  cases h with
  | found h hlast => exact ⟨_, by simp only [h]; rfl, Properties.get?_eq_some_iff.mpr hlast⟩

theorem filesystem_of_leavesOpen (h : LeavesOpen "TYPE" (start (command program device))) :
    (probe start program device).map filesystem = .ok .nothing ∨
      (probe start program device).map filesystem = .ok .ambiguous := by
  rcases probe_of_leavesOpen h with h | h | ⟨p, h, hget⟩
  · exact Or.inl (by rw [h]; rfl)
  · exact Or.inr (by rw [h]; rfl)
  · exact Or.inl (by rw [h]; simp only [Except.map, filesystem, hget])

theorem filesystem_of_tells (h : Tells "TYPE" value (start (command program device))) :
    ∃ info, (probe start program device).map filesystem = .ok (.found info) ∧
      info.fsType = some value := by
  obtain ⟨p, h, hget⟩ := probe_of_tells h
  exact ⟨⟨some value, p.get? "UUID"⟩, by rw [h]; simp only [Except.map, filesystem, hget], rfl⟩

end Signature

/-! ## The answer about a disk -/

namespace World

open Attempt

variable {w : World} {program disk : Path}

theorem probeTable_of_failsToLook (h : FailsToLook (w.start (command program disk))) :
    ∃ failure, (w.probeTable program disk).run.value = .error failure := by
  obtain ⟨failure, hprobe⟩ := probe_of_failsToLook h
  exact ⟨failure, value_bind_of_error hprobe⟩

/-- A disk on which the kind of table is left open, or is not the one that is known, has no table to
read. -/
theorem probeTable_of_unknown (h : LeavesOpen "PTTYPE" (w.start (command program disk)) ∨
    ∃ kind ≠ "gpt", Tells "PTTYPE" kind (w.start (command program disk))) :
    (w.probeTable program disk).run.value = .ok .nothing ∨
      (w.probeTable program disk).run.value = .ok .ambiguous ∨
      ∃ table, (w.probeTable program disk).run.value = .ok (.found table) ∧
        table.isGpt = false := by
  have hfound : ∀ p : Properties, Signature.probe w.start program disk = .ok (.found p) →
      p.get? "PTTYPE" ≠ some "gpt" → ∃ table,
        (w.probeTable program disk).run.value = .ok (.found table) ∧ table.isGpt = false := by
    intro p hprobe hget
    have hkind : Signature.tableKind p ≠ some "gpt" := hget
    refine ⟨{ kind := Signature.tableKind p }, ?_, by simpa [Partition.Table.isGpt] using hkind⟩
    refine bind_eq_ok.mpr ⟨.found p, hprobe, ?_⟩
    simp only [if_neg hkind]
    rfl
  rcases h with h | ⟨kind, hkind, h⟩
  · rcases probe_of_leavesOpen h with hprobe | hprobe | ⟨p, hprobe, hget⟩
    · exact Or.inl (bind_eq_ok.mpr ⟨.nothing, hprobe, rfl⟩)
    · exact Or.inr (Or.inl (bind_eq_ok.mpr ⟨.ambiguous, hprobe, rfl⟩))
    · exact Or.inr (Or.inr (hfound p hprobe (by rw [hget]; simp)))
  · obtain ⟨p, hprobe, hget⟩ := probe_of_tells h
    exact Or.inr (Or.inr (hfound p hprobe (by rw [hget]; simpa using hkind)))

end World

end PartitionUnits
