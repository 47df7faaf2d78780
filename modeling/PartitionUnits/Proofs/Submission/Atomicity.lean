import PartitionUnits.Proofs.Submission.Actions

/-!
# Failed submissions

When a submission that fails leaves the files as they were, and what is left otherwise.

## Main Definitions

* `Destination.aborted?` — the failure that a submission was aborted with
* `Destination.Strands` — the temporary file of that failure is where nothing was before
* `submit_error_iff` — this is the only way in which anything is left

## Design Notes

Rolling back comes before the temporary file of the failed part is let go.  A directory that was
made for that part is not empty then and stays.  Whether the temporary file itself goes depends on
its path: it may lead through directories that the roll back has removed.
-/

namespace PartitionUnits

open PartitionUnits.Tree

variable {t u w : Tree} {d : Destination} {plan : Plan} {aborted : Aborted} {made : List Artifact}
  {file : Path} {q : Location} {draw : Draw} {f : Entry}

/-- What a submission was aborted with, if it was, on its way through the actions. -/
def Destination.aborted? (d : Destination) (plan : Plan) (t : Tree) : Option Aborted :=
  match (d.render plan.units).run.value with
  | .error _ => none
  | .ok rendered =>
    match ((applyActions [] (d.actions rendered plan.dropIns)).run t).1.value with
    | .ok _ => none
    | .error aborted => some aborted

/-- **A submission strands a temporary file**: it is aborted with one whose directory was not there
before, so the submission has made that directory or one on the way to it. -/
def Destination.Strands (d : Destination) (plan : Plan) (t : Tree) : Prop :=
  ∃ aborted file, d.aborted? plan t = some aborted ∧ aborted.temporary = some file ∧
    ∀ s, t.slot file ≠ .ok s

/-! ## Letting the temporary file go -/

theorem run_release_of_none (h : aborted.temporary = none) : (aborted.release.run u).2 = u := by
  rw [Aborted.release, h]
  rfl

theorem run_release_of_some (h : aborted.temporary = some file) :
    (aborted.release.run u).2 = (u.apply (.removeFile file)).2 := by
  rw [Aborted.release, h]
  rfl

/-- A temporary file in a directory that was there before goes without a trace. -/
theorem stray_gone {s : Slot} (hwf : t.WellFormed) (h : Journal t made u)
    (hasks : file.asksForDirectory = false) (hin : u.InDirectory file q draw.name)
    (hvacant : u.entry? (q ++ [draw.name]) = none) (hf : f.isDirectory = false)
    (howned : aborted.temporary = some file) (hslot : t.slot file = .ok s) :
    (aborted.release.run ((rollBack made).run (u.insert (q ++ [draw.name]) f)).2).2 = t := by
  -- Its directory is the one that was there before, so the roll back gets past it.
  have hbefore := InDirectory.of_slot hslot hin.getLast draw.isPlainName
  have hq : s.directory = q := ((hbefore.of_keepsWays (.of_le h.le)).unique hin).1
  rw [hq] at hbefore
  have hnone : t.entry? (q ++ [draw.name]) = none := entry?_eq_none_of_le h.le hvacant
  have hthere := hbefore.insert hnone f
  rw [rollBack_beside hwf h hvacant hbefore.isDirectoryAt, run_release_of_some howned,
    hthere.apply_removeFile hasks (entry?_insert_self (by simp)) hf]
  exact erase_insert_of_vacant hnone

/-- In a tree that only lacks things, the path of a temporary file leads to it or nowhere. -/
theorem apply_removeFile_cases (hin : u.InDirectory file q draw.name) (hle : w ≤ u) :
    (w.apply (.removeFile file)).2 = w ∨
      (w.apply (.removeFile file)).2 = w.erase (q ++ [draw.name]) ∧
        w.InDirectory file q draw.name := by
  rcases w.apply_cases (c := .removeFile file) rfl with
    ⟨err, -, happly⟩ | ⟨final, hremove, happly⟩
  · rw [happly]
    exact Or.inl rfl
  · rw [happly]
    obtain ⟨s, name, e, hslot, hname, -, -, rfl⟩ := removeFile_eq_ok hremove
    have heq : name = draw.name :=
      Option.some.inj ((getLast?_of_slot hslot hname).symm.trans hin.getLast)
    have hin' := InDirectory.of_slot hslot hin.getLast draw.isPlainName
    have hq : s.directory = q := ((hin'.of_keepsWays (.of_le hle)).unique hin).1
    rw [hq] at hin'
    rw [heq, hq]
    exact Or.inr ⟨rfl, hin'⟩

/-- **What is left of a failed submission**: nothing that was there before has changed, and what is
new is a directory or a temporary file. -/
structure Remains (t w : Tree) : Prop where
  le : t ≤ w
  new : ∀ l e, w.entry? l = some e → t.entry? l = some e ∨
    t.entry? l = none ∧ (e = .directory directoryMode ∨ ∃ draw : Draw, l.getLast? = some draw.name)

theorem Remains.refl (t : Tree) : Remains t t := ⟨le_refl t, fun _ _ h => Or.inl h⟩

theorem Remains.erase (h : Remains t w) {l : Location} (hnone : t.entry? l = none) :
    Remains t (w.erase l) where
  le := le_erase_of_le h.le hnone
  new := fun l' e he => h.new l' e (erase_le l' e he)

theorem Leftover.remains (h : Leftover t (q ++ [draw.name]) f w)
    (hnone : t.entry? (q ++ [draw.name]) = none) : Remains t w where
  le := h.le
  new := by
    intro l e hentry
    rcases h.rest l e hentry with hold | ⟨rfl, -⟩ | ⟨hdirectory, hvacant⟩
    · exact Or.inl hold
    · exact Or.inr ⟨hnone, Or.inr ⟨draw, List.getLast?_concat⟩⟩
    · exact Or.inr ⟨hvacant, Or.inl hdirectory⟩

/-- A temporary file leaves nothing behind but itself and directories. -/
theorem stray_remains (h : Journal t made u) (hin : u.InDirectory file q draw.name)
    (hvacant : u.entry? (q ++ [draw.name]) = none) (howned : aborted.temporary = some file) :
    Remains t
      (aborted.release.run ((rollBack made).run (u.insert (q ++ [draw.name]) f)).2).2 := by
  have hnone : t.entry? (q ++ [draw.name]) = none := entry?_eq_none_of_le h.le hvacant
  have hremains := (stray_leftover (f := f) h hvacant).remains hnone
  have hthere := hin.insert hvacant f
  rw [run_release_of_some howned]
  rcases apply_removeFile_cases hthere (rollBack_le made) with hsame | ⟨herase, -⟩
  · rw [hsame]
    exact hremains
  · rw [herase]
    exact hremains.erase hnone

/-- A temporary file in a directory that was not there before does not go without a trace. -/
theorem stray_stays {mode : Nat} {content : Content} (h : Journal t made u)
    (hin : u.InDirectory file q draw.name)
    (hvacant : u.entry? (q ++ [draw.name]) = none) (hf : f = .file mode content)
    (howned : aborted.temporary = some file) (hslot : ∀ s, t.slot file ≠ .ok s) :
    (aborted.release.run ((rollBack made).run (u.insert (q ++ [draw.name]) f)).2).2 ≠ t := by
  have hnone : t.entry? (q ++ [draw.name]) = none := entry?_eq_none_of_le h.le hvacant
  have hstray := (stray_leftover (f := f) h hvacant).stray
  have hthere := hin.insert hvacant f
  rw [run_release_of_some howned]
  rcases apply_removeFile_cases hthere (rollBack_le made) with hsame | ⟨herase, hin'⟩
  · -- It could not be removed and is still there.
    rw [hsame]
    intro hfinal
    rw [hfinal, hnone] at hstray
    cases hstray
  · rw [herase]
    intro hfinal
    -- The way to the temporary file is still there without it.
    have hways := KeepsWays.of_erase_file (hstray.trans (congrArg some hf))
    rw [hfinal] at hways
    exact hslot _ (hin'.of_keepsWays hways).slot

/-! ## Failed submissions -/

/-- What is left once a failed action has been dealt with. -/
theorem release_outcome {a : Action} {v : Tree} (hwf : t.WellFormed) (h : Journal t made u)
    (hfailed : Failed u a aborted v) :
    ((aborted.release.run ((rollBack made).run v).2).2 = t ↔
      ¬ ∃ file, aborted.temporary = some file ∧ ∀ s, t.slot file ≠ .ok s) ∧
    Remains t (aborted.release.run ((rollBack made).run v).2).2 := by
  cases hfailed with
  | refused howned =>
      rw [rollBack_of_journal hwf h, run_release_of_none howned]
      refine ⟨⟨fun _ => ?_, fun _ => rfl⟩, .refl t⟩
      rintro ⟨file, hfile, -⟩
      rw [howned] at hfile
      cases hfile
  | @stray p file content draws q draw ha howned hstray =>
      refine ⟨⟨?_, ?_⟩, stray_remains h hstray.inDirectory hstray.vacant howned⟩
      · rintro hfinal ⟨file', howned', hslot⟩
        rw [howned] at howned'
        cases howned'
        exact stray_stays h hstray.inDirectory hstray.vacant rfl howned hslot hfinal
      · intro hnot
        have hslot : ∃ s, t.slot file = .ok s := by
          by_contra hno
          exact hnot ⟨file, howned, fun s hs => hno ⟨s, hs⟩⟩
        obtain ⟨s, hs⟩ := hslot
        exact stray_gone hwf h hstray.asksForDirectory hstray.inDirectory hstray.vacant rfl howned
          hs

/-- **A submission that fails leaves the files as they were, unless it strands a temporary file.**
Even then nothing that was there before has changed, and what is new is a directory or a temporary
file. -/
theorem submit_error_iff {failure : Failure} (hwf : t.WellFormed)
    (h : ((d.submit plan).run t).1.value = .error failure) :
    (((d.submit plan).run t).2 = t ↔ ¬ d.Strands plan t) ∧
      Remains t ((d.submit plan).run t).2 := by
  have houtcome := submit_outcome d plan t
  rw [h] at houtcome
  generalize ((d.submit plan).run t).2 = final at houtcome ⊢
  cases houtcome with
  | undecided hrender =>
      refine ⟨⟨fun _ => ?_, fun _ => rfl⟩, .refl t⟩
      rintro ⟨aborted, file, haborted, -⟩
      rw [Destination.aborted?, hrender] at haborted
      cases haborted
  | @aborted rendered before after a made u v aborted hrender hactions hbefore hfailed hvalue =>
      have haborted : d.aborted? plan t = some aborted := by
        rw [Destination.aborted?, hrender]
        simp only
        rw [hvalue]
      obtain ⟨hiff, hremains⟩ := release_outcome hwf hbefore.journal hfailed
      refine ⟨hiff.trans (not_congr ?_), hremains⟩
      constructor
      · rintro ⟨file, howned, hslot⟩
        exact ⟨aborted, file, haborted, howned, hslot⟩
      · rintro ⟨aborted', file, haborted', howned, hslot⟩
        rw [haborted] at haborted'
        cases haborted'
        exact ⟨file, howned, hslot⟩

/-! ## A plan that strands a temporary file -/

/-- Two settings files of one name for a unit that has no settings yet. -/
def namesakes : Plan :=
  { dropIns := [⟨"a.device", "x", "first"⟩, ⟨"a.device", "x", "second"⟩] }

/-- **The directory made for the first of two namesakes outlives the failure of the second**: when
the roll back comes to it, the temporary file of the second is still in it. -/
theorem namesakes_leave_directory :
    ((bareDestination.submit namesakes).run bareTree).1.value ≠ .ok () ∧
      ((bareDestination.submit namesakes).run bareTree).2 =
        bareTree.insert [Text.encode "dest".toList, Text.encode "a.device.d".toList]
          (.directory directoryMode) ∧
      ((bareDestination.submit namesakes).run bareTree).2 ≠ bareTree := by
  decide +kernel

/-- What two namesakes leave is a stranding and nothing worse. -/
theorem namesakes_strand :
    bareDestination.Strands namesakes bareTree ∧
      Remains bareTree ((bareDestination.submit namesakes).run bareTree).2 := by
  have hvalue : ((bareDestination.submit namesakes).run bareTree).1.value =
      .error ⟨["Failed to create unit file \"/dest/a.device.d/x.conf\"",
        "Failed to create file \"/dest/a.device.d/x.conf\"",
        "failed to persist temporary file: File exists (os error 17)",
        "File exists (os error 17)"]⟩ := by
    decide +kernel
  have hleft : ((bareDestination.submit namesakes).run bareTree).2 ≠ bareTree := by
    decide +kernel
  obtain ⟨hiff, hremains⟩ := submit_error_iff bareTree_wellFormed hvalue
  refine ⟨?_, hremains⟩
  by_contra hnot
  exact hleft (hiff.mpr hnot)

end PartitionUnits
