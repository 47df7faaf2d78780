import PartitionUnits.FileSystem.NewFile
import PartitionUnits.Proofs.FileSystem.Script

/-!
# How a new file comes about

What making a file can come to, and the trees on the way.

## Main Definitions

* `Stray` — a temporary file that a failure owns
* `NewFileOutcome` — the ways in which making a file can end
* `newFile_outcome` — there are no others
* `newFile_states` — on the way there is at most the temporary file beside what was there

## Design Notes

The steps between making the temporary file and giving it its name cannot fail on this file system,
because the temporary file is where it was made.  So making a file ends in one of three ways: the
file is there, nothing has changed, or the temporary file is left and the failure owns it.
-/

namespace PartitionUnits

open PartitionUnits.Tree

variable {t u : Tree} {file target : Path} {content : Octets} {draws : List Draw} {d : Location}
  {name : Name}

/-- **A temporary file that cannot be given its name** and so stays with the failure. -/
structure Stray (t : Tree) (target : Path) (content : Octets) (draws : List Draw) (file : Path)
    (d : Location) (draw : Draw) : Prop where
  mem_draws : draw ∈ draws
  parent : ∃ directory, target.parent? = some directory ∧ file = directory.join ⟨draw.name⟩
  inDirectory : t.InDirectory file d draw.name
  vacant : t.entry? (d ++ [draw.name]) = none
  stuck : ∀ final,
    (t.insert (d ++ [draw.name]) (.file fileMode (.octets content))).rename file target ≠ .ok final

theorem Stray.asksForDirectory {draw : Draw} (h : Stray t target content draws file d draw) :
    file.asksForDirectory = false := by
  obtain ⟨directory, -, rfl⟩ := h.parent
  exact draw.isName.asksForDirectory_join

/-- **The ways in which making a file can end.** -/
inductive NewFileOutcome (t : Tree) (target : Path) (content : Octets) (draws : List Draw) :
    Except Aborted Unit → Tree → Prop where
  | made {d : Location} {name : Name} (hin : t.InDirectory target d name)
      (hasks : target.asksForDirectory = false) (hvacant : t.entry? (d ++ [name]) = none) :
      NewFileOutcome t target content draws (.ok ())
        (t.insert (d ++ [name]) (.file fileMode (.octets content)))
  | refused {a : Aborted} (howned : a.temporary = none) :
      NewFileOutcome t target content draws (.error a) t
  | unsettled {a : Aborted} {file : Path} {draw : Draw} {d : Location}
      (howned : a.temporary = some file) (hstray : Stray t target content draws file d draw) :
      NewFileOutcome t target content draws (.error a)
        (t.insert (d ++ [draw.name]) (.file fileMode (.octets content)))

/-- The location at which a path names a file that was just made there. -/
theorem fileAt_insert (mode : Nat) (c : Content) (hin : t.InDirectory file d name)
    (hasks : file.asksForDirectory = false) (hvacant : t.entry? (d ++ [name]) = none) :
    (t.insert (d ++ [name]) (.file mode c)).fileAt file = .ok (d ++ [name], mode, c) :=
  (hin.insert hvacant _).fileAt hasks (entry?_insert_self (by simp))

/-- **A file that was just made and is given another name** is there as if it had been made under
that name: it is gone where it was made, and was no way to the new name. -/
theorem rename_insert_eq_ok {final : Tree} {mode : Nat} {c : Content}
    (hat : (t.insert (d ++ [name]) (.file mode c)).fileAt file = .ok (d ++ [name], mode, c))
    (hvacant : t.entry? (d ++ [name]) = none)
    (h : (t.insert (d ++ [name]) (.file mode c)).rename file target = .ok final) :
    ∃ d' name', t.InDirectory target d' name' ∧ target.asksForDirectory = false ∧
      t.entry? (d' ++ [name']) = none ∧ final = t.insert (d' ++ [name']) (.file mode c) := by
  obtain ⟨l, mode', c', d', name', hat', hin', hasks', hvacant', hfinal⟩ := rename_eq_ok h
  rw [hat] at hat'
  obtain ⟨rfl, hrest⟩ := Prod.mk.inj (Except.ok.inj hat')
  obtain ⟨rfl, rfl⟩ := Prod.mk.inj hrest
  rw [erase_insert_of_vacant hvacant] at hfinal
  exact ⟨d', name', hin'.of_keepsWays (.of_insert_file (by simp)), hasks',
    entry?_eq_none_of_le (le_insert hvacant) hvacant', hfinal⟩

/-- Giving a filled temporary file its name, or failing and owning it. -/
theorem settle_outcome {draw : Draw} {directory : Path} {result : Except Aborted Unit}
    (hdraw : draw ∈ draws) (hparent : target.parent? = some directory)
    (hfile : file = directory.join ⟨draw.name⟩) (hin : t.InDirectory file d draw.name)
    (hvacant : t.entry? (d ++ [draw.name]) = none)
    (h : (settle file target).run (t.insert (d ++ [draw.name]) (.file fileMode (.octets content))) =
      (result, u)) : NewFileOutcome t target content draws result u := by
  have hasks : file.asksForDirectory = false := by
    rw [hfile]
    exact draw.isName.asksForDirectory_join
  rw [settle, Script.run_perform_bind] at h
  rcases (t.insert (d ++ [draw.name]) (.file fileMode (.octets content))).apply_cases
    (c := .rename file target) rfl with ⟨err, hrename, happly⟩ | ⟨final, hrename, happly⟩
  · rw [happly] at h
    obtain ⟨rfl, rfl⟩ := Prod.mk.inj h
    refine .unsettled rfl ⟨hdraw, ⟨directory, hparent, hfile⟩, hin, hvacant, fun final => ?_⟩
    rw [hrename]
    simp
  · rw [happly] at h
    obtain ⟨rfl, rfl⟩ := Prod.mk.inj h
    obtain ⟨d', name', hin', hasks', hvacant', rfl⟩ :=
      rename_insert_eq_ok (fileAt_insert _ _ hin hasks hvacant) hvacant hrename
    exact .made hin' hasks' hvacant'

/-- The temporary file can be filled and given its permissions, since it was just made. -/
theorem run_fillAndSettle {draw : Draw} (hin : t.InDirectory file d draw.name)
    (hasks : file.asksForDirectory = false) (hvacant : t.entry? (d ++ [draw.name]) = none) :
    (fillAndSettle file target content).run
        (t.insert (d ++ [draw.name]) (.file 0o600 (.octets []))) =
      (settle file target).run
        (t.insert (d ++ [draw.name]) (.file fileMode (.octets content))) := by
  have hwrite := apply_write content (fileAt_insert 0o600 (.octets []) hin hasks hvacant)
  have hset := apply_setMode fileMode (fileAt_insert 0o600 (.octets content) hin hasks hvacant)
  rw [insert_insert] at hwrite hset
  rw [fillAndSettle, Script.run_perform_bind, hwrite]
  simp only
  rw [Script.run_perform_bind, hset]

/-- **Making a file ends in one of three ways.** -/
theorem newFile_outcome {result : Except Aborted Unit}
    (h : (newFile target content draws).run t = (result, u)) :
    NewFileOutcome t target content draws result u := by
  unfold newFile at h
  cases hparent : target.parent? with
  | none =>
      rw [hparent] at h
      obtain ⟨rfl, rfl⟩ := Prod.mk.inj h
      exact .refused rfl
  | some directory =>
      rw [hparent] at h
      rw [Script.run_perform_bind] at h
      cases hattempt : t.attempt (.createTemporary directory draws) with
      | error err =>
          rw [apply_eq_of_attempt_error hattempt] at h
          obtain ⟨rfl, rfl⟩ := Prod.mk.inj h
          exact .refused rfl
      | ok made =>
          obtain ⟨u', file⟩ := made
          rw [apply_eq_of_attempt_ok hattempt] at h
          obtain ⟨draw, hdraw, d, hfile, hin, hvacant, rfl⟩ := createTemporary_eq_ok hattempt
          have hasks : file.asksForDirectory = false := by
            rw [hfile]
            exact draw.isName.asksForDirectory_join
          simp only at h
          rw [run_fillAndSettle hin hasks hvacant] at h
          exact settle_outcome hdraw hparent hfile hin hvacant h

/-! ## On the way -/

/-- The trees while a temporary file is filled and given its name. -/
theorem fillAndSettle_states {draw : Draw} {v : Tree} (hin : t.InDirectory file d draw.name)
    (hasks : file.asksForDirectory = false) (hvacant : t.entry? (d ++ [draw.name]) = none)
    (hv : v ∈ (fillAndSettle file target content).states
      (t.insert (d ++ [draw.name]) (.file 0o600 (.octets [])))) :
    (∃ mode c, v = t.insert (d ++ [draw.name]) (.file mode c)) ∨
      v = ((fillAndSettle file target content).run
        (t.insert (d ++ [draw.name]) (.file 0o600 (.octets [])))).2 := by
  have hwrite := apply_write content (fileAt_insert 0o600 (.octets []) hin hasks hvacant)
  have hset := apply_setMode fileMode (fileAt_insert 0o600 (.octets content) hin hasks hvacant)
  rw [insert_insert] at hwrite hset
  rw [run_fillAndSettle hin hasks hvacant]
  -- Up to the permissions, the temporary file is there.
  rw [fillAndSettle, Script.mem_states_perform_bind, hwrite] at hv
  rcases hv with rfl | hv
  · exact Or.inl ⟨_, _, rfl⟩
  simp only at hv
  rw [Script.mem_states_perform_bind, hset] at hv
  rcases hv with rfl | hv
  · exact Or.inl ⟨_, _, rfl⟩
  simp only at hv
  rw [settle, Script.mem_states_perform_bind] at hv
  rw [settle, Script.run_perform_bind]
  rcases hv with rfl | hv
  · exact Or.inl ⟨_, _, rfl⟩
  rcases apply_cases (c := .rename file target) rfl with ⟨err, -, happly⟩ | ⟨final, -, happly⟩
  · rw [happly] at hv
    exact Or.inl ⟨_, _, List.mem_singleton.mp hv⟩
  · rw [happly] at hv ⊢
    exact Or.inr (List.mem_singleton.mp hv)

/-- **While a file is made**, there is nothing new but a temporary file of a drawn name, until the
file is there. -/
theorem newFile_states {v : Tree} (hv : v ∈ (newFile target content draws).states t) :
    v = t ∨
      (∃ draw ∈ draws, ∃ d mode c, t.entry? (d ++ [draw.name]) = none ∧
        v = t.insert (d ++ [draw.name]) (.file mode c)) ∨
      v = ((newFile target content draws).run t).2 := by
  unfold newFile at hv ⊢
  cases hparent : target.parent? with
  | none =>
      rw [hparent] at hv
      exact Or.inl (List.mem_singleton.mp hv)
  | some directory =>
      rw [hparent] at hv
      rw [Script.mem_states_perform_bind] at hv
      rw [Script.run_perform_bind]
      rcases hv with rfl | hv
      · exact Or.inl rfl
      cases hattempt : t.attempt (.createTemporary directory draws) with
      | error err =>
          rw [apply_eq_of_attempt_error hattempt] at hv
          exact Or.inl (List.mem_singleton.mp hv)
      | ok made =>
          obtain ⟨u', file⟩ := made
          rw [apply_eq_of_attempt_ok hattempt] at hv ⊢
          obtain ⟨draw, hdraw, d, hfile, hin, hvacant, rfl⟩ := createTemporary_eq_ok hattempt
          have hasks : file.asksForDirectory = false := by
            rw [hfile]
            exact draw.isName.asksForDirectory_join
          rcases fillAndSettle_states hin hasks hvacant hv with ⟨mode, c, rfl⟩ | rfl
          · exact Or.inr (Or.inl ⟨draw, hdraw, d, mode, c, hvacant, rfl⟩)
          · exact Or.inr (Or.inr rfl)

end PartitionUnits
