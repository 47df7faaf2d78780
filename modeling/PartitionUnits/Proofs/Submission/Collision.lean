import PartitionUnits.Proofs.Submission.Part

/-!
# Failures that blame what is there

An action fails because something exists already only if something exists already.

## Main Definitions

* `Failure.BlamesOther` — a failure for another reason than that something exists
* `Tree.LeadsTo.vacancy_alreadyExists` — what is there if a new entry is refused for that reason
* `makeLink_blamesOther`, `ensureDirectory_blamesOther`, `makeFile_blamesOther` — an action whose
  place is vacant does not fail for that reason

## Design Notes

Two reasons speak of taken names.  A file or a link whose name is taken is refused as existing; a
temporary file is not, it is given the next name that was drawn, and the failure says so when all
names are taken.
-/

namespace PartitionUnits

open PartitionUnits.Tree

variable {t u : Tree} {p : Path} {q : Location} {name : Name} {aborted : Aborted}

/-- **A failure for another reason than that something exists already**: its cause is something
else. -/
def Failure.BlamesOther (f : Failure) : Prop :=
  ∃ cause, f.trail.getLast? = some cause ∧ cause ≠ FileError.alreadyExists.message

namespace Failure.BlamesOther

/-- What a failure has interrupted is not its cause. -/
theorem during {f : Failure} (h : f.BlamesOther) (activity : String) :
    (f.during activity).BlamesOther := by
  obtain ⟨cause, hlast, hcause⟩ := h
  exact ⟨cause, by rw [Failure.during, List.getLast?_cons, hlast]; rfl, hcause⟩

theorem of_cause {cause : String} (h : cause ≠ FileError.alreadyExists.message) :
    (Failure.of cause).BlamesOther := ⟨cause, rfl, h⟩

theorem of_error {e : FileError} (h : e ≠ .alreadyExists) : e.failure.BlamesOther := by
  refine of_cause fun heq => h ?_
  revert heq
  cases e <;> decide

end Failure.BlamesOther

/-- A text in quotes ends in a quote, and no wording of an error does. -/
theorem append_quoted_ne_alreadyExists (s : String) (p : Path) :
    s ++ p.quoted ≠ FileError.alreadyExists.message := by
  intro heq
  have hlast := congrArg (fun text : String => text.toList.getLast?) heq
  simp only [Path.quoted, Text.quotedOctets, String.toList_append, String.toList_ofList,
    List.getLast?_append, List.getLast?_singleton, Option.some_or] at hlast
  exact absurd hlast (by decide)

/-- That a device has no unit name is another reason. -/
theorem PathNameError.failure_blamesOther (e : PathNameError) : e.failure.BlamesOther := by
  refine .of_cause fun heq => ?_
  have hpath : e.message.toList.head? = some 'P' := by
    cases e <;> rw [PathNameError.message, String.toList_append, String.toList_append] <;> rfl
  rw [heq] at hpath
  exact absurd hpath (by decide)

/-! ## New entries -/

theorem Path.fault?_ne_alreadyExists : p.fault? ≠ some .alreadyExists := by
  unfold fault?
  split
  · simp
  split
  · simp
  split <;> simp

namespace Tree.LeadsTo

/-- **A new entry is refused as existing only if something is there.** -/
theorem vacancy_alreadyExists (h : t.LeadsTo p q) (hname : Path.IsName name)
    (hdots : name ≠ [dot, dot]) (herror : t.vacancy (p.join ⟨name⟩) = .error .alreadyExists) :
    (p.join ⟨name⟩).fault? = none ∧ IsPlainName name ∧ ∃ e, t.entry? (q ++ [name]) = some e := by
  have hwalk : t.walk true maxLinks [] (p.join ⟨name⟩).names.dropLast = .ok q := by
    rw [hname.names_join, List.dropLast_concat]
    exact walk_eq_ok_iff.mpr h.leads
  unfold vacancy slot at herror
  cases hfault : (p.join ⟨name⟩).fault? with
  | some e =>
      rw [hfault] at herror
      exact absurd (hfault.trans (congrArg some (Except.error.inj herror)))
        Path.fault?_ne_alreadyExists
  | none =>
      simp only [hfault, hname.getLast?_names_join, hwalk, bind, Except.bind, h.isDirectoryAt,
        Bool.not_true, Bool.false_eq_true, if_false, hname.ne_dot, hdots, or_self] at herror
      split at herror
      · cases herror
      next hlength =>
      split at herror
      · next hentry =>
          have hplain : IsPlainName name := ⟨hname.ne_dot, hdots, Nat.not_lt.mp hlength⟩
          exact ⟨rfl, hplain, Option.isSome_iff_exists.mp hentry⟩
      · cases herror

theorem vacancy_ne_alreadyExists (h : t.LeadsTo p q) (hname : IsOrdinaryName name)
    (hvacant : t.entry? (q ++ [name]) = none) :
    t.vacancy (p.join ⟨name⟩) ≠ .error .alreadyExists := by
  intro herror
  obtain ⟨-, -, e, hentry⟩ := h.vacancy_alreadyExists hname.isName hname.ne_dots herror
  rw [hvacant] at hentry
  cases hentry

end Tree.LeadsTo

namespace Tree

variable {file target : Path}

theorem bind_eq_error {α β : Type} {x : Except FileError α} {f : α → Except FileError β}
    {e : FileError} (hf : ∀ a, f a ≠ .error e) (h : (x >>= f) = .error e) : x = .error e := by
  cases x with
  | error e' => rw [Except.error.inj h]
  | ok a => exact absurd h (hf a)

theorem makeDirectory_alreadyExists (h : t.makeDirectory p = .error .alreadyExists) :
    t.vacancy p = .error .alreadyExists := bind_eq_error (fun _ => by simp) h

theorem makeLink_alreadyExists (h : t.makeLink target p = .error .alreadyExists) :
    t.vacancy p = .error .alreadyExists := by
  unfold makeLink at h
  split at h
  · next e hfault =>
      rw [Except.error.inj h] at hfault
      exact absurd hfault Path.fault?_ne_alreadyExists
  · refine bind_eq_error (fun found => ?_) h
    simp only
    split <;> simp

theorem rename_alreadyExists {l : Location} {mode : Nat} {content : Content}
    (hfile : t.fileAt file = .ok (l, mode, content))
    (h : t.rename file target = .error .alreadyExists) :
    t.vacancy target = .error .alreadyExists := by
  unfold rename at h
  rw [hfile] at h
  refine bind_eq_error (fun found => ?_) h
  simp only
  split <;> simp

end Tree

/-! ## Actions -/

namespace Tree.LeadsTo

/-- A link whose place is vacant is not refused as existing. -/
theorem makeLink_blamesOther {target : Path} (h : t.LeadsTo p q) (hname : IsOrdinaryName name)
    (hvacant : t.entry? (q ++ [name]) = none)
    (hrun : (Action.makeLink target (p.join ⟨name⟩)).perform.run t = (.error aborted, u)) :
    aborted.failure.BlamesOther := by
  rw [Action.perform, Script.run_perform_bind] at hrun
  rcases t.apply_cases (c := .makeLink target (p.join ⟨name⟩)) rfl with
    ⟨err, herror, happly⟩ | ⟨final, -, happly⟩
  · rw [happly] at hrun
    obtain ⟨heq, -⟩ := Prod.mk.inj hrun
    cases heq
    refine (Failure.BlamesOther.of_error ?_).during _
    rintro rfl
    exact h.vacancy_ne_alreadyExists hname hvacant (makeLink_alreadyExists herror)
  · rw [happly] at hrun
    cases hrun

/-- A directory whose place has nothing but a directory is not refused as existing. -/
theorem ensureDirectory_blamesOther (h : t.LeadsTo p q) (hname : IsOrdinaryName name)
    (hopen : t.IsOpen (q ++ [name]))
    (hrun : (Action.ensureDirectory (p.join ⟨name⟩)).perform.run t = (.error aborted, u)) :
    aborted.failure.BlamesOther := by
  -- If it were, the directory would be there, and making sure of it would be done.
  have hexists : t.vacancy (p.join ⟨name⟩) ≠ .error .alreadyExists := by
    intro herror
    obtain ⟨hfault, hplain, -⟩ := h.vacancy_alreadyExists hname.isName hname.ne_dots herror
    obtain ⟨artifact?, hdone⟩ := h.run_ensureDirectory hname.isName hfault hplain hopen
    rw [hdone] at hrun
    cases hrun
  rw [Action.perform, Script.run_perform_bind] at hrun
  rcases t.apply_cases (c := .makeDirectory (p.join ⟨name⟩)) rfl with
    ⟨err, herror, happly⟩ | ⟨final, -, happly⟩
  · have hne : err ≠ .alreadyExists := by
      rintro rfl
      exact hexists (makeDirectory_alreadyExists herror)
    rw [happly] at hrun
    simp only [if_neg hne] at hrun
    obtain ⟨heq, -⟩ := Prod.mk.inj hrun
    cases heq
    exact (Failure.BlamesOther.of_error hne).during _
  · rw [happly] at hrun
    cases hrun

/-- A temporary file can take a name that is vacant, or is refused it for another reason. -/
theorem settle_blamesOther {file : Path} {draw : Draw} {content : Octets} (h : t.LeadsTo p q)
    (hname : IsOrdinaryName name) (hvacant : t.entry? (q ++ [name]) = none)
    (hin : t.InDirectory file q draw.name) (hasks : file.asksForDirectory = false)
    (hfree : t.entry? (q ++ [draw.name]) = none)
    (hrun : (settle file (p.join ⟨name⟩)).run
      (t.insert (q ++ [draw.name]) (.file fileMode (.octets content))) = (.error aborted, u)) :
    aborted.failure.BlamesOther := by
  rw [settle, Script.run_perform_bind] at hrun
  rcases apply_cases (c := .rename file (p.join ⟨name⟩)) rfl with
    ⟨err, herror, happly⟩ | ⟨final, -, happly⟩
  · rw [happly] at hrun
    obtain ⟨heq, -⟩ := Prod.mk.inj hrun
    cases heq
    refine ((Failure.BlamesOther.of_error ?_).during _).during _
    rintro rfl
    have hexists := rename_alreadyExists (fileAt_insert _ _ hin hasks hfree) herror
    refine (h.of_le (le_insert hfree)).vacancy_ne_alreadyExists hname ?_ hexists
    rw [entry?_insert_of_ne fun heq => hname.apart draw (by simpa using heq.symm)]
    exact hvacant
  · rw [happly] at hrun
    cases hrun

/-- A file whose place is vacant is not refused as existing. -/
theorem makeFile_blamesOther {content : String} {draws : List Draw} (h : t.LeadsTo p q)
    (hname : IsOrdinaryName name) (hvacant : t.entry? (q ++ [name]) = none)
    (hrun : (Action.makeFile (p.join ⟨name⟩) content draws).perform.run t = (.error aborted, u)) :
    aborted.failure.BlamesOther := by
  obtain ⟨parent, hparent, hleads⟩ := LeadsTo.exists_parent? (p := p) hname.isName
  rw [Action.perform, Script.run_bind, newFile, hparent] at hrun
  simp only at hrun
  rw [Script.run_perform_bind] at hrun
  cases hattempt : t.attempt (.createTemporary parent draws) with
  | error err =>
      rw [apply_eq_of_attempt_error hattempt] at hrun
      obtain ⟨heq, -⟩ := Prod.mk.inj hrun
      cases heq
      exact ((Failure.BlamesOther.of_cause (append_quoted_ne_alreadyExists _ _)).during _).during _
  | ok made =>
      obtain ⟨u', file⟩ := made
      rw [apply_eq_of_attempt_ok hattempt] at hrun
      obtain ⟨draw, -, q', hfile, hin, hfree, rfl⟩ := createTemporary_eq_ok hattempt
      have hasks : file.asksForDirectory = false := by
        rw [hfile]
        exact draw.isName.asksForDirectory_join
      -- The temporary file is where the file itself is to be.
      obtain rfl : q' = q :=
        (LeadsTo.of_inDirectory (hfile ▸ hin) draw.isName).unique ((hleads t q).mpr h)
      simp only at hrun
      rw [run_fillAndSettle hin hasks hfree] at hrun
      generalize hsettle : (settle file (p.join ⟨name⟩)).run _ = ended at hrun
      obtain ⟨result, v⟩ := ended
      cases result with
      | ok _ => cases hrun
      | error a =>
          obtain ⟨heq, -⟩ := Prod.mk.inj hrun
          cases heq
          exact (h.settle_blamesOther hname hvacant hin hasks hfree hsettle).during _

end Tree.LeadsTo

end PartitionUnits
