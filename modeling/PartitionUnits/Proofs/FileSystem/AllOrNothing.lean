import PartitionUnits.Proofs.FileSystem.NewFile

/-!
# A new file is there as a whole or not at all

The system may refuse a step for reasons that no tree shows: a disk is full, a medium fails, a right
is missing.  Whatever it refuses while a file is made, the file is there with its whole content in
the end, or nothing has changed.

## Main Definitions

* `Tree.Responds` — how the system may respond to a step
* `Script.MayEnd` — how a script may end then
* `Appears` — an entry has appeared at a path, and nothing else has changed
* `NewFileEnding` — the ways in which making a file may end
* `newFile_all_or_nothing` — the file has appeared, or the failure leaves nothing once it is let go

## Design Notes

A step that is refused does nothing, with one exception: a write may stop after a part of its
content.  Removing a file is not refused, since a failure that cannot clean up leaves what it has
made, whatever the order of the steps.  `Script.run` is the case in which nothing is refused
(`Script.mayEnd_run`).

While a file is made, everything that is done lies in one temporary file.  Before that file is there
nothing has to be undone; from then on every refusal either removes it or hands it to the failure.
-/

namespace PartitionUnits

open PartitionUnits.Tree

/-! ## Steps that are refused -/

/-- **How the system may respond to a step**: take it, refuse it, or stop in the middle of a
write. -/
inductive Tree.Responds (t : Tree) : Change → Except FileError Path → Tree → Prop where
  | taken (c : Change) : Responds t c (t.apply c).1 (t.apply c).2
  | refused {c : Change} (hc : ∀ file, c ≠ .removeFile file) (err : FileError) :
      Responds t c (.error err) t
  | cutShort {file : Path} {content part : Octets} (hpart : part <+: content) (err : FileError) :
      Responds t (.write file content) (.error err) (t.apply (.write file part)).2

namespace Script

variable {α : Type} {s : Script α} {t u : Tree} {a b : α}

/-- **How a script may end**, if any of its steps may be refused. -/
inductive MayEnd : Script α → Tree → α → Tree → Prop where
  | done {a : α} {t : Tree} : MayEnd (.done a) t a t
  | step {c : Change} {next : Except FileError Path → Script α} {t t' u : Tree}
      {answer : Except FileError Path} {a : α} (hresponds : t.Responds c answer t')
      (h : MayEnd (next answer) t' a u) : MayEnd (.step c next) t a u

/-- A script may end as it does if every step is taken. -/
theorem mayEnd_run (s : Script α) (t : Tree) : s.MayEnd t (s.run t).1 (s.run t).2 := by
  induction s generalizing t with
  | done a => exact .done
  | step c next ih => exact .step (.taken c) (ih _ _)

theorem mayEnd_pure_iff : (pure b : Script α).MayEnd t a u ↔ a = b ∧ u = t := by
  constructor
  · intro h
    cases h
    exact ⟨rfl, rfl⟩
  · rintro ⟨rfl, rfl⟩
    exact .done

/-- How a step and what comes after it may end. -/
theorem mayEnd_perform_bind_iff {c : Change} {f : Except FileError Path → Script α} :
    (perform c >>= f).MayEnd t a u ↔
      ∃ answer t', t.Responds c answer t' ∧ (f answer).MayEnd t' a u := by
  constructor
  · intro h
    cases h with
    | step hresponds h => exact ⟨_, _, hresponds, h⟩
  · rintro ⟨answer, t', hresponds, h⟩
    exact .step hresponds h

end Script

/-! ## An entry that appears -/

/-- **An entry has appeared at a path, and nothing else has changed**: there was nothing at the path
before, not even a link that leads nowhere, every other location is as it was, and every path that
does not lead to the new entry leads to what it led to. -/
structure Appears (t : Tree) (target : Path) (e : Entry) (u : Tree) : Prop where
  absent : t.find false target = .error .notFound
  present : u.find false target = .ok e
  unchanged : ∀ l, u.locate false target ≠ .ok l → u.entry? l = t.entry? l
  elsewhere : ∀ follow p, u.locate follow p ≠ u.locate false target → ∀ e',
    u.find follow p = .ok e' ↔ t.find follow p = .ok e'

variable {t u v : Tree} {file target p : Path} {content : Octets} {draws : List Draw} {d : Location}
  {name : Name} {mode : Nat} {c : Content} {result : Except Aborted Unit} {aborted : Aborted}

/-- What is found beside a new file was found before. -/
theorem find_of_insert_file {follow : Bool} {l l' : Location} {e : Entry}
    (hlocate : (t.insert l' (.file mode c)).locate follow p = .ok l) (hl' : l' ≠ []) (hne : l ≠ l')
    (hentry : entry? (t.insert l' (.file mode c)) l = some e) : t.find follow p = .ok e := by
  rw [entry?_insert_of_ne hne] at hentry
  obtain ⟨hfault, hleads⟩ := locate_eq_ok_iff.mp hlocate
  have hbefore : t.Leads follow _ _ _ l := hleads.of_keepsWays_of_end
    (fun e he => by rwa [entry?_insert_of_ne hne] at he) (.of_insert_file hl')
  exact find_eq_ok_iff.mpr ⟨l, locate_eq_ok_iff.mpr ⟨hfault, hbefore⟩, hentry⟩

/-- **A file that is made where there was nothing has appeared.** -/
theorem Tree.InDirectory.appears (hin : t.InDirectory target d name)
    (hasks : target.asksForDirectory = false) (hvacant : t.entry? (d ++ [name]) = none) :
    Appears t target (.file mode c) (t.insert (d ++ [name]) (.file mode c)) := by
  have hentry := entry?_insert_self (t := t) (l := d ++ [name]) (e := .file mode c) (by simp)
  have hthere := hin.insert hvacant (.file mode c)
  have hlocate : (t.insert (d ++ [name]) (.file mode c)).locate false target = .ok (d ++ [name]) :=
    (hthere.locate_iff hasks).mpr ⟨rfl, _, hentry⟩
  refine ⟨hin.find_of_vacant hasks hvacant, (hthere.find_iff hasks).mpr hentry, ?_, ?_⟩
  · intro l hl
    rw [hlocate] at hl
    exact entry?_insert_of_ne fun heq => hl (congrArg Except.ok heq.symm)
  · -- a path may only change if it goes through the new entry, and a file leads nowhere
    intro follow p hp e'
    refine ⟨fun hfind => ?_, find_of_le (le_insert hvacant)⟩
    obtain ⟨l, hl, he'⟩ := find_eq_ok_iff.mp hfind
    have hne : l ≠ d ++ [name] := by
      rintro rfl
      exact hp (hl.trans hlocate.symm)
    exact find_of_insert_file hl (by simp) hne he'

/-! ## The ways in which making a file may end -/

/-- A temporary file that is removed leaves the tree as it was. -/
theorem eq_of_responds_removeFile {answer : Except FileError Path}
    (hin : t.InDirectory file d name) (hasks : file.asksForDirectory = false)
    (hvacant : t.entry? (d ++ [name]) = none)
    (h : (t.insert (d ++ [name]) (.file mode c)).Responds (.removeFile file) answer u) : u = t := by
  cases h with
  | taken =>
      have hthere := hin.insert hvacant (.file mode c)
      rw [hthere.apply_removeFile hasks (entry?_insert_self (by simp)) rfl]
      exact erase_insert_of_vacant hvacant
  | refused hc => exact absurd rfl (hc file)

/-- **The ways in which making a file may end.** -/
inductive NewFileEnding (t : Tree) (target : Path) (content : Octets) :
    Except Aborted Unit → Tree → Prop where
  | made {d : Location} {name : Name} (hin : t.InDirectory target d name)
      (hasks : target.asksForDirectory = false) (hvacant : t.entry? (d ++ [name]) = none) :
      NewFileEnding t target content (.ok ())
        (t.insert (d ++ [name]) (.file fileMode (.octets content)))
  | undone {aborted : Aborted} (howned : aborted.temporary = none) :
      NewFileEnding t target content (.error aborted) t
  | owned {aborted : Aborted} {file : Path} {d : Location} {name : Name} {mode : Nat} {c : Content}
      (howned : aborted.temporary = some file) (hin : t.InDirectory file d name)
      (hasks : file.asksForDirectory = false) (hvacant : t.entry? (d ++ [name]) = none) :
      NewFileEnding t target content (.error aborted) (t.insert (d ++ [name]) (.file mode c))

/-- The ways in which making a file ends if nothing is refused are among them. -/
theorem NewFileOutcome.ending (h : NewFileOutcome t target content draws result u) :
    NewFileEnding t target content result u := by
  cases h with
  | made hin hasks hvacant => exact .made hin hasks hvacant
  | refused howned => exact .undone howned
  | unsettled howned hstray =>
      exact .owned howned hstray.inDirectory hstray.asksForDirectory hstray.vacant

section

variable {directory : Path} {draw : Draw} (hdraw : draw ∈ draws)
  (hparent : target.parent? = some directory) (hfile : file = directory.join ⟨draw.name⟩)
  (hin : t.InDirectory file d draw.name) (hvacant : t.entry? (d ++ [draw.name]) = none)

include hfile in
theorem asksForDirectory_temporary : file.asksForDirectory = false := by
  rw [hfile]
  exact draw.isName.asksForDirectory_join

include hin hvacant hfile in
/-- A failure that has removed the temporary file has undone everything. -/
theorem ending_of_removal
    (h : (do let _ ← Script.perform (.removeFile file); return .error aborted :
        Script (Except Aborted Unit)).MayEnd (t.insert (d ++ [draw.name]) (.file mode c)) result u)
    (howned : aborted.temporary = none) : NewFileEnding t target content result u := by
  obtain ⟨answer, t', hresponds, h⟩ := Script.mayEnd_perform_bind_iff.mp h
  obtain ⟨rfl, rfl⟩ := Script.mayEnd_pure_iff.mp h
  rw [eq_of_responds_removeFile hin (asksForDirectory_temporary hfile) hvacant hresponds]
  exact .undone howned

include hdraw hparent hfile hin hvacant in
/-- A filled temporary file gets its name, or the failure owns it. -/
theorem settle_ending (h : (settle file target).MayEnd
      (t.insert (d ++ [draw.name]) (.file fileMode (.octets content))) result u) :
    NewFileEnding t target content result u := by
  have hasks := asksForDirectory_temporary hfile
  obtain ⟨answer, t', hresponds, h⟩ := Script.mayEnd_perform_bind_iff.mp h
  cases hresponds with
  | taken =>
      -- the script ends as it does without refusals, and what came of that is known
      refine NewFileOutcome.ending (settle_outcome hdraw hparent hfile hin hvacant ?_)
      rw [settle, Script.run_perform_bind]
      generalize ((t.insert (d ++ [draw.name]) (.file fileMode (.octets content))).apply
        (.rename file target)) = response at h ⊢
      obtain ⟨answer, t'⟩ := response
      cases answer with
      | ok _ =>
          obtain ⟨rfl, rfl⟩ := Script.mayEnd_pure_iff.mp h
          rfl
      | error err =>
          obtain ⟨rfl, rfl⟩ := Script.mayEnd_pure_iff.mp h
          rfl
  | refused _ err =>
      obtain ⟨rfl, rfl⟩ := Script.mayEnd_pure_iff.mp h
      exact .owned rfl hin hasks hvacant

include hdraw hparent hfile hin hvacant in
/-- **Filling a temporary file** and giving it its name ends in one of these ways. -/
theorem fillAndSettle_ending (h : (fillAndSettle file target content).MayEnd
      (t.insert (d ++ [draw.name]) (.file 0o600 (.octets []))) result u) :
    NewFileEnding t target content result u := by
  have hasks := asksForDirectory_temporary hfile
  -- a write that stops in the middle is a write of less
  have hwrite (data : Octets) :
      (t.insert (d ++ [draw.name]) (.file 0o600 (.octets []))).apply (.write file data) =
        (.ok file, t.insert (d ++ [draw.name]) (.file 0o600 (.octets data))) := by
    rw [apply_write data (fileAt_insert 0o600 (.octets []) hin hasks hvacant), insert_insert]
  obtain ⟨answer, t', hresponds, h⟩ := Script.mayEnd_perform_bind_iff.mp h
  cases hresponds with
  | refused _ err => exact ending_of_removal hfile hin hvacant h rfl
  | @cutShort _ _ part _ err =>
      rw [hwrite part] at h
      exact ending_of_removal hfile hin hvacant h rfl
  | taken =>
      rw [hwrite content] at h
      obtain ⟨answer, t', hresponds, h⟩ := Script.mayEnd_perform_bind_iff.mp h
      cases hresponds with
      | refused _ err => exact ending_of_removal hfile hin hvacant h rfl
      | taken =>
          rw [apply_setMode fileMode (fileAt_insert 0o600 (.octets content) hin hasks hvacant),
            insert_insert] at h
          exact settle_ending hdraw hparent hfile hin hvacant h

end

/-- **Whatever the system refuses, making a file ends in one of these ways.** -/
theorem newFile_ending (h : (newFile target content draws).MayEnd t result u) :
    NewFileEnding t target content result u := by
  unfold newFile at h
  cases hparent : target.parent? with
  | none =>
      rw [hparent] at h
      obtain ⟨rfl, rfl⟩ := Script.mayEnd_pure_iff.mp h
      exact .undone rfl
  | some directory =>
      rw [hparent] at h
      obtain ⟨answer, t', hresponds, h⟩ := Script.mayEnd_perform_bind_iff.mp h
      cases hresponds with
      | refused _ err =>
          obtain ⟨rfl, rfl⟩ := Script.mayEnd_pure_iff.mp h
          exact .undone rfl
      | taken =>
          cases hattempt : t.attempt (.createTemporary directory draws) with
          | error err =>
              rw [apply_eq_of_attempt_error hattempt] at h
              obtain ⟨rfl, rfl⟩ := Script.mayEnd_pure_iff.mp h
              exact .undone rfl
          | ok made =>
              obtain ⟨t', file⟩ := made
              rw [apply_eq_of_attempt_ok hattempt] at h
              obtain ⟨draw, hdraw, d, hfile, hin, hvacant, rfl⟩ := createTemporary_eq_ok hattempt
              exact fillAndSettle_ending hdraw hparent hfile hin hvacant h

/-! ## All or nothing -/

/-- A failure that owns a temporary file removes it when it is let go. -/
theorem eq_of_release (h : NewFileEnding t target content (.error aborted) u)
    (hrelease : aborted.release.MayEnd u () v) : v = t := by
  cases h with
  | undone howned =>
      rw [Aborted.release, howned] at hrelease
      exact (Script.mayEnd_pure_iff.mp hrelease).2
  | owned howned hin hasks hvacant =>
      rw [Aborted.release, howned] at hrelease
      obtain ⟨answer, t', hresponds, h⟩ := Script.mayEnd_perform_bind_iff.mp hrelease
      rw [(Script.mayEnd_pure_iff.mp h).2]
      exact eq_of_responds_removeFile hin hasks hvacant hresponds

/-- **A file is made as a whole or not at all**, whatever the system refuses on the way.  If it is
made, it has appeared with its content and its permissions where there was nothing, and nothing else
has changed.  If it is not, nothing has changed once the failure is let go. -/
theorem newFile_all_or_nothing (h : (newFile target content draws).MayEnd t result u) :
    match result with
    | .ok () => Appears t target (.file 0o644 (.octets content)) u
    | .error aborted => ∀ v, aborted.release.MayEnd u () v → v = t := by
  have hending := newFile_ending h
  cases result with
  | ok made =>
      cases hending with
      | made hin hasks hvacant => exact hin.appears hasks hvacant
  | error aborted => exact fun v => eq_of_release hending

/-- A directory with a link in it that leads nowhere. -/
def treeWithLink : Tree :=
  insert (insert {} [Text.encode "d".toList] (.directory directoryMode))
    [Text.encode "d".toList, Text.encode "link".toList] (.link (Text.encode "nowhere".toList))

/-- A file that is made beside the link, one that is not made in its place, and one whose content
could only be written in part. -/
theorem newFile_all_or_nothing_treeWithLink :
    (∃ u, (newFile (Path.ofText "/d/new") [1, 2]).MayEnd treeWithLink (.ok ()) u ∧
        Appears treeWithLink (Path.ofText "/d/new") (.file 0o644 (.octets [1, 2])) u) ∧
      (∃ aborted u, (newFile (Path.ofText "/d/link") [1, 2]).MayEnd treeWithLink
          (.error aborted) u ∧
        u ≠ treeWithLink ∧ ∀ v, aborted.release.MayEnd u () v → v = treeWithLink) ∧
      ∃ aborted u, (newFile (Path.ofText "/d/new") [1, 2] [Draw.ofNumber 1]).MayEnd treeWithLink
          (.error aborted) u ∧
        ∀ v, aborted.release.MayEnd u () v → v = treeWithLink := by
  refine ⟨?_, ?_, ?_⟩
  · have hend := (newFile (Path.ofText "/d/new") [1, 2]).mayEnd_run treeWithLink
    have hvalue : ((newFile (Path.ofText "/d/new") [1, 2]).run treeWithLink).1 = .ok () := by
      decide +kernel
    rw [hvalue] at hend
    exact ⟨_, hend, newFile_all_or_nothing hend⟩
  · have hend := (newFile (Path.ofText "/d/link") [1, 2]).mayEnd_run treeWithLink
    have hleft : ((newFile (Path.ofText "/d/link") [1, 2]).run treeWithLink).2 ≠ treeWithLink := by
      decide +kernel
    have hvalue :
        ((newFile (Path.ofText "/d/link") [1, 2]).run treeWithLink).1.toOption = none := by
      decide +kernel
    cases hresult : ((newFile (Path.ofText "/d/link") [1, 2]).run treeWithLink).1 with
    | ok made =>
        rw [hresult] at hvalue
        cases hvalue
    | error aborted =>
        rw [hresult] at hend
        exact ⟨aborted, _, hend, hleft, newFile_all_or_nothing hend⟩
  · have hparent : (Path.ofText "/d/new").parent? = some (Path.ofText "/d") := by decide +kernel
    have hcreate : (treeWithLink.apply (.createTemporary (Path.ofText "/d") [Draw.ofNumber 1])).1 =
        .ok ((Path.ofText "/d").join ⟨(Draw.ofNumber 1).name⟩) := by
      decide +kernel
    -- one of the two octets is written, then the medium fails
    have hcut : ∀ t file, ∃ aborted u,
        (fillAndSettle file (Path.ofText "/d/new") [1, 2]).MayEnd t (.error aborted) u :=
      fun t file => ⟨_, _, Script.mayEnd_perform_bind_iff.mpr
        ⟨_, _, .cutShort (show [1] <+: [1, 2] by decide) .inputOutput,
          Script.mayEnd_perform_bind_iff.mpr ⟨_, _, .taken _, .done⟩⟩⟩
    have hend : ∃ aborted u, (newFile (Path.ofText "/d/new") [1, 2] [Draw.ofNumber 1]).MayEnd
        treeWithLink (.error aborted) u := by
      obtain ⟨aborted, u, hrest⟩ := hcut _ _
      simp only [newFile, hparent, Script.mayEnd_perform_bind_iff]
      refine ⟨aborted, u, _, _, .taken _, ?_⟩
      rw [hcreate]
      exact hrest
    obtain ⟨aborted, u, hend⟩ := hend
    exact ⟨aborted, u, hend, newFile_all_or_nothing hend⟩

end PartitionUnits
