import PartitionUnits.Proofs.FileSystem.Script
import PartitionUnits.Submission

/-!
# What was made, and removing it again

The artifacts of a submission as a journal of a tree, and what rolling the journal back comes to.

## Main Definitions

* `Made` — an artifact and the entry that it stands for
* `Journal` — the artifacts, the latest first, that lead from one tree to another
* `rollBack_of_journal` — rolling back gives the tree back
* `Leftover` — what a temporary file can keep a roll back from removing

## Design Notes

Rolling back takes the journal entry by entry, so every proof here is an induction on `Journal`.
The case that needs care is a temporary file that still lies around.  In a directory that was there
before it is in nobody's way.  In a directory of the journal it keeps that directory from being
removed, and with it every directory above.
-/

namespace PartitionUnits

open PartitionUnits.Tree

variable {t u v : Tree} {a : Artifact} {made added : List Artifact} {d l q : Location} {name : Name}
  {e f : Entry}

/-- What an artifact can stand for: a file or a link under a path that asks for no directory, or a
new directory. -/
def Artifact.Fits : Artifact → Entry → Prop
  | .file p, e => p.asksForDirectory = false ∧ e.isDirectory = false
  | .directory _, e => e = .directory directoryMode

/-- **An artifact was made**: its path names an entry of a directory that had no such entry. -/
structure Made (t : Tree) (a : Artifact) (d : Location) (name : Name) (e : Entry) : Prop where
  inDirectory : t.InDirectory a.path d name
  vacant : t.entry? (d ++ [name]) = none
  fits : a.Fits e

/-- **The artifacts that lead from one tree to another**, the latest first. -/
inductive Journal (t : Tree) : List Artifact → Tree → Prop where
  | nil : Journal t [] t
  | cons {made : List Artifact} {u : Tree} {a : Artifact} {d : Location} {name : Name} {e : Entry}
      (earlier : Journal t made u) (latest : Made u a d name e) :
      Journal t (a :: made) (u.insert (d ++ [name]) e)

namespace Journal

/-- What was made stands beside what was there. -/
theorem le (h : Journal t made u) : t ≤ u := by
  induction h with
  | nil => exact le_refl t
  | cons _ latest ih => exact le_trans ih (le_insert latest.vacant)

theorem wellFormed (h : Journal t made u) (hwf : t.WellFormed) : u.WellFormed := by
  induction h with
  | nil => exact hwf
  | cons _ latest ih => exact ih.insert latest.inDirectory.isDirectoryAt latest.vacant

/-- What is new is a directory, or where the path of a file or a link of the journal leads. -/
theorem new (h : Journal t made u) (hentry : u.entry? l = some e) :
    t.entry? l = some e ∨ e = .directory directoryMode ∨
      ∃ p, .file p ∈ made ∧ u.locate false p = .ok l := by
  induction h with
  | nil => exact Or.inl hentry
  | @cons made u a d name e' earlier latest ih =>
      rcases entry?_insert_eq_some (by simp) hentry with ⟨rfl, rfl⟩ | ⟨-, hold⟩
      · cases a with
        | file p =>
            have hin := latest.inDirectory.insert latest.vacant e
            have hlocate := (hin.locate_iff latest.fits.1).mpr ⟨rfl, _, hentry⟩
            exact Or.inr (Or.inr ⟨p, List.mem_cons_self, hlocate⟩)
        | directory p => exact Or.inr (Or.inl latest.fits)
      · rcases ih hold with hthere | hdirectory | ⟨p, hp, hl⟩
        · exact Or.inl hthere
        · exact Or.inr (Or.inl hdirectory)
        · exact Or.inr (Or.inr ⟨p, List.mem_cons_of_mem _ hp,
            locate_of_le (le_insert latest.vacant) hl⟩)

/-- Journals that follow each other are one journal. -/
theorem append (h : Journal t made u) (h' : Journal u added v) : Journal t (added ++ made) v := by
  induction h' with
  | nil => exact h
  | cons _ latest ih => exact ih.cons latest

end Journal

/-! ## Removing one artifact -/

namespace Made

/-- An artifact can be removed from every tree that still has it and nothing in it. -/
theorem apply_removal (h : Made u a d name e) (hle : u.insert (d ++ [name]) e ≤ v)
    (hempty : e.isDirectory = true → v.names (d ++ [name]) = []) :
    v.apply a.removal = (.ok a.path, v.erase (d ++ [name])) := by
  have hin : v.InDirectory a.path d name :=
    h.inDirectory.of_keepsWays (.of_le (le_trans (le_insert h.vacant) hle))
  have hentry : v.entry? (d ++ [name]) = some e := entry?_of_le hle (entry?_insert_self (by simp))
  cases a with
  | file p =>
      obtain ⟨hasks, he⟩ := h.fits
      exact hin.apply_removeFile hasks hentry he
  | directory p =>
      have he : e = .directory directoryMode := h.fits
      subst he
      have hattempt := hin.attempt_removeDirectory hentry
      rw [if_pos (hempty rfl)] at hattempt
      exact apply_eq_of_attempt_ok hattempt

/-- A directory with something in it stays. -/
theorem apply_removal_of_names (h : Made u a d name e) (hle : u.insert (d ++ [name]) e ≤ v)
    (he : e.isDirectory = true) (hnames : v.names (d ++ [name]) ≠ []) :
    v.apply a.removal = (.error .notEmpty, v) := by
  have hin : v.InDirectory a.path d name :=
    h.inDirectory.of_keepsWays (.of_le (le_trans (le_insert h.vacant) hle))
  have hentry : v.entry? (d ++ [name]) = some e := entry?_of_le hle (entry?_insert_self (by simp))
  cases a with
  | file p =>
      rw [h.fits.2] at he
      cases he
  | directory p =>
      have hdirectory : e = .directory directoryMode := h.fits
      subst hdirectory
      have hattempt := hin.attempt_removeDirectory hentry
      rw [if_neg hnames] at hattempt
      exact apply_eq_of_attempt_error hattempt

end Made

theorem run_rollBack_cons_of_ok {p : Path} (h : v.apply a.removal = (.ok p, u)) :
    (rollBack (a :: made)).run v = (rollBack made).run u := by
  rw [rollBack, Script.run_perform_bind, h]

/-- Whether an artifact could be removed or not, the earlier ones are next. -/
theorem run_rollBack_cons (a : Artifact) (made : List Artifact) (v : Tree) :
    ((rollBack (a :: made)).run v).2 = ((rollBack made).run (v.apply a.removal).2).2 := by
  rw [rollBack, Script.run_perform_bind]
  cases (v.apply a.removal).1 with
  | ok p => rfl
  | error err => exact Script.run_bind_pure fun events => ⟨_, rfl⟩

theorem mem_states_rollBack_cons {w : Tree} : w ∈ (rollBack (a :: made)).states v ↔
    w = v ∨ w ∈ (rollBack made).states (v.apply a.removal).2 := by
  rw [rollBack, Script.mem_states_perform_bind]
  refine or_congr_right ?_
  cases (v.apply a.removal).1 with
  | ok p => rfl
  | error err => exact Script.states_bind_pure fun events => ⟨_, rfl⟩

/-! ## Rolling back -/

/-- What was made last can be removed, which gives back the tree before it. -/
theorem Made.apply_removal_latest (h : Made u a d name e) (hwf : u.WellFormed) :
    (u.insert (d ++ [name]) e).apply a.removal = (.ok a.path, u) := by
  have hempty : e.isDirectory = true → (u.insert (d ++ [name]) e).names (d ++ [name]) = [] := by
    intro _
    refine names_eq_nil_iff.mpr fun name' => ?_
    rw [entry?_insert_of_ne (by simp)]
    exact hwf.vacant_below h.vacant name'
  rw [h.apply_removal (le_refl _) hempty, erase_insert_of_vacant h.vacant]

/-- **Rolling back a journal gives back the tree**, and nothing is reported. -/
theorem rollBack_of_journal (hwf : t.WellFormed) (h : Journal t made u) :
    (rollBack made).run u = ([], t) := by
  induction h with
  | nil => rfl
  | cons earlier latest ih =>
      rw [run_rollBack_cons_of_ok (latest.apply_removal_latest (earlier.wellFormed hwf))]
      exact ih

/-- **Rolling back goes through the journal backwards**: as long as it is busy with what was made
later, everything that was made before is there. -/
theorem rollBack_append_states {w : Tree} (hwf : t.WellFormed) (h : Journal t made u)
    (hw : w ∈ (rollBack (made ++ added)).states u) :
    t ≤ w ∨ w ∈ (rollBack added).states t := by
  induction h with
  | nil => exact Or.inr hw
  | @cons made u a d name e earlier latest ih =>
      rw [List.cons_append, mem_states_rollBack_cons,
        latest.apply_removal_latest (earlier.wellFormed hwf)] at hw
      rcases hw with rfl | hrest
      · exact Or.inl (earlier.cons latest).le
      · exact ih hrest

/-- While a journal is rolled back, an earlier part of it stands. -/
theorem rollBack_journal_states {w : Tree} (hwf : t.WellFormed) (h : Journal t made u)
    (hw : w ∈ (rollBack made).states u) : ∃ kept, kept <:+ made ∧ Journal t kept w ∧ w ≤ u := by
  induction h with
  | nil =>
      rw [List.mem_singleton.mp hw]
      exact ⟨[], List.suffix_refl _, .nil, le_refl t⟩
  | @cons made u a d name e earlier latest ih =>
      rw [mem_states_rollBack_cons, latest.apply_removal_latest (earlier.wellFormed hwf)] at hw
      rcases hw with rfl | hrest
      · exact ⟨_, List.suffix_refl _, earlier.cons latest, le_refl _⟩
      · obtain ⟨kept, hsuffix, hkept, hle⟩ := ih hrest
        exact ⟨kept, hsuffix.trans (List.suffix_cons _ _), hkept,
          le_trans hle (le_insert latest.vacant)⟩

/-- **A file beside the journal is in nobody's way** if its directory was there before. -/
theorem rollBack_beside {name' : Name} (hwf : t.WellFormed) (h : Journal t made u)
    (hq : u.entry? (q ++ [name']) = none) (hdir : t.isDirectoryAt q = true) :
    (rollBack made).run (u.insert (q ++ [name']) f) = ([], t.insert (q ++ [name']) f) := by
  induction h with
  | nil => rfl
  | @cons made u a d name e earlier latest ih =>
      have hne : q ++ [name'] ≠ d ++ [name] := (ne_of_vacant (entry?_insert_self (by simp)) hq).symm
      rw [entry?_insert_of_ne hne] at hq
      -- The file's directory is older than the artifact, so the file does not lie in it.
      have hqd : q ≠ d ++ [name] := by
        rintro rfl
        have hdirectory := isDirectoryAt_of_le earlier.le hdir
        rw [isDirectoryAt, latest.vacant] at hdirectory
        cases hdirectory
      have hvacant : u.entry? (d ++ [name]) = none := latest.vacant
      have hle : u.insert (d ++ [name]) e ≤ (u.insert (d ++ [name]) e).insert (q ++ [name']) f :=
        le_insert (by rw [entry?_insert_of_ne hne, hq])
      have hempty : e.isDirectory = true →
          ((u.insert (d ++ [name]) e).insert (q ++ [name']) f).names (d ++ [name]) = [] := by
        intro _
        refine names_eq_nil_iff.mpr fun below => ?_
        have hbelow : d ++ [name] ++ [below] ≠ q ++ [name'] := by
          intro heq
          exact hqd (List.append_inj' heq rfl).1.symm
        rw [entry?_insert_of_ne hbelow, entry?_insert_of_ne (by simp)]
        exact (earlier.wellFormed hwf).vacant_below hvacant below
      rw [run_rollBack_cons_of_ok (latest.apply_removal hle hempty),
        erase_insert_insert hvacant hne]
      exact ih hq

/-- Removing an artifact adds nothing. -/
theorem apply_removal_le (v : Tree) (a : Artifact) : (v.apply a.removal).2 ≤ v := by
  have heffect := v.apply_effect a.removal
  generalize (v.apply a.removal).2 = v' at heffect ⊢
  cases a with
  | file p =>
      cases heffect with
      | nothing => exact le_refl v
      | fileRemoved => exact erase_le
  | directory p =>
      cases heffect with
      | nothing => exact le_refl v
      | directoryRemoved => exact erase_le

/-- Rolling back only removes. -/
theorem rollBack_states_le (made : List Artifact) : ∀ w ∈ (rollBack made).states v, w ≤ v := by
  induction made generalizing v with
  | nil =>
      intro w hw
      rw [List.mem_singleton.mp hw]
  | cons a earlier ih =>
      intro w hw
      rcases mem_states_rollBack_cons.mp hw with rfl | hrest
      · exact le_refl w
      · exact le_trans (ih w hrest) (apply_removal_le v a)

theorem rollBack_le (made : List Artifact) : ((rollBack made).run v).2 ≤ v :=
  rollBack_states_le made _ (Script.run_mem_states _)

/-! ## What a stray file keeps -/

/-- **A tree with a stray file and what that keeps from being removed**: everything of `t`, the
file `f` at `q`, and new directories. -/
structure Leftover (t : Tree) (q : Location) (f : Entry) (v : Tree) : Prop where
  le : t ≤ v
  stray : v.entry? q = some f
  rest : ∀ l e, v.entry? l = some e →
    t.entry? l = some e ∨ l = q ∧ e = f ∨ e = .directory directoryMode ∧ t.entry? l = none

namespace Leftover

theorem of_insert (hq : q ≠ []) (hvacant : t.entry? q = none) : Leftover t q f (t.insert q f) where
  le := le_insert hvacant
  stray := entry?_insert_self hq
  rest := by
    intro l e hentry
    rcases entry?_insert_eq_some hq hentry with hnew | ⟨-, hold⟩
    · exact Or.inr (Or.inl hnew)
    · exact Or.inl hold

/-- An artifact that was removed is not left over. -/
theorem erase (h : Leftover (u.insert l e) q f v) (hvacant : u.entry? l = none) (hq : q ≠ l) :
    Leftover u q f (v.erase l) where
  le := le_erase_of_le (le_trans (le_insert hvacant) h.le) hvacant
  stray := by
    rw [entry?_erase_of_ne hq]
    exact h.stray
  rest := by
    intro l' e' hentry
    have hl : l ≠ [] := ne_nil_of_entry?_eq_none hvacant
    have hne : l' ≠ l := ne_of_vacant hentry (entry?_erase_self hl)
    rw [entry?_erase_of_ne hne] at hentry
    have hrest := h.rest l' e' hentry
    rwa [entry?_insert_of_ne hne] at hrest

/-- A directory that could not be removed is left over. -/
theorem keep (h : Leftover (u.insert l (.directory directoryMode)) q f v)
    (hvacant : u.entry? l = none) : Leftover u q f v where
  le := le_trans (le_insert hvacant) h.le
  stray := h.stray
  rest := by
    intro l' e' hentry
    have hl : l ≠ [] := ne_nil_of_entry?_eq_none hvacant
    rcases h.rest l' e' hentry with hold | hstray | ⟨hdirectory, hnone⟩
    · rcases entry?_insert_eq_some hl hold with ⟨rfl, rfl⟩ | ⟨-, holder⟩
      · exact Or.inr (Or.inr ⟨rfl, hvacant⟩)
      · exact Or.inl holder
    · exact Or.inr (Or.inl hstray)
    · exact Or.inr (Or.inr ⟨hdirectory, entry?_eq_none_of_le (le_insert hvacant) hnone⟩)

/-- Removing the latest artifact, or not being able to, leaves what is left over from before it. -/
theorem apply_removal (h : Leftover (u.insert (d ++ [name]) e) q f v) (latest : Made u a d name e)
    (hq : q ≠ d ++ [name]) : Leftover u q f (v.apply a.removal).2 := by
  by_cases hstuck : e.isDirectory = true ∧ v.names (d ++ [name]) ≠ []
  · rw [latest.apply_removal_of_names h.le hstuck.1 hstuck.2]
    have he : e = .directory directoryMode := by
      have hfits := latest.fits
      cases a with
      | file p =>
          rw [hfits.2] at hstuck
          cases hstuck.1
      | directory p => exact hfits
    rw [he] at h
    exact h.keep latest.vacant
  · have hempty : e.isDirectory = true → v.names (d ++ [name]) = [] := by
      intro he
      by_contra hnames
      exact hstuck ⟨he, hnames⟩
    rw [latest.apply_removal h.le hempty]
    exact h.erase latest.vacant hq

end Leftover

/-- **While a journal is rolled back with a stray file around**, an earlier part of it stands, and
beside that there is only what is left over. -/
theorem rollBack_leftover_states {w : Tree} (h : Journal t made u) (hq : u.entry? q = none)
    (hv : Leftover u q f v) (hw : w ∈ (rollBack made).states v) :
    ∃ kept u', kept <:+ made ∧ Journal t kept u' ∧ u' ≤ u ∧ Leftover u' q f w := by
  induction h generalizing v with
  | nil =>
      rw [List.mem_singleton.mp hw]
      exact ⟨[], t, List.suffix_refl _, .nil, le_refl t, hv⟩
  | @cons made u a d name e earlier latest ih =>
      have hne : q ≠ d ++ [name] := (ne_of_vacant (entry?_insert_self (by simp)) hq).symm
      rw [entry?_insert_of_ne hne] at hq
      rcases mem_states_rollBack_cons.mp hw with rfl | hrest
      · -- Nothing has been removed yet.
        exact ⟨_, _, List.suffix_refl _, earlier.cons latest, le_refl _, hv⟩
      · obtain ⟨kept, u', hsuffix, hkept, hle, hleft⟩ := ih hq (hv.apply_removal latest hne) hrest
        exact ⟨kept, u', hsuffix.trans (List.suffix_cons _ _), hkept,
          le_trans hle (le_insert latest.vacant), hleft⟩

/-- **Rolling back keeps what was there before and removes everything else that it can**: files and
links all go, directories only if the stray file is not in the way. -/
theorem rollBack_leftover (h : Journal t made u) (hq : u.entry? q = none)
    (hv : Leftover u q f v) : Leftover t q f ((rollBack made).run v).2 := by
  induction h generalizing v with
  | nil => exact hv
  | @cons made u a d name e earlier latest ih =>
      have hne : q ≠ d ++ [name] := (ne_of_vacant (entry?_insert_self (by simp)) hq).symm
      rw [entry?_insert_of_ne hne] at hq
      rw [run_rollBack_cons]
      exact ih hq (hv.apply_removal latest hne)

/-- What is left after a roll back with a temporary file around. -/
theorem stray_leftover {draw : Draw} (h : Journal t made u)
    (hvacant : u.entry? (q ++ [draw.name]) = none) :
    Leftover t (q ++ [draw.name]) f ((rollBack made).run (u.insert (q ++ [draw.name]) f)).2 :=
  rollBack_leftover h hvacant (.of_insert (by simp) hvacant)

end PartitionUnits
