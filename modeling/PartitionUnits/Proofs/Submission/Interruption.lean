import PartitionUnits.Proofs.Submission.Footprint

/-!
# Interrupted submissions

What a submission leaves if it is cut between any two of its steps.

## Main Definitions

* `perform_states` — the trees while one action is done
* `Interrupted` — where a submission can be cut, with what was done by then
* `Accounts` — everything that is new comes from an action
* `Interrupted.accounts` — that holds wherever a submission is cut
* `submit_states` — and so a link is never there without its files, nor a file that is incomplete

## Design Notes

`Accounts` says of an entry that it is at the path of the action that it comes from.  That path may
lead through what other actions have made, so removing something can break it, and a roll back needs
an argument of its own: at every step of it some earlier part of the journal stands.

The other half is that links come last and go first.  A submission that is cut among the links has
all files, since the roll back comes to them only when the links are gone.
-/

namespace PartitionUnits

open PartitionUnits.Tree

variable {t u v w : Tree} {a : Action} {acts before after rest : List Action}
  {made added : List Artifact} {aborted : Aborted}

/-! ## One action -/

/-- **While one action is done** there is nothing new but a temporary file, until it is done or has
failed. -/
theorem perform_states (hu : u ∈ a.perform.states t) :
    u = t ∨ u = (a.perform.run t).2 ∨
      ∃ p content draws, a = .makeFile p content draws ∧ ∃ draw ∈ draws, ∃ d mode c,
        t.entry? (d ++ [draw.name]) = none ∧ u = t.insert (d ++ [draw.name]) (.file mode c) := by
  cases a with
  | makeFile p content draws =>
      rw [Action.perform] at hu ⊢
      have hstates := (Script.states_bind_pure fun ending => by
        cases ending <;> exact ⟨_, rfl⟩).mp hu
      rw [Script.run_bind_pure fun ending => by cases ending <;> exact ⟨_, rfl⟩]
      rcases newFile_states hstates with rfl | ⟨draw, hdraw, d, mode, c, hvacant, rfl⟩ | rfl
      · exact Or.inl rfl
      · exact Or.inr (Or.inr ⟨p, content, draws, rfl, draw, hdraw, d, mode, c, hvacant, rfl⟩)
      · exact Or.inr (Or.inl rfl)
  | ensureDirectory p =>
      rw [Action.perform, Script.mem_states_perform_bind] at hu
      rw [Action.perform, Script.run_perform_bind]
      rcases hu with rfl | hu
      · exact Or.inl rfl
      rcases t.apply_cases (c := .makeDirectory p) rfl with ⟨err, -, happly⟩ | ⟨final, -, happly⟩
      · -- Nothing was made, and looking at what is there makes nothing either.
        have hself : u = t := by
          rw [happly] at hu
          simp only at hu
          split at hu
          · rw [Script.mem_states_perform_bind, apply_checkDirectory] at hu
            rcases hu with rfl | hu
            · rfl
            · split at hu <;> exact List.mem_singleton.mp hu
          · exact List.mem_singleton.mp hu
        exact Or.inl hself
      · rw [happly] at hu ⊢
        exact Or.inr (Or.inl (List.mem_singleton.mp hu))
  | makeLink target link =>
      rw [Action.perform, Script.mem_states_perform_bind] at hu
      rw [Action.perform, Script.run_perform_bind]
      rcases hu with rfl | hu
      · exact Or.inl rfl
      rcases t.apply_cases (c := .makeLink target link) rfl with
        ⟨err, -, happly⟩ | ⟨final, -, happly⟩
      · rw [happly] at hu
        exact Or.inl (List.mem_singleton.mp hu)
      · rw [happly] at hu ⊢
        exact Or.inr (Or.inl (List.mem_singleton.mp hu))
  | refuse edge => exact Or.inl (List.mem_singleton.mp hu)

/-! ## Where a submission can be cut -/

/-- **Where a list of actions can be cut**, given what was made before: in an action, in the roll
back after one that failed, when that one's temporary file has been let go, or at the end. -/
inductive Interrupted (t : Tree) (made : List Artifact) (acts : List Action) : Tree → Prop where
  | amid {before after : List Action} {a : Action} {added : List Artifact} {u v : Tree}
      (hacts : acts = before ++ a :: after) (hbefore : Performs t before added u)
      (hv : v ∈ a.perform.states u) : Interrupted t made acts v
  | undoing {before after : List Action} {a : Action} {added : List Artifact} {u v w : Tree}
      {aborted : Aborted} (hacts : acts = before ++ a :: after)
      (hbefore : Performs t before added u) (hfailed : Failed u a aborted v)
      (hw : w ∈ (rollBack (added ++ made)).states v) :
      Interrupted t made acts w
  | released {before after : List Action} {a : Action} {added : List Artifact} {u v w : Tree}
      {aborted : Aborted} {file : Path} (hacts : acts = before ++ a :: after)
      (hbefore : Performs t before added u) (hfailed : Failed u a aborted v)
      (howned : aborted.temporary = some file)
      (hw : w ≤ ((rollBack (added ++ made)).run v).2) : Interrupted t made acts w
  | finished {added : List Artifact} {u : Tree} (h : Performs t acts added u) :
      Interrupted t made acts u

theorem Interrupted.cons {artifact? : Option Artifact}
    (first : Performed t a artifact? u) (h : Interrupted u (artifact?.toList ++ made) rest w) :
    Interrupted t made (a :: rest) w := by
  cases h with
  | amid hacts hbefore hv => exact .amid (by rw [hacts, List.cons_append]) (.cons first hbefore) hv
  | undoing hacts hbefore hfailed hw =>
      rw [← List.append_assoc] at hw
      exact .undoing (by rw [hacts, List.cons_append]) (.cons first hbefore) hfailed hw
  | released hacts hbefore hfailed howned hw =>
      rw [← List.append_assoc] at hw
      exact .released (by rw [hacts, List.cons_append]) (.cons first hbefore) hfailed howned hw
  | finished h => exact .finished (.cons first h)

/-- **There is nowhere else** to cut a list of actions. -/
theorem applyActions_states (hu : u ∈ (applyActions made acts).states t) :
    Interrupted t made acts u := by
  induction acts generalizing t made with
  | nil =>
      rw [List.mem_singleton.mp hu]
      exact .finished .nil
  | cons a rest ih =>
      rw [applyActions, Script.mem_states_bind] at hu
      rcases hu with hu | hu
      · exact .amid (List.nil_append _).symm .nil hu
      generalize hperform : a.perform.run t = ended at hu
      obtain ⟨ending, v⟩ := ended
      rcases perform_outcome hperform with ⟨artifact?, rfl, hdone⟩ | ⟨aborted, rfl, hfailed⟩
      · exact .cons hdone (ih hu)
      · have hundo := (Script.states_bind_pure fun events => ⟨_, rfl⟩).mp hu
        exact .undoing (List.nil_append _).symm .nil hfailed hundo

/-- A submission is cut before its actions or while they are done. -/
theorem submit_states_cases {d : Destination} {plan : Plan} (hu : u ∈ (d.submit plan).states t) :
    u = t ∨ ∃ rendered, (d.render plan.units).run.value = .ok rendered ∧
      Interrupted t [] (d.actions rendered plan.dropIns) u := by
  unfold Destination.submit at hu
  simp only at hu
  cases hrender : (d.render plan.units).run.value with
  | error f =>
      rw [hrender] at hu
      exact Or.inl (List.mem_singleton.mp hu)
  | ok rendered =>
      rw [hrender] at hu
      refine Or.inr ⟨rendered, rfl, ?_⟩
      simp only [Script.mem_states_bind] at hu
      rcases hu with hu | hu
      · exact applyActions_states hu
      generalize happly : (applyActions [] (d.actions rendered plan.dropIns)).run t = applied at hu
      obtain ⟨⟨value, events⟩, w⟩ := applied
      cases applyActions_outcome happly with
      | done h =>
          rw [List.mem_singleton.mp hu]
          exact .finished h
      | @rolledBack before after a added v v' aborted hacts hbefore hfailed =>
          have hrelease := (Script.states_bind_pure fun _ => ⟨_, rfl⟩).mp hu
          rw [Aborted.release] at hrelease
          cases howned : aborted.temporary with
          | none =>
              rw [howned] at hrelease
              rw [List.mem_singleton.mp hrelease]
              exact .undoing hacts hbefore hfailed (Script.run_mem_states _)
          | some file =>
              rw [howned] at hrelease
              have hsteps := (Script.states_bind_pure fun _ => ⟨_, rfl⟩).mp hrelease
              rw [Script.states_perform, List.mem_cons, List.mem_singleton] at hsteps
              rcases hsteps with rfl | rfl
              · exact .undoing hacts hbefore hfailed (Script.run_mem_states _)
              · exact .released hacts hbefore hfailed howned (apply_removal_le _ (.file file))

/-! ## What is new -/

/-- **Where an entry that is new comes from**: an action made it, and the action's path leads there;
or it is a directory; or it is a temporary file. -/
inductive ComesFrom (acts : List Action) (u : Tree) (l : Location) (e : Entry) : Prop where
  | made {p : Path} (hmem : (p, e) ∈ acts.filterMap Action.entry?)
      (hl : u.locate false p = .ok l) : ComesFrom acts u l e
  | directory (he : e = .directory directoryMode) : ComesFrom acts u l e
  | temporary {p : Path} {content : String} {draws : List Draw} {draw : Draw} {mode : Nat}
      {c : Content} (hmem : .makeFile p content draws ∈ acts) (hdraw : draw ∈ draws)
      (hl : l.getLast? = some draw.name) (he : e = .file mode c) : ComesFrom acts u l e

namespace ComesFrom

variable {acts' : List Action} {l : Location} {e : Entry}

theorem mono (h : ComesFrom acts u l e) (hsub : acts ⊆ acts') : ComesFrom acts' u l e := by
  cases h with
  | made hmem hl =>
      obtain ⟨a, ha, hentry⟩ := List.mem_filterMap.mp hmem
      exact .made (List.mem_filterMap.mpr ⟨a, hsub ha, hentry⟩) hl
  | directory he => exact .directory he
  | temporary hmem hdraw hl he => exact .temporary (hsub hmem) hdraw hl he

theorem of_le (h : ComesFrom acts u l e) (hle : u ≤ v) : ComesFrom acts v l e := by
  cases h with
  | made hmem hl => exact .made hmem (locate_of_le hle hl)
  | directory he => exact .directory he
  | temporary hmem hdraw hl he => exact .temporary hmem hdraw hl he

end ComesFrom

/-- Everything in a tree was there before or comes from an action. -/
def Accounts (t : Tree) (acts : List Action) (u : Tree) : Prop :=
  ∀ l e, u.entry? l = some e → t.entry? l = some e ∨ ComesFrom acts u l e

/-- A file or a link among the artifacts is what one of the actions was for. -/
theorem Performs.entry_of_mem {p : Path} (h : Performs t acts made u) (hp : .file p ∈ made) :
    ∃ e, (p, e) ∈ acts.filterMap Action.entry? := by
  induction h with
  | nil => cases hp
  | @cons t u v a rest artifact? later first _ ih =>
      rcases List.mem_append.mp hp with hlater | hfirst
      · obtain ⟨e, he⟩ := ih hlater
        obtain ⟨b, hb, hentry⟩ := List.mem_filterMap.mp he
        exact ⟨e, List.mem_filterMap.mpr ⟨b, List.mem_cons_of_mem _ hb, hentry⟩⟩
      · cases first with
        | @made artifact d name e hproduct _ =>
            obtain rfl := List.mem_singleton.mp hfirst
            have hentry : a.entry? = some (p, e) := by simp only [Action.entry?, hproduct]
            exact ⟨e, List.mem_filterMap.mpr ⟨a, List.mem_cons_self, hentry⟩⟩
        | there => cases hfirst

namespace Accounts

variable {acts' : List Action} {d : Location} {draw : Draw} {draws : List Draw} {p : Path}
  {content : String} {mode : Nat} {c : Content}

theorem mono (h : Accounts t acts u) (hsub : acts ⊆ acts') : Accounts t acts' u :=
  fun l e hentry => (h l e hentry).imp_right fun hfrom => hfrom.mono hsub

theorem of_performs (h : Performs t acts made u) : Accounts t acts u := by
  intro l e hentry
  rcases h.extends.new l e hentry with hold | ⟨p, hp, hl⟩ | ⟨-, he, -⟩
  · exact Or.inl hold
  · exact Or.inr (.made hp hl)
  · exact Or.inr (.directory he)

theorem insert (h : Accounts t acts u) (hmem : .makeFile p content draws ∈ acts)
    (hdraw : draw ∈ draws) (hvacant : u.entry? (d ++ [draw.name]) = none) :
    Accounts t acts (u.insert (d ++ [draw.name]) (.file mode c)) := by
  intro l e hentry
  rcases entry?_insert_eq_some (by simp) hentry with ⟨rfl, rfl⟩ | ⟨-, hold⟩
  · exact Or.inr (.temporary hmem hdraw List.getLast?_concat rfl)
  · exact (h l e hold).imp_right fun hfrom => hfrom.of_le (le_insert hvacant)

theorem of_failed (h : Accounts t acts u) (ha : a ∈ acts) (hfailed : Failed u a aborted v) :
    Accounts t acts v := by
  cases hfailed with
  | refused => exact h
  | stray hfile _ hstray =>
      rw [hfile] at ha
      exact h.insert ha hstray.mem_draws hstray.vacant

/-- Every earlier part of what a list of actions has made is accounted for. -/
theorem of_journal {kept : List Artifact} (h : Performs t acts made u) (hkept : kept <:+ made)
    (hjournal : Journal t kept w) (hle : w ≤ u) : Accounts t acts w := by
  intro l e hentry
  rcases hjournal.new hentry with hold | hdirectory | ⟨p, hp, hl⟩
  · exact Or.inl hold
  · exact Or.inr (.directory hdirectory)
  · obtain ⟨e', he'⟩ := h.entry_of_mem (hkept.subset hp)
    -- The path leads to the same entry once everything has been made, so it is the action's.
    have hfind : u.find false p = .ok e := find_of_le hle (find_eq_ok_iff.mpr ⟨l, hl, hentry⟩)
    have heq : e' = e := Except.ok.inj ((h.extends.found _ he').symm.trans hfind)
    rw [heq] at he'
    exact Or.inr (.made he' hl)

/-- What is left over beside something that is accounted for. -/
theorem of_leftover (h : Accounts t acts u)
    (hleft : Leftover u (d ++ [draw.name]) (.file mode c) v)
    (hmem : .makeFile p content draws ∈ acts) (hdraw : draw ∈ draws) : Accounts t acts v := by
  intro l e hentry
  rcases hleft.rest l e hentry with hold | ⟨rfl, rfl⟩ | ⟨hdirectory, -⟩
  · exact (h l e hold).imp_right fun hfrom => hfrom.of_le hleft.le
  · exact Or.inr (.temporary hmem hdraw List.getLast?_concat rfl)
  · exact Or.inr (.directory hdirectory)

end Accounts

/-- **Wherever a list of actions is cut, everything that is new comes from an action**, and what is
not temporary is where the action's path leads. -/
theorem Interrupted.accounts (hwf : t.WellFormed) (h : Interrupted t [] acts w) :
    Accounts t acts w := by
  cases h with
  | @amid before after a added u v hacts hbefore hv =>
      subst hacts
      have hu := (Accounts.of_performs hbefore).mono (List.subset_append_left _ (a :: after))
      have ha : a ∈ before ++ a :: after := List.mem_append_right _ List.mem_cons_self
      rcases perform_states hv with
        rfl | rfl | ⟨p, content, draws, rfl, draw, hdraw, d, mode, c, hvacant, rfl⟩
      · exact hu
      · generalize hperform : a.perform.run u = ended
        obtain ⟨ending, final⟩ := ended
        rcases perform_outcome hperform with ⟨artifact?, -, hdone⟩ | ⟨aborted, -, hfailed⟩
        · -- The action has just been done, so it belongs to what was done before.
          have hboth := hbefore.append (.cons hdone .nil)
          rw [List.append_cons]
          exact (Accounts.of_performs hboth).mono (List.subset_append_left _ _)
        · exact hu.of_failed ha hfailed
      · exact hu.insert ha hdraw hvacant
  | @undoing before after a added u v w aborted hacts hbefore hfailed hw =>
      subst hacts
      have hsub : before ⊆ before ++ a :: after := List.subset_append_left _ _
      have ha : a ∈ before ++ a :: after := List.mem_append_right _ List.mem_cons_self
      rw [List.append_nil] at hw
      cases hfailed with
      | refused =>
          obtain ⟨kept, hkept, hjournal, hle⟩ := rollBack_journal_states hwf hbefore.journal hw
          exact (Accounts.of_journal hbefore hkept hjournal hle).mono hsub
      | stray hfile _ hstray =>
          obtain ⟨kept, u', hkept, hjournal, hle, hleft⟩ := rollBack_leftover_states
            hbefore.journal hstray.vacant (.of_insert (by simp) hstray.vacant) hw
          subst hfile
          have hu' := (Accounts.of_journal hbefore hkept hjournal hle).mono hsub
          exact hu'.of_leftover hleft ha hstray.mem_draws
  | @released before after a added u v w aborted file hacts hbefore hfailed howned hw =>
      subst hacts
      have ha : a ∈ before ++ a :: after := List.mem_append_right _ List.mem_cons_self
      rw [List.append_nil] at hw
      cases hfailed with
      | refused hnone =>
          rw [hnone] at howned
          cases howned
      | stray hfile _ hstray =>
          -- All that is left beside the temporary file is directories.
          intro l e hentry
          have hleft := hw l e hentry
          rcases (stray_leftover hbefore.journal hstray.vacant).rest l e hleft with
            hold | ⟨rfl, rfl⟩ | ⟨hdirectory, -⟩
          · exact Or.inl hold
          · subst hfile
            exact Or.inr (.temporary ha hstray.mem_draws List.getLast?_concat rfl)
          · exact Or.inr (.directory hdirectory)
  | finished hdone => exact .of_performs hdone

/-! ## Links come last and go first -/

/-- Where actions were done up to one of two lists, that one is in the first list, or all of the
first list was done. -/
theorem Performs.cut (hacts : before ++ after = acts ++ a :: rest) (h : Performs t acts added u) :
    (∃ others, before = acts ++ a :: others) ∨
      ∃ made v first later, Performs t before made v ∧ Performs v first later u ∧
        added = later ++ made ∧ after = first ++ a :: rest := by
  rcases List.append_eq_append_iff.mp hacts with ⟨first, hfirst, hafter⟩ | ⟨others, hothers, hcons⟩
  · rw [hfirst] at h
    obtain ⟨made, v, later, hmade, hlater, hadded⟩ := h.split
    exact Or.inr ⟨made, v, first, later, hmade, hlater, hadded, hafter⟩
  · cases others with
    | nil =>
        rw [List.append_nil] at hothers
        rw [← hothers] at h
        exact Or.inr ⟨added, u, [], [], h, .nil, rfl, hcons.symm⟩
    | cons b others =>
        obtain ⟨rfl, -⟩ := List.cons.inj hcons
        exact Or.inl ⟨others, hothers⟩

/-- A submission is cut while it makes its first actions or after they are all done. -/
theorem Interrupted.split (h : Interrupted t [] (before ++ after) w) :
    Interrupted t [] before w ∨
      ∃ made u, Performs t before made u ∧ Interrupted u made after w := by
  cases h with
  | amid hacts hbefore hv =>
      rcases hbefore.cut hacts with
        ⟨rest, hrest⟩ | ⟨made, middle, first, later, hmade, hlater, -, hafter⟩
      · exact Or.inl (.amid hrest hbefore hv)
      · exact Or.inr ⟨made, middle, hmade, .amid hafter hlater hv⟩
  | undoing hacts hbefore hfailed hw =>
      rcases hbefore.cut hacts with
        ⟨rest, hrest⟩ | ⟨made, middle, first, later, hmade, hlater, rfl, hafter⟩
      · exact Or.inl (.undoing hrest hbefore hfailed hw)
      · rw [List.append_nil] at hw
        exact Or.inr ⟨made, middle, hmade, .undoing hafter hlater hfailed hw⟩
  | released hacts hbefore hfailed howned hw =>
      rcases hbefore.cut hacts with
        ⟨rest, hrest⟩ | ⟨made, middle, first, later, hmade, hlater, rfl, hafter⟩
      · exact Or.inl (.released hrest hbefore hfailed howned hw)
      · rw [List.append_nil] at hw
        exact Or.inr ⟨made, middle, hmade, .released hafter hlater hfailed howned hw⟩
  | finished h =>
      obtain ⟨made, middle, later, hmade, hlater, -⟩ := h.split
      exact Or.inr ⟨made, middle, hmade, .finished hlater⟩

/-- Only an action that makes a file can fail and leave something. -/
theorem Failed.eq_of_makes_no_file (h : Failed u a aborted v)
    (ha : ∀ p content draws, a ≠ .makeFile p content draws) :
    v = u ∧ aborted.temporary = none := by
  cases h with
  | refused howned => exact ⟨rfl, howned⟩
  | stray hfile => exact absurd hfile (ha _ _ _)

/-- **Actions that make no files leave what was there, or are undone altogether**: until then, a
roll back has not come to anything else. -/
theorem Interrupted.le_or_mem (hwf : t.WellFormed) (h : Interrupted t made acts w)
    (hfiles : ∀ a ∈ acts, ∀ p content draws, a ≠ .makeFile p content draws) :
    t ≤ w ∨ w ∈ (rollBack made).states t := by
  cases h with
  | @amid before after a added u v hacts hbefore hv =>
      subst hacts
      have ha := hfiles a (List.mem_append_right _ List.mem_cons_self)
      refine Or.inl ?_
      rcases perform_states hv with rfl | rfl | ⟨p, content, draws, hfile, -⟩
      · exact hbefore.le
      · generalize hperform : a.perform.run u = ended
        obtain ⟨ending, final⟩ := ended
        rcases perform_outcome hperform with ⟨artifact?, -, hdone⟩ | ⟨aborted, -, hfailed⟩
        · exact le_trans hbefore.le hdone.journal.le
        · rw [(hfailed.eq_of_makes_no_file ha).1]
          exact hbefore.le
      · exact absurd hfile (ha p content draws)
  | @undoing before after a added u v w aborted hacts hbefore hfailed hw =>
      subst hacts
      have ha := hfiles a (List.mem_append_right _ List.mem_cons_self)
      rw [(hfailed.eq_of_makes_no_file ha).1] at hw
      exact rollBack_append_states hwf hbefore.journal hw
  | @released before after a added u v w aborted file hacts hbefore hfailed howned hw =>
      subst hacts
      have ha := hfiles a (List.mem_append_right _ List.mem_cons_self)
      rw [(hfailed.eq_of_makes_no_file ha).2] at howned
      cases howned
  | finished h => exact Or.inl h.le

/-! ## The actions of a plan -/

variable {d : Destination} {plan : Plan} {rendered : List Destination.Rendered}
  {dropIns : List DropIn}

/-- The actions that make the files of a plan. -/
def Destination.fileActions (d : Destination) (rendered : List Rendered) (dropIns : List DropIn) :
    List Action :=
  rendered.map d.unitFile ++ dropIns.flatMap d.dropInFile

theorem mem_withDirectory {p : Path} {b : Action} (h : b ∈ Destination.withDirectory p a) :
    b = a ∨ ∃ directory, b = .ensureDirectory directory := by
  rcases List.mem_append.mp h with h | h
  · obtain ⟨directory, -, rfl⟩ := List.mem_map.mp h
    exact Or.inr ⟨directory, rfl⟩
  · exact Or.inl (List.mem_singleton.mp h)

/-- The files of a plan come first, each with its own draws. -/
theorem mem_fileActions (h : a ∈ d.fileActions rendered dropIns) :
    (∃ directory, a = .ensureDirectory directory) ∨
      ∃ p content, (p, textFile content) ∈ d.fileEntries rendered dropIns ∧
        a = .makeFile p content (d.draws p) := by
  rcases List.mem_append.mp h with h | h
  · obtain ⟨r, hr, rfl⟩ := List.mem_map.mp h
    exact Or.inr ⟨_, _, List.mem_append_left _ (List.mem_map_of_mem hr), rfl⟩
  · obtain ⟨x, hx, ha⟩ := List.mem_flatMap.mp h
    rcases mem_withDirectory ha with rfl | hdirectory
    · exact Or.inr ⟨_, _, List.mem_append_right _ (List.mem_map_of_mem hx), rfl⟩
    · exact Or.inl hdirectory

/-- Every file of a plan has its action. -/
theorem exists_fileAction {x : Path × Entry} (hx : x ∈ d.fileEntries rendered dropIns) :
    x ∈ (d.fileActions rendered dropIns).filterMap Action.entry? := by
  rcases List.mem_append.mp hx with hx | hx
  · obtain ⟨r, hr, rfl⟩ := List.mem_map.mp hx
    exact List.mem_filterMap.mpr
      ⟨d.unitFile r, List.mem_append_left _ (List.mem_map_of_mem hr), rfl⟩
  · obtain ⟨y, hy, rfl⟩ := List.mem_map.mp hx
    refine List.mem_filterMap.mpr ⟨.makeFile (d.directory.join y.path) y.content
      (d.draws (d.directory.join y.path)), List.mem_append_right _ ?_, rfl⟩
    exact List.mem_flatMap.mpr ⟨y, hy, List.mem_append_right _ (List.mem_singleton.mpr rfl)⟩

/-- No file is among the links of a plan. -/
theorem mem_linkActions (h : a ∈ rendered.flatMap d.links) :
    (∃ directory, a = .ensureDirectory directory) ∨ (∃ target link, a = .makeLink target link) ∨
      ∃ edge, a = .refuse edge := by
  have hlink : ∀ {p target link : Path},
      a ∈ Destination.withDirectory p (.makeLink target link) →
      (∃ directory, a = .ensureDirectory directory) ∨ ∃ target link, a = .makeLink target link := by
    intro p target link ha
    rcases mem_withDirectory ha with rfl | hdirectory
    · exact Or.inr ⟨_, _, rfl⟩
    · exact Or.inl hdirectory
  obtain ⟨r, -, ha⟩ := List.mem_flatMap.mp h
  rcases List.mem_append.mp ha with ha | ha
  · obtain ⟨edge, -, ha⟩ := List.mem_flatMap.mp ha
    unfold Destination.edgeLink at ha
    split at ha
    · exact Or.inr (Or.inr ⟨edge, List.mem_singleton.mp ha⟩)
    · exact (hlink ha).imp_right Or.inl
  · split at ha
    · exact (hlink ha).imp_right Or.inl
    · cases ha

/-- No link of a plan makes a file. -/
theorem linkActions_make_no_file (h : a ∈ rendered.flatMap d.links) (p : Path) (content : String)
    (draws : List Draw) : a ≠ .makeFile p content draws := by
  rcases mem_linkActions h with ⟨directory, rfl⟩ | ⟨target, link, rfl⟩ | ⟨edge, rfl⟩
  · exact Action.noConfusion
  · exact Action.noConfusion
  · exact Action.noConfusion

namespace ComesFrom

variable {l : Location}

/-- No new link comes from the actions that make the files of a plan. -/
theorem not_link {o : Octets} : ¬ ComesFrom (d.fileActions rendered dropIns) u l (.link o) := by
  intro h
  cases h with
  | made hmem =>
      obtain ⟨a, ha, hentry⟩ := List.mem_filterMap.mp hmem
      rcases mem_fileActions ha with ⟨directory, rfl⟩ | ⟨p, content, -, rfl⟩
      · cases hentry
      · cases hentry
  | directory he => cases he
  | temporary _ _ _ he => cases he

/-- A new file comes from the actions of a plan as one of its files, or is temporary. -/
theorem file {mode : Nat} {content : Content}
    (h : ComesFrom (d.actions rendered dropIns) u l (.file mode content)) :
    (∃ y ∈ d.fileEntries rendered dropIns,
      u.locate false y.1 = .ok l ∧ .file mode content = y.2) ∨
    ∃ y ∈ d.fileEntries rendered dropIns, ∃ draw ∈ d.draws y.1, l.getLast? = some draw.name := by
  cases h with
  | @made p hmem hl =>
      obtain ⟨a, ha, hentry⟩ := List.mem_filterMap.mp hmem
      rcases List.mem_append.mp ha with ha | ha
      · rcases mem_fileActions ha with ⟨directory, rfl⟩ | ⟨p', content', hfile, rfl⟩
        · cases hentry
        · cases hentry
          exact Or.inl ⟨_, hfile, hl, rfl⟩
      · rcases mem_linkActions ha with ⟨directory, rfl⟩ | ⟨target, link, rfl⟩ | ⟨edge, rfl⟩
        · cases hentry
        · cases hentry
        · cases hentry
  | directory he => cases he
  | temporary hmem hdraw hl =>
      rcases List.mem_append.mp hmem with hmem | hmem
      · rcases mem_fileActions hmem with ⟨directory, hdirectory⟩ | ⟨p', content', hfile, heq⟩
        · cases hdirectory
        · cases heq
          exact Or.inr ⟨_, hfile, _, hdraw, hl⟩
      · exact absurd rfl (linkActions_make_no_file hmem _ _ _)

end ComesFrom

/-! ## Names of temporary files -/

/-- The names that are drawn for the temporary files of a plan are no names of its files. -/
def Destination.DrawsApart (d : Destination) (files : List (Path × Entry)) : Prop :=
  ∀ x ∈ files, ∀ y ∈ files, ∀ draw ∈ d.draws y.1, x.1.names.getLast? ≠ some draw.name

/-- What the names of generated units end in. -/
def unitSuffixes : List String := [".mount", ".automount", ".swap", ".service"]

/-- A unit name that tells the kind of its unit. -/
def TellsKind (name : String) : Prop := ∃ base, ∃ suffix ∈ unitSuffixes, name = base ++ suffix

/-- **No name is drawn that is the name of a unit or of a drop-in.** -/
theorem Plan.HasPlainNames.drawsApart (h : plan.HasPlainNames)
    (hkinds : ∀ u ∈ plan.units, TellsKind u.name) (hdecided : d.Decided plan.units rendered) :
    d.DrawsApart (d.fileEntries rendered plan.dropIns) := by
  intro x hx y _ draw _ heq
  rcases List.mem_append.mp hx with hx | hx
  · obtain ⟨r, hr, rfl⟩ := List.mem_map.mp hx
    have hunit := hdecided.unit_mem hr
    obtain ⟨base, suffix, hsuffix, hname⟩ := hkinds _ hunit
    have hplain := h.unit _ hunit
    have hends : ∀ s ∈ unitSuffixes, dot ∈ (Path.ofText s).octets ∧
        2 ≤ (Path.ofText s).octets.length ∧ (Path.ofText s).octets.length ≤ 16 := by
      decide
    obtain ⟨hdot, htwo, hsixteen⟩ := hends suffix hsuffix
    rw [hname, String.toList_append, List.mem_append, not_or] at hplain
    have hisName := Path.IsName.ofText_append hplain.1 hplain.2 htwo
    have hlast : (d.unitEntry r).1.names.getLast? = some (Path.ofText (base ++ suffix)).octets := by
      rw [Destination.unitEntry, hname]
      exact hisName.getLast?_names_join
    rw [hlast, Path.ofText_append] at heq
    exact draw.name_ne_append hdot hsixteen (Option.some.inj heq).symm
  · obtain ⟨z, hz, rfl⟩ := List.mem_map.mp hx
    obtain ⟨hunit, hname⟩ := h.dropIn z hz
    have hlast : (d.dropInEntry z).1.names.getLast? =
        some (Path.ofText (z.name ++ ".conf")).octets := by
      rw [Destination.dropInEntry, DropIn.join_path hunit hname]
      exact (DropIn.isName_file hname).getLast?_names_join
    rw [hlast, Path.ofText_append] at heq
    exact draw.name_ne_append (by decide) (by decide) (Option.some.inj heq).symm

/-! ## Interrupted submissions -/

/-- A link that is new stands beside all files of the plan. -/
theorem Interrupted.files_of_link {l : Location} {o : Octets} (hwf : t.WellFormed)
    (h : Interrupted t [] (d.actions rendered dropIns) u) (hlink : u.entry? l = some (.link o))
    (hnew : t.entry? l ≠ some (.link o)) :
    ∀ x ∈ d.fileEntries rendered dropIns, u.find false x.1 = .ok x.2 := by
  -- No tree that is accounted for by the files has the link.
  have hnone : ∀ {v : Tree}, Accounts t (d.fileActions rendered dropIns) v → ¬ u ≤ v := by
    intro v hv hle
    rcases hv l _ (hle l _ hlink) with hold | hfrom
    · exact hnew hold
    · exact hfrom.not_link
  rcases h.split with hfirst | ⟨made, v, hmade, hlater⟩
  · exact absurd (le_refl u) (hnone (hfirst.accounts hwf))
  · have hfiles : ∀ a ∈ rendered.flatMap d.links, ∀ p content draws,
        a ≠ .makeFile p content draws := fun _ ha => linkActions_make_no_file ha
    rcases hlater.le_or_mem (hmade.journal.wellFormed hwf) hfiles with hle | hmem
    · -- The files have all been made and are still there.
      intro x hx
      exact find_of_le hle (hmade.extends.found x (exists_fileAction hx))
    · exact absurd (rollBack_states_le _ u hmem) (hnone (.of_performs hmade))

/-- **Wherever a submission is cut, a link that it has made has all files that it needs**, complete.
Nor is a file of the plan ever there in part for the submission's own doing: what is under its path
was there before or is a whole file that the plan has for that path, as long as no name is drawn for
temporary files that is the name of a file of the plan. -/
theorem submit_states (hwf : t.WellFormed) (hu : u ∈ (d.submit plan).states t) :
    (∀ l o, u.entry? l = some (.link o) → t.entry? l ≠ some (.link o) →
      ∃ rendered, d.Decided plan.units rendered ∧
        ∀ x ∈ d.fileEntries rendered plan.dropIns, u.find false x.1 = .ok x.2) ∧
    ∀ rendered, d.Decided plan.units rendered →
      d.DrawsApart (d.fileEntries rendered plan.dropIns) →
      ∀ x ∈ d.fileEntries rendered plan.dropIns, ∀ l mode content,
        u.locate false x.1 = .ok l → u.entry? l = some (.file mode content) →
        t.entry? l = some (.file mode content) ∨
          ∃ y ∈ d.fileEntries rendered plan.dropIns,
            u.locate false y.1 = .ok l ∧ .file mode content = y.2 := by
  constructor
  · intro l o hlink hnew
    rcases submit_states_cases hu with rfl | ⟨rendered, hrender, hcut⟩
    · exact absurd hlink hnew
    · exact ⟨rendered, render_eq_ok_iff.mp hrender, hcut.files_of_link hwf hlink hnew⟩
  · intro rendered hdecided hdraws x hx l mode content hl hentry
    rcases submit_states_cases hu with rfl | ⟨rendered', hrender, hcut⟩
    · exact Or.inl hentry
    have hsame : rendered' = rendered := by
      rw [render_eq_ok_iff.mpr hdecided] at hrender
      exact (Except.ok.inj hrender).symm
    subst hsame
    rcases hcut.accounts hwf l _ hentry with hold | hfrom
    · exact Or.inl hold
    rcases hfrom.file with hfile | ⟨y, hy, draw, hdraw, hlast⟩
    · exact Or.inr hfile
    · -- A temporary file has its drawn name, and that is no name of a file of the plan.
      have hwfu := Script.wellFormed_of_mem_states hwf hu
      rw [getLast?_of_locate_file hwfu hl hentry] at hlast
      exact absurd hlast (hdraws x hx y hy draw hdraw)

/-- The link to a mount that was added to an empty directory has the mount and the settings for its
device, and neither of them was ever incomplete. -/
theorem homePlan_files_of_link :
    ∃ rendered, bareDestination.Decided homePlan.units rendered ∧
      (∀ x ∈ bareDestination.fileEntries rendered homePlan.dropIns,
        ((bareDestination.submit homePlan).run bareTree).2.find false x.1 = .ok x.2) ∧
      ∀ u ∈ (bareDestination.submit homePlan).states bareTree,
        ∀ x ∈ bareDestination.fileEntries rendered homePlan.dropIns, ∀ l mode content,
          u.locate false x.1 = .ok l → u.entry? l = some (.file mode content) →
          bareTree.entry? l = some (.file mode content) ∨
            ∃ y ∈ bareDestination.fileEntries rendered homePlan.dropIns,
              u.locate false y.1 = .ok l ∧ .file mode content = y.2 := by
  have hlink : entry? ((bareDestination.submit homePlan).run bareTree).2
      [Text.encode "dest".toList, Text.encode "local-fs.target.requires".toList,
        Text.encode "home.mount".toList] =
      some (.link (Text.encode "../home.mount".toList)) := by
    decide +kernel
  have hnew : bareTree.entry? [Text.encode "dest".toList,
      Text.encode "local-fs.target.requires".toList, Text.encode "home.mount".toList] ≠
      some (.link (Text.encode "../home.mount".toList)) := by
    decide +kernel
  have hnames : homePlan.HasPlainNames := by
    constructor <;> decide
  have hkinds : ∀ u ∈ homePlan.units, TellsKind u.name := by
    intro u hu
    rw [List.mem_singleton.mp hu]
    exact ⟨"home", ".mount", by decide, by decide⟩
  obtain ⟨rendered, hdecided, hfiles⟩ :=
    (submit_states bareTree_wellFormed (Script.run_mem_states _)).1 _ _ hlink hnew
  refine ⟨rendered, hdecided, hfiles, fun u hu => ?_⟩
  exact (submit_states bareTree_wellFormed hu).2 rendered hdecided
    (hnames.drawsApart hkinds hdecided)

/-- Whether a file of a plan is there in part: what its path names is a beginning of it. -/
def heldInPart (u : Tree) (x : Path × Entry) : Bool :=
  match u.find false x.1, x.2 with
  | .ok (.file _ (.octets written)), .file _ (.octets whole) =>
    written.isPrefixOf whole && written ≠ whole
  | _, _ => false

/-- A plan with a unit of some name. -/
def namedPlan (name : String) : Plan :=
  { units := [{ name, description := "Swap Partition", body := .swap "/dev/sda2" }] }

/-- The unit of that plan, of which there is nothing to decide. -/
def namedRendered (name : String) : List Destination.Rendered :=
  (namedPlan name).units.map fun unit => ⟨unit, .none⟩

/-- The name of a unit of which somebody has left the beginning. -/
def begunName : String := "dev-sda2.swap"

/-- A destination with that beginning. -/
def begunTree : Tree :=
  bareTree.insert [Text.encode "dest".toList, Text.encode begunName.toList]
    (.file fileMode (.octets (Text.encode "# Automatically".toList)))

/-- The name that is drawn first. -/
def drawnName : String := ".#gpt-auto-000001"

/-- **A unit can be there in part**: while it is written, if its name is drawn for the temporary
file, and for good, if a beginning of it was there before. -/
theorem units_in_part :
    (bareDestination.Decided (namedPlan drawnName).units (namedRendered drawnName) ∧
      ∃ u ∈ (bareDestination.submit (namedPlan drawnName)).states bareTree,
        ∃ x ∈ bareDestination.fileEntries (namedRendered drawnName) [], heldInPart u x = true) ∧
    bareDestination.Decided (namedPlan begunName).units (namedRendered begunName) ∧
      ∀ u ∈ (bareDestination.submit (namedPlan begunName)).states begunTree,
        ∃ x ∈ bareDestination.fileEntries (namedRendered begunName) [], heldInPart u x = true :=
  ⟨⟨.cons ⟨rfl, rfl⟩ .nil, by decide +kernel⟩, .cons ⟨rfl, rfl⟩ .nil, by decide +kernel⟩

end PartitionUnits
