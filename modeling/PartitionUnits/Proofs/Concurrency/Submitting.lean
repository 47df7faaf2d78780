import PartitionUnits.Proofs.Concurrency.Making
import PartitionUnits.Proofs.Submission.PlanParts

/-!
# Submitting beside others

What a submission holds in the end: the entries of its plan, or nothing but directories.

## Main Definitions

* `OnlyDirectories`, `Scene.Kept` — nothing but directories is held, and nothing but them and the
  entries of a plan
* `Scene.Hosts` — a part can be made beside others
* `Scene.keeps_applyActions` — the parts of a plan are made, or given up again
* `Scene.keeps_submit` — what a submission comes to

## Design Notes

Nothing is said here of when a submission succeeds, since that depends on what others do meanwhile.
-/

namespace PartitionUnits

open PartitionUnits.Tree Function

variable {S : Scene} {h h' k : Holdings} {d : Destination} {p : Path} {e : Entry} {x : Part}
  {made : List Artifact} {entries : List (Path × Entry)}

/-- Nothing but directories is held. -/
def OnlyDirectories (h : Holdings) : Prop := ∀ l e, h l = some e → e.isDirectory = true

theorem onlyDirectories_roomy : Scene.Roomy OnlyDirectories := by
  intro h l honly hvacant l' e hl'
  by_cases heq : l' = l
  · subst heq
    rw [update_self] at hl'
    cases hl'
    rfl
  · rw [update_of_ne heq] at hl'
    exact honly l' e hl'

namespace Scene

/-- **Entries are held**, and beside them nothing but directories. -/
structure Kept (S : Scene) (entries : List (Path × Entry)) (h : Holdings) : Prop where
  held : ∀ x ∈ entries, ∃ q name, S.Locates x.1 q name ∧ h (q ++ [name]) = some x.2
  rest : ∀ l e, h l = some e → e.isDirectory = true ∨
    ∃ x ∈ entries, ∃ q name, S.Locates x.1 q name ∧ l = q ++ [name] ∧ x.2 = e

namespace Kept

theorem nil : S.Kept [] fun _ => none where
  held := by simp
  rest := by simp

/-- What is held is so beside one more entry. -/
theorem held_of_adds (hkept : S.Kept entries h) (hadds : S.Adds p e h h') :
    ∀ x ∈ entries, ∃ q name, S.Locates x.1 q name ∧ h' (q ++ [name]) = some x.2 := by
  obtain ⟨q, name, -, hfree, rfl⟩ := hadds
  intro x hx
  obtain ⟨q', name', hlocates, hheld⟩ := hkept.held x hx
  have hne : q' ++ [name'] ≠ q ++ [name] := by
    intro heq
    rw [heq, hfree] at hheld
    cases hheld
  exact ⟨q', name', hlocates, (update_of_ne hne ..).trans hheld⟩

theorem add_directory {mode : Nat} (hkept : S.Kept entries h)
    (hadds : S.Adds p (.directory mode) h h') : S.Kept entries h' where
  held := hkept.held_of_adds hadds
  rest := by
    obtain ⟨q, name, -, -, rfl⟩ := hadds
    intro l e hl
    by_cases heq : l = q ++ [name]
    · subst heq
      rw [update_self] at hl
      cases hl
      exact Or.inl rfl
    · rw [update_of_ne heq] at hl
      exact hkept.rest l e hl

theorem add (hkept : S.Kept entries h) (hadds : S.Adds p e h h') :
    S.Kept (entries ++ [(p, e)]) h' where
  held := by
    intro x hx
    rcases List.mem_append.mp hx with hx | hx
    · exact hkept.held_of_adds hadds x hx
    · obtain ⟨q, name, hlocates, -, rfl⟩ := hadds
      rw [List.mem_singleton.mp hx]
      exact ⟨q, name, hlocates, update_self ..⟩
  rest := by
    obtain ⟨q, name, hlocates, -, rfl⟩ := hadds
    intro l e' hl
    by_cases heq : l = q ++ [name]
    · subst heq
      rw [update_self] at hl
      exact Or.inr ⟨_, List.mem_append_right _ (List.mem_singleton.mpr rfl), q, name, hlocates, rfl,
        Option.some.inj hl⟩
    · rw [update_of_ne heq] at hl
      rcases hkept.rest l e' hl with hdirectory | ⟨x, hx, hplace⟩
      · exact Or.inl hdirectory
      · exact Or.inr ⟨x, List.mem_append_left _ hx, hplace⟩

end Kept

/-! ## Parts -/

/-- **A part can be made beside others**: nobody turns the paths to its directory elsewhere, and it
is allowed there, as are its temporary files. -/
structure Hosts (S : Scene) (d : Destination) (x : Part) : Prop where
  regular : x.IsRegular
  steady : (∀ n, x.directory? = some n → (x.homePath d).fault? = none) → S.Steady (x.homePath d)
  takes : S.Takes (x.homePath d) x.name
  takesDraw : ∀ draw : Draw, S.Takes (x.homePath d) draw.name
  directory : ∀ n, x.directory? = some n →
    S.Steady d.directory ∧ S.TakesDirectory d.directory n

/-- What doing the actions of a plan comes to. -/
def Ending (S : Scene) (entries : List (Path × Entry)) :
    Except Aborted (List Artifact) → Holdings → Prop
  | .ok _, h => S.Kept entries h
  | .error aborted, h => S.Ledger OnlyDirectories aborted.owed h

/-- Making a part once its directory is there. -/
theorem Hosts.keeps_action (hx : S.Hosts d x)
    (hfault : ∀ n, x.directory? = some n → (x.homePath d).fault? = none) :
    S.Keeps (S.Doing (fun artifact? h' => artifact? = some (.file (x.path d)) ∧
      S.Adds (x.path d) x.entry h h') h) (x.action d).perform h := by
  have hsteady := hx.steady hfault
  have hname := hx.regular.name.isName
  unfold Part.action Part.entry Part.path
  cases x.body with
  | file content => exact keeps_makeFile hsteady hname hx.takes hx.takesDraw
  | link target => exact keeps_makeLink hsteady hname hx.takes

/-- One thing is done, and then the others; or it is not, and everything is given up. -/
theorem keeps_applyActions_cons {a : Action} {rest : List Action}
    {P : Option Artifact → Holdings → Prop} (hled : S.Ledger OnlyDirectories made h)
    (hdoing : S.Keeps (S.Doing P h) a.perform h)
    (hrest : ∀ artifact? h', P artifact? h' →
      S.Keeps (fun r => S.Ending entries r.value)
        (applyActions (artifact?.toList ++ made) rest) h') :
    S.Keeps (fun r => S.Ending entries r.value) (applyActions made (a :: rest)) h := by
  rw [applyActions]
  refine hdoing.bind fun result h' hdone => ?_
  cases result with
  | ok artifact? => exact hrest artifact? h' hdone
  | error aborted =>
      have hback := (hled.exchange hdone).keeps_rollBack (Ledger.roomy onlyDirectories_roomy)
      exact hback.bind fun events h'' howed => howed

/-- A part and its directory are made, and then the others. -/
theorem Hosts.keeps_actions {rest : List Action} (hx : S.Hosts d x)
    {done : List (Path × Entry)} (hled : S.Ledger OnlyDirectories made h) (hkept : S.Kept done h)
    (hrest : ∀ made' h', S.Ledger OnlyDirectories made' h' →
      S.Kept (done ++ [(x.path d, x.entry)]) h' →
        S.Keeps (fun r => S.Ending entries r.value) (applyActions made' rest) h') :
    S.Keeps (fun r => S.Ending entries r.value) (applyActions made (x.actions d ++ rest)) h := by
  -- The part itself, when its directory has been made sure of.
  have hpart : (∀ n, x.directory? = some n → (x.homePath d).fault? = none) →
      ∀ made h, S.Ledger OnlyDirectories made h → S.Kept done h →
        S.Keeps (fun r => S.Ending entries r.value) (applyActions made (x.action d :: rest)) h := by
    intro hfault made h hled hkept
    refine keeps_applyActions_cons hled (hx.keeps_action hfault) ?_
    rintro _ h' ⟨rfl, hadds⟩
    have hfits : (Artifact.file (x.path d)).Fits x.entry :=
      ⟨hx.regular.name.isName.asksForDirectory_join, x.isDirectory_entry⟩
    exact hrest _ h' (.cons hled hadds hfits) (hkept.add hadds)
  unfold Part.actions Part.directoryActions
  cases hn : x.directory? with
  | none => exact hpart (by simp [hn]) made h hled hkept
  | some n =>
      obtain ⟨hsteady, htakes⟩ := hx.directory n hn
      refine keeps_applyActions_cons hled
        (keeps_ensureDirectory hsteady (hx.regular.directory n hn).isName htakes) ?_
      rintro artifact? h' ⟨hfault, ⟨rfl, rfl⟩ | ⟨rfl, hadds⟩⟩
      · exact hpart (fun _ _ => by rwa [Part.homePath, hn]) made h' hled hkept
      · exact hpart (fun _ _ => by rwa [Part.homePath, hn]) _ h' (.cons hled hadds rfl)
          (hkept.add_directory hadds)

/-- **The parts of a plan are made**, or everything is given up but directories. -/
theorem keeps_applyActions {xs : List Part} (hxs : ∀ x ∈ xs, S.Hosts d x)
    {done : List (Path × Entry)} (hled : S.Ledger OnlyDirectories made h)
    (hkept : S.Kept done h) :
    S.Keeps (fun r => S.Ending (done ++ xs.map fun x => (x.path d, x.entry)) r.value)
      (applyActions made (xs.flatMap (·.actions d))) h := by
  induction xs generalizing made h done with
  | nil =>
      rw [List.map_nil, List.append_nil]
      exact hkept
  | cons x rest ih =>
      rw [List.flatMap_cons, List.map_cons, List.append_cons]
      refine (hxs x List.mem_cons_self).keeps_actions hled hkept fun made' h' hled' hkept' => ?_
      exact ih (fun y hy => hxs y (List.mem_cons_of_mem _ hy)) hled' hkept'

/-! ## Submissions -/

/-- **What a submission comes to**: the entries of the plan are held, or nothing but directories. -/
def Submitted (S : Scene) (entries : List (Path × Entry)) (result : Except Failure Unit)
    (h : Holdings) : Prop :=
  match result with
  | .ok () => S.Kept entries h
  | .error _ => OnlyDirectories h

/-- **A submission beside others** ends with the entries of its plan, or with nothing but
directories. -/
theorem keeps_submit {plan : Plan} {rendered : List Destination.Rendered}
    (hrender : (d.render plan.units).run.value = .ok rendered)
    (hplain : PlainParts rendered plan.dropIns) (hlinks : Expressible rendered)
    (hxs : ∀ x ∈ parts rendered plan.dropIns, S.Hosts d x) :
    S.Keeps (fun r => S.Submitted (d.entries rendered plan.dropIns) r.value) (d.submit plan)
      fun _ => none := by
  have hbase : OnlyDirectories fun _ => none := fun _ _ hnone => by cases hnone
  unfold Destination.submit
  simp only [hrender]
  rw [hplain.actions_eq hlinks, hplain.entries_eq]
  refine (keeps_applyActions hxs (.nil hbase) .nil).bind fun applied h' hending => ?_
  cases hvalue : applied.value with
  | ok made =>
      rw [hvalue] at hending
      exact hending
  | error aborted =>
      rw [hvalue] at hending
      exact (hending.keeps_release onlyDirectories_roomy).bind fun _ _ honly => honly

/-- A submission of which nothing can be decided holds nothing. -/
theorem keeps_submit_of_undecided {plan : Plan} {failure : Failure}
    (hrender : (d.render plan.units).run.value = .error failure) :
    S.Keeps (fun r => S.Submitted entries r.value) (d.submit plan) fun _ => none := by
  unfold Destination.submit
  simp only [hrender]
  exact fun _ _ hnone => by cases hnone

end Scene

end PartitionUnits
