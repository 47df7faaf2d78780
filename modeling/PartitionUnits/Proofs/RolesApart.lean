import PartitionUnits.Proofs.History
import PartitionUnits.Proofs.NonInterference
import PartitionUnits.Proofs.Submission.Room
import PartitionUnits.Proofs.TidyPlans

/-!
# Roles never collide

No two files or links that the plans of a pass make have the same path, and no plan needs a
directory where there is one of them.

## Main Definitions

* `Role.ComesTo` — the plans that a role can come to
* `KeepApart`, `keepApart` — plans that make nothing twice, and that those of roles do
* `HoldsOnly`, `HoldsOnly.afterAll` — what is in an empty directory after some turns of a pass
* `roles_never_collide` — no submission fails because something exists already

## Design Notes

That a name is taken is one of many reasons why a submission fails.  With nothing in the way of a
plan, what is left to ask is whether its checks are decided and its names can be used, and neither
depends on the files.
-/

namespace PartitionUnits

open PartitionUnits.Tree Attempt Site

variable {σ : Type} {site : Site σ} {tree : σ → Tree} {destination : σ → Destination}
  {settings : Settings} {s : σ} {t : Tree} {d : Destination} {p : Path} {l : Location}
  {role : Role} {plan : Plan} {turn : Turn σ} {es : List Emission} {e : Emission}
  {rendered : List Destination.Rendered} {done : List String}

/-! ## The plans of roles -/

/-- **The plans that a role can come to**, whatever devices it is on and whatever they hold. -/
inductive Role.ComesTo : Role → Plan → Prop where
  | root {inInitrd rw : Bool} {plan : Plan}
      (h : (rootRequest inInitrd rw).plan.run.value = .ok plan) : ComesTo .root plan
  | swap {device : String} {plan : Plan} (h : (planSwap device).run.value = .ok plan) :
      ComesTo .swap plan
  | boot {node : String} {plan : Plan}
      (h : ((bootRequest node).planOnAccess bootIdleSeconds).run.value = .ok plan) :
      ComesTo .boot plan
  | data {role : Role} {a : Assignment} {mountPoint fsType : String} {plan : Plan}
      (hplace : role.mountPoint? false = some mountPoint)
      (h : (dataRequest role a mountPoint fsType).plan.run.value = .ok plan) : ComesTo role plan

namespace Role.ComesTo

theorem isOf (h : role.ComesTo plan) : plan.IsOf role := by
  cases h with
  | @root inInitrd rw _ h =>
      refine MountRequest.plan_isOf rfl ⟨inInitrd, ?_⟩ plan h
      cases inInitrd <;> rfl
  | swap h => exact planSwap_isOf plan h
  | boot h => exact MountRequest.planOnAccess_isOf rfl ⟨false, rfl⟩ plan h
  | data hplace h => exact MountRequest.plan_isOf rfl ⟨false, hplace⟩ plan h

theorem isTidy (h : role.ComesTo plan) : plan.IsTidy := by
  cases h with
  | root h => exact MountRequest.plan_isTidy _ plan h
  | swap h => exact planSwap_isTidy _ plan h
  | boot h => exact MountRequest.planOnAccess_isTidy _ _ plan h
  | data _ h => exact MountRequest.plan_isTidy _ plan h

end Role.ComesTo

theorem decideRoot_comesTo (settings : Settings) (h : Host) :
    Ensures (decideRoot settings h) (·.Emits Role.root.ComesTo) :=
  decideRoot_emits fun _ hplan => .root hplan

theorem Rule.decide_comesTo (r : Rule) (m : Machine) (a : Assignment) :
    Ensures (r.decide m a) (·.Emits r.role.ComesTo) := by
  unfold Rule.decide
  split
  · next h =>
      rw [h]
      exact decideSwap_emits fun _ hplan => .swap hplan
  · next h =>
      rw [h]
      exact decideBoot_emits fun _ hplan => .boot hplan
  · exact decideData_emits fun _ _ hplace _ hplan => .data hplace hplan

/-- **The plan of a turn is one that the role can come to.** -/
theorem comesTo_of_mem_turns (hturn : turn ∈ site.turns settings s) (h : turn.plan? = some plan) :
    ∃ role : Role, role.id = turn.subject ∧ role.ComesTo plan := by
  have hvalue := Turn.plan?_eq_some.mp h
  rcases turn_cases hturn with ⟨-, rfl⟩ | ⟨-, failure, hthrow⟩ | ⟨rule, a, s', -, rfl⟩
  · exact ⟨.root, rfl, decideRoot_comesTo settings _ _ hvalue plan rfl⟩
  · rw [hthrow] at hvalue
    cases hvalue
  · exact ⟨rule.role, rfl, rule.decide_comesTo _ a _ hvalue plan rfl⟩

/-! ## Paths of plans -/

/-- The path of the file or link that an action makes. -/
def Action.madePath? : Action → Option Path
  | .makeFile p _ _ => some p
  | .makeLink _ link => some link
  | .ensureDirectory _ | .refuse _ => none

/-- The path of the directory that an action makes sure of. -/
def Action.neededPath? : Action → Option Path
  | .ensureDirectory p => some p
  | .makeFile .. | .makeLink .. | .refuse _ => none

namespace Emission

/-- What is done to apply a plan. -/
def actions (e : Emission) : List Action := e.destination.actions e.rendered e.plan.dropIns

/-- The paths of the files and links that a plan makes. -/
def madePaths (e : Emission) : List Path := e.actions.filterMap Action.madePath?

/-- The paths of the directories that a plan needs. -/
def neededPaths (e : Emission) : List Path :=
  e.destination.directory :: e.actions.filterMap Action.neededPath?

/-- The files and links of a plan, with their places. -/
def parts (e : Emission) : List Part := PartitionUnits.parts e.rendered e.plan.dropIns

/-- **A plan for a role**, with what was decided about its checks. -/
structure IsFor (e : Emission) (role : Role) : Prop where
  subject : e.subject = role.id
  comesTo : role.ComesTo e.plan
  decided : e.destination.Decided e.plan.units e.rendered

end Emission

/-- **Plans that do not collide**: they make no path twice, and none where one of them needs a
directory. -/
structure KeepApart (es : List Emission) : Prop where
  made : (es.flatMap Emission.madePaths).Pairwise fun p q => ¬ p.SameAs q
  needed : ∀ p ∈ es.flatMap Emission.madePaths, ∀ q ∈ es.flatMap Emission.neededPaths,
    ¬ p.SameAs q

namespace Emission.IsFor

theorem part_isOf {x : Part} (h : e.IsFor role) (hx : x ∈ e.parts) : x.IsOf role :=
  h.comesTo.isOf.parts_isOf h.decided hx

theorem actions_eq (h : e.IsFor role) : e.actions = e.parts.flatMap (·.actions e.destination) :=
  h.comesTo.isOf.actions_eq h.decided

theorem madePaths_eq (h : e.IsFor role) : e.madePaths = e.parts.map (·.path e.destination) := by
  have hpart : ∀ x : Part, (x.actions e.destination).filterMap Action.madePath? =
      [x.path e.destination] := by
    intro x
    unfold Part.actions Part.directoryActions Part.action
    cases x.directory? <;> cases x.body <;> rfl
  rw [madePaths, h.actions_eq, List.filterMap_flatMap, List.flatMap_congr fun x _ => hpart x,
    List.map_eq_flatMap]

/-- The directories that a plan needs are where it is applied and those of its parts. -/
theorem mem_neededPaths (h : e.IsFor role) (hp : p ∈ e.neededPaths) :
    p = e.destination.directory ∨
      ∃ x ∈ e.parts, ∃ n, x.directory? = some n ∧ p = e.destination.directory.join ⟨n⟩ := by
  rcases List.mem_cons.mp hp with rfl | hp
  · exact Or.inl rfl
  rw [h.actions_eq, List.filterMap_flatMap] at hp
  obtain ⟨x, hx, hp⟩ := List.mem_flatMap.mp hp
  refine Or.inr ⟨x, hx, ?_⟩
  obtain ⟨a, ha, hneeded⟩ := List.mem_filterMap.mp hp
  rcases List.mem_append.mp ha with ha | ha
  · obtain ⟨n, hn, rfl⟩ := List.mem_map.mp ha
    exact ⟨n, Option.mem_toList.mp hn, (Option.some.inj hneeded).symm⟩
  · rw [List.mem_singleton.mp ha, Part.action] at hneeded
    split at hneeded <;> cases hneeded

end Emission.IsFor

section

variable (hsubjects : (es.map Emission.subject).Nodup) (hfor : ∀ e ∈ es, ∃ role, e.IsFor role)
  (hdirectory : ∀ e ∈ es, e.destination.directory = p)
include hsubjects hfor

/-- **No place is that of two parts** of plans for different roles. -/
theorem nodup_places : (es.flatMap fun e => e.parts.map (·.place [])).Nodup := by
  rw [List.nodup_flatMap]
  constructor
  · intro e he
    obtain ⟨role, h⟩ := hfor e he
    exact h.comesTo.isOf.nodup_places h.comesTo.isTidy h.decided
  · rw [List.nodup_iff_pairwise_ne, List.pairwise_map] at hsubjects
    refine hsubjects.imp_of_mem fun {e e'} he he' hne place hplace hplace' => hne ?_
    obtain ⟨role, h⟩ := hfor e he
    obtain ⟨role', h'⟩ := hfor e' he'
    obtain ⟨x, hx, rfl⟩ := List.mem_map.mp hplace
    obtain ⟨x', hx', hsame⟩ := List.mem_map.mp hplace'
    have howned := (h'.part_isOf hx').owned
    rw [hsame] at howned
    rw [h.subject, h'.subject, (h.part_isOf hx).owned.unique howned]

include hdirectory

omit hsubjects in
/-- The components of the paths that plans make. -/
theorem components_madePaths : (es.flatMap Emission.madePaths).map Path.components =
    (es.flatMap fun e => e.parts.map (·.place [])).map (p.components ++ ·.map .name) := by
  rw [List.map_flatMap, List.map_flatMap]
  refine List.flatMap_congr fun e he => ?_
  obtain ⟨role, h⟩ := hfor e he
  rw [h.madePaths_eq, List.map_map, List.map_map]
  refine List.map_congr_left fun x hx => ?_
  rw [← hdirectory e he]
  exact (h.part_isOf hx).regular.components_path e.destination

/-- **Plans for different roles do not collide.** -/
theorem keepApart : KeepApart es where
  made := by
    have hnodup : ((es.flatMap Emission.madePaths).map Path.components).Nodup := by
      rw [components_madePaths hfor hdirectory]
      refine (nodup_places hsubjects hfor).map fun place place' heq => ?_
      exact List.map_injective_iff.mpr (fun _ _ hname => Component.name.inj hname)
        (List.append_cancel_left heq)
    rw [List.nodup_iff_pairwise_ne, List.pairwise_map] at hnodup
    exact hnodup
  needed := by
    intro q hq q' hq' hsame
    obtain ⟨e, he, hq⟩ := List.mem_flatMap.mp hq
    obtain ⟨e', he', hq'⟩ := List.mem_flatMap.mp hq'
    obtain ⟨role, h⟩ := hfor e he
    obtain ⟨role', h'⟩ := hfor e' he'
    rw [h.madePaths_eq] at hq
    obtain ⟨x, hx, rfl⟩ := List.mem_map.mp hq
    have hpart := h.part_isOf hx
    rw [Path.SameAs, hpart.regular.components_path, hdirectory e he] at hsame
    rcases h'.mem_neededPaths hq' with rfl | ⟨x', hx', n, hn, rfl⟩
    · rw [hdirectory e' he', List.append_right_eq_self, List.map_eq_nil_iff] at hsame
      simp [Part.place] at hsame
    · have hpart' := h'.part_isOf hx'
      rw [(hpart'.regular.directory n hn).components_join, hdirectory e' he'] at hsame
      have hplace : x.place [] = [n] :=
        List.map_injective_iff.mpr (fun _ _ hname => Component.name.inj hname)
          (List.append_cancel_left hsame)
      exact (hplace ▸ hpart.owned).not_directory (hpart'.directory n hn)

end

/-! ## Plans of a pass -/

/-- What the plan of a turn comes to, if there is one and its checks are decided. -/
def Turn.emission? (destination : σ → Destination) (turn : Turn σ) : Option Emission :=
  match turn.plan? with
  | none => none
  | some plan =>
      match ((destination turn.state).render plan.units).run.value with
      | .error _ => none
      | .ok rendered => some ⟨turn.subject, plan, destination turn.state, rendered⟩

/-- **The plans that a pass hands over**, with what is decided about their checks. -/
def Site.emissions (site : Site σ) (destination : σ → Destination) (settings : Settings) (s : σ) :
    List Emission := (site.turns settings s).filterMap (Turn.emission? destination)

theorem Turn.emission?_eq_some (h : turn.emission? destination = some e) :
    turn.plan? = some e.plan ∧ e.subject = turn.subject ∧
      e.destination = destination turn.state ∧
      e.destination.Decided e.plan.units e.rendered := by
  unfold emission? at h
  split at h
  · cases h
  next plan hplan =>
  split at h
  · cases h
  next rendered hrender =>
  cases h
  exact ⟨hplan, rfl, rfl, render_eq_ok_iff.mp hrender⟩

/-- The plans of a pass are for different subjects. -/
theorem nodup_subjects_emissions (settings : Settings) (s : σ) :
    ((site.emissions destination settings s).map Emission.subject).Nodup := by
  have hnodup : ((site.turns settings s).map Turn.subject).Nodup := nodup_subjects settings s
  refine hnodup.sublist ?_
  unfold emissions
  generalize site.turns settings s = turns
  induction turns with
  | nil => exact .refl _
  | cons turn rest ih =>
      cases hemission : turn.emission? destination with
      | none =>
          rw [List.filterMap_cons_none hemission]
          exact ih.trans (List.sublist_cons_self _ _)
      | some e =>
          rw [List.filterMap_cons_some hemission, List.map_cons, List.map_cons,
            (Turn.emission?_eq_some hemission).2.1]
          exact ih.cons_cons _

theorem isFor_of_mem_emissions (he : e ∈ site.emissions destination settings s) :
    (∃ role, e.IsFor role) ∧ ∃ s', e.destination = destination s' := by
  obtain ⟨turn, hturn, hemission⟩ := List.mem_filterMap.mp he
  obtain ⟨hplan, hsubject, hdestination, hdecided⟩ := Turn.emission?_eq_some hemission
  obtain ⟨role, hid, hcomes⟩ := comesTo_of_mem_turns hturn hplan
  exact ⟨⟨role, hsubject.trans hid.symm, hcomes, hdecided⟩, _, hdestination⟩

/-! ## Submissions with nothing in the way -/

section

variable (hplan : plan.IsOf role) (htidy : plan.IsTidy) (hl : d.LiesAt t l)
  (hclear : ∀ rendered, d.Decided plan.units rendered →
    Unobstructed l (parts rendered plan.dropIns) t)
include hplan htidy hl hclear

/-- **A plan that has nothing in its way is applied just if its checks are decided and its names can
be used.** -/
theorem submit_eq_ok_iff_nameable :
    ((d.submit plan).run t).1.value = .ok () ↔ ∃ rendered, d.Decided plan.units rendered ∧
      ∀ a ∈ d.actions rendered plan.dropIns, a.IsNameable := by
  cases hrender : (d.render plan.units).run.value with
  | error failure =>
      rw [(submit_of_undecided hrender).1]
      constructor
      · intro hok
        cases hok
      · rintro ⟨rendered, hdecided, -⟩
        rw [render_eq_ok_iff.mpr hdecided] at hrender
        cases hrender
  | ok rendered =>
      have hdecided := render_eq_ok_iff.mp hrender
      have hfits := (hclear rendered hdecided).fitAll_iff
        (fun _ hx => hplan.isPlain.parts_isPlain hdecided hx)
        (hplan.nodup_places htidy hdecided) hl
      rw [(hplan.submit_verdict hdecided hl).eq_ok_iff, hfits, ← hplan.actions_eq hdecided]
      constructor
      · exact fun hnameable => ⟨rendered, hdecided, hnameable⟩
      · rintro ⟨rendered', hdecided', hnameable⟩
        have hsame := (render_eq_ok_iff.mpr hdecided').symm.trans hrender
        cases hsame
        exact hnameable

/-- **A plan that has nothing in its way does not fail because something exists.** -/
theorem submit_blamesOther {failure : Failure}
    (h : ((d.submit plan).run t).1.value = .error failure) : failure.BlamesOther := by
  cases hrender : (d.render plan.units).run.value with
  | error undecided =>
      rw [(submit_of_undecided hrender).1] at h
      cases h
      exact render_failsWith PathNameError.failure_blamesOther d plan.units _ hrender
  | ok rendered =>
      have hdecided := render_eq_ok_iff.mp hrender
      rcases completes_or_stops t (d.actions rendered plan.dropIns) with
        ⟨made, u, hcompletes⟩ | ⟨made, u, aborted, v, hstops⟩
      · rw [(submit_of_completes hrender hcompletes).1] at h
        cases h
      · rw [(submit_of_stops hrender hstops).1] at h
        cases h
        rw [hplan.actions_eq hdecided] at hstops
        exact (hclear rendered hdecided).blamesOther
          (fun _ hx => hplan.isPlain.parts_isPlain hdecided hx)
          (hplan.nodup_places htidy hdecided) hl hstops

end

/-! ## An empty directory after some turns -/

/-- **A directory holds only what is for some subjects**: it was empty before they had their turns.
There are no temporary files in it, and where directories may be there are no others. -/
structure HoldsOnly (p : Path) (l : Location) (done : List String) (t : Tree) : Prop where
  wellFormed : t.WellFormed
  leads : t.LeadsTo p l
  noLink : ∀ name target, t.entry? (l ++ [name]) ≠ some (.link target)
  vacant : ∀ role : Role, role.id ∉ done → ∀ place, role.Owns place → t.entry? (l ++ place) = none
  opens : ∀ n, IsDirectoryName n → t.IsOpen (l ++ [n])
  fresh : ∀ (n? : Option Name) (draw : Draw), t.entry? (l ++ n?.toList ++ [draw.name]) = none

namespace HoldsOnly

theorem of_empty (hwf : t.WellFormed) (hleads : t.LeadsTo p l) (hempty : t.names l = []) :
    HoldsOnly p l [] t := by
  have hvacant : ∀ l', l' ≠ [] → t.entry? (l ++ l') = none := by
    intro l' hl'
    obtain ⟨name, rest, rfl⟩ := List.exists_cons_of_ne_nil hl'
    rw [List.append_cons]
    exact hwf.vacant_beneath (names_eq_nil_iff.mp hempty name) rest
  refine ⟨hwf, hleads, fun name target => ?_, fun role _ place howns => hvacant _ ?_,
    fun n _ e hentry => ?_, fun n? draw => ?_⟩
  · rw [hvacant _ (List.cons_ne_nil _ _)]
    simp
  · cases howns <;> exact List.cons_ne_nil _ _
  · rw [hvacant _ (List.cons_ne_nil _ _)] at hentry
    cases hentry
  · rw [List.append_assoc]
    exact hvacant _ (by simp)

theorem lies (h : HoldsOnly p l done t) (hd : d.directory = p) : d.LiesAt t l :=
  ⟨h.wellFormed, hd ▸ h.leads, h.noLink⟩

/-- **Nothing is in the way of a role that had no turn yet.** -/
theorem unobstructed (h : HoldsOnly p l done t) (hrole : role.id ∉ done) {xs : List Part}
    (hxs : ∀ x ∈ xs, x.IsOf role) : Unobstructed l xs t where
  vacant := by
    intro x hx
    rw [x.place_eq]
    exact h.vacant role hrole _ (hxs x hx).owned
  opens := fun x hx n hn => h.opens n ((hxs x hx).directory n hn)
  fresh := fun x _ draw => h.fresh x.directory? draw

/-- **A submission of a role's plan leaves room for all others.** -/
theorem submit (h : HoldsOnly p l done t) (hd : d.directory = p) (hplan : plan.IsOf role) :
    HoldsOnly p l (done ++ [role.id]) ((d.submit plan).run t).2 := by
  have hgrown := hplan.grown (h.lies hd)
  have halike := hplan.submit_alike (h.lies hd)
  refine ⟨hgrown.lies.wellFormed, hd ▸ hgrown.lies.leads, hgrown.lies.noLink,
    fun other hother place howns => ?_, fun n hn => halike.isOpen hn (h.opens n hn),
    fun n? draw => (hgrown.shares _ draw).trans (h.fresh n? draw)⟩
  rw [List.mem_append, List.mem_singleton, not_or] at hother
  have hne : other ≠ role := fun heq => hother.2 (congrArg Role.id heq)
  exact (halike.entry?_eq hne howns).symm.trans (h.vacant other hother.1 place howns)

theorem mono (h : HoldsOnly p l done t) {done' : List String} (hsubset : done ⊆ done') :
    HoldsOnly p l done' t :=
  { h with vacant := fun role hrole => h.vacant role fun hmem => hrole (hsubset hmem) }

section

variable (happlies : site.Applies tree destination)
  (hdirectory : ∀ s, (destination s).directory = p)
include happlies hdirectory

/-- A turn leaves room for all other subjects. -/
theorem after (h : HoldsOnly p l done (tree s)) {e : Errand} (he : ∀ m, e.IsSound m) :
    HoldsOnly p l (done ++ [e.subject]) (tree (site.after (site.turn e s))) := by
  have hstay : HoldsOnly p l (done ++ [e.subject]) (tree s) :=
    h.mono (List.subset_append_left _ _)
  cases hvalue : (e.decide (site.machine s)).run.value with
  | error failure => rwa [(turn_of_error site (site.turn e s) hvalue).2]
  | ok decision =>
      cases decision with
      | skip reason => rwa [(turn_of_skip site (site.turn e s) hvalue).2]
      | emit plan =>
          obtain ⟨role, hid, hplan⟩ := he (site.machine s) plan hvalue
          rw [(turn_of_emit site (site.turn e s) hvalue).2, happlies.tree, ← hid]
          exact h.submit (hdirectory _) hplan

/-- **Turns leave room for all other subjects.** -/
theorem afterAll {es : List Errand} (h : HoldsOnly p l done (tree s))
    (hes : ∀ e ∈ es, ∀ m, e.IsSound m) :
    HoldsOnly p l (done ++ es.map Errand.subject) (tree (site.afterAll es s)) := by
  induction es generalizing s done with
  | nil =>
      rw [List.map_nil, List.append_nil]
      exact h
  | cons e rest ih =>
      have hfirst := h.after happlies hdirectory (hes e List.mem_cons_self)
      have hrest := ih hfirst fun e' he' => hes e' (List.mem_cons_of_mem _ he')
      rwa [List.append_assoc, List.singleton_append, ← List.map_cons] at hrest

end

end HoldsOnly

/-! ## Whole passes -/

section

variable (happlies : site.Applies tree destination)
  (hdirectory : ∀ s, (destination s).directory = p)
include happlies hdirectory

/-- **Nothing is in the way of a turn** of a pass that begins with an empty directory. -/
theorem holdsOnly_of_mem_turns (hwf : (tree s).WellFormed) (hleads : (tree s).LeadsTo p l)
    (hempty : (tree s).names l = []) (hturn : turn ∈ site.turns settings s) :
    ∃ done, turn.subject ∉ done ∧ HoldsOnly p l done (tree turn.state) := by
  obtain ⟨before, e, after, hes, rfl⟩ := mem_play.mp hturn
  have hsound : ∀ e ∈ before, ∀ m, e.IsSound m := fun e he m =>
    isSound_errands (hes ▸ List.mem_append_left _ he : e ∈ site.errands settings s)
  have hholds := (HoldsOnly.of_empty hwf hleads hempty).afterAll happlies hdirectory hsound
  refine ⟨_, ?_, hholds⟩
  have hnodup : ((site.turns settings s).map Turn.subject).Nodup := nodup_subjects settings s
  rw [turns, subjects_play, hes, List.map_append, List.map_cons] at hnodup
  intro hmem
  exact (List.nodup_append.mp hnodup).2.2 _ hmem _ List.mem_cons_self rfl

omit happlies in
/-- **The plans of a pass keep apart.** -/
theorem keepApart_emissions (settings : Settings) (s : σ) :
    KeepApart (site.emissions destination settings s) := by
  refine keepApart (p := p) (nodup_subjects_emissions settings s)
    (fun e he => (isFor_of_mem_emissions he).1) fun e he => ?_
  obtain ⟨-, s', hdestination⟩ := isFor_of_mem_emissions he
  rw [hdestination, hdirectory]

/-- **What comes of a turn does not depend on what exists**, in a pass that begins with an empty
directory. -/
theorem result_of_mem_turns (hwf : (tree s).WellFormed) (hleads : (tree s).LeadsTo p l)
    (hempty : (tree s).names l = []) (hturn : turn ∈ site.turns settings s)
    (hplan : turn.plan? = some plan) :
    (site.result turn = .ok .emitted ↔
      ∃ rendered, (destination turn.state).Decided plan.units rendered ∧
        ∀ a ∈ (destination turn.state).actions rendered plan.dropIns, a.IsNameable) ∧
      ∀ failure, site.result turn = .error failure → failure.BlamesOther := by
  obtain ⟨role, hid, hcomes⟩ := comesTo_of_mem_turns hturn hplan
  obtain ⟨done, hdone, hholds⟩ :=
    holdsOnly_of_mem_turns happlies hdirectory hwf hleads hempty hturn
  have hl := hholds.lies (hdirectory turn.state)
  have hclear : ∀ rendered, (destination turn.state).Decided plan.units rendered →
      Unobstructed l (parts rendered plan.dropIns) (tree turn.state) :=
    fun rendered hdecided => hholds.unobstructed (hid ▸ hdone)
      fun _ hx => hcomes.isOf.parts_isOf hdecided hx
  have hresult := (turn_of_emit site turn (Turn.plan?_eq_some.mp hplan)).1
  rw [happlies.value] at hresult
  rw [← submit_eq_ok_iff_nameable hcomes.isOf hcomes.isTidy hl hclear]
  cases hvalue : (((destination turn.state).submit plan).run (tree turn.state)).1.value with
  | ok _ =>
      rw [hresult, hvalue]
      refine ⟨⟨fun _ => rfl, fun _ => rfl⟩, fun failure hfailed => ?_⟩
      cases hfailed
  | error failure =>
      rw [hresult, hvalue]
      refine ⟨⟨fun hok => ?_, fun hok => ?_⟩, fun failure' hfailed => ?_⟩
      · cases hok
      · cases hok
      · cases hfailed
        exact submit_blamesOther hcomes.isOf hcomes.isTidy hl hclear hvalue

/-- **Roles never collide.**  Plans for different roles make no file and no link at the path of
another one, nor where one of them needs a directory, whatever devices they are for and whatever
those hold; and the plans of a pass are such plans.  So in a pass that begins with an empty
directory, a plan is applied just if its checks are decided and its names can be used, and if it is
not, that is not because something exists already. -/
theorem roles_never_collide (settings : Settings) (s : σ) :
    (∀ es : List Emission, (es.map Emission.subject).Nodup → (∀ e ∈ es, ∃ role, e.IsFor role) →
      (∀ e ∈ es, e.destination.directory = p) → KeepApart es) ∧
    KeepApart (site.emissions destination settings s) ∧
    ∀ l, (tree s).WellFormed → (tree s).LeadsTo p l → (tree s).names l = [] →
      ∀ turn ∈ site.turns settings s, ∀ plan, turn.plan? = some plan →
        (site.result turn = .ok .emitted ↔
          ∃ rendered, (destination turn.state).Decided plan.units rendered ∧
            ∀ a ∈ (destination turn.state).actions rendered plan.dropIns, a.IsNameable) ∧
        ∀ failure, site.result turn = .error failure → failure.BlamesOther :=
  ⟨fun _ => keepApart, keepApart_emissions hdirectory settings s,
    fun _ hwf hleads hempty _ hturn _ hplan =>
      result_of_mem_turns happlies hdirectory hwf hleads hempty hturn hplan⟩

end

/-- A swap partition. -/
def swapEmission : Emission where
  subject := Role.swap.id
  plan := { units := [swapUnit "dev-sda2.swap" "/dev/sda2"] }
  destination := bareDestination
  rendered := [⟨swapUnit "dev-sda2.swap" "/dev/sda2", .none⟩]

/-- The request to mount an encrypted volume that is on the same device. -/
def volumeRequest : MountRequest := dataRequest .home ⟨.home, "/dev/sda2", 2, true⟩ "/home" luksType

/-- An encrypted volume on the same device. -/
def volumeEmission : Emission where
  subject := Role.home.id
  plan := {
    units := [Unlocking.service "home" "/dev/sda2" true "home.mount" "dev-sda2.device",
      volumeRequest.unit "home.mount" ("/dev/mapper/" ++ "home") none]
    dropIns := [Unlocking.noTimeout "home"] }
  destination := bareDestination
  rendered := [
    ⟨Unlocking.service "home" "/dev/sda2" true "home.mount" "dev-sda2.device", .none⟩,
    ⟨volumeRequest.unit "home.mount" ("/dev/mapper/" ++ "home") none,
      .service "systemd-fsck@dev-mapper-home.service"⟩]

theorem swapEmission_isFor : swapEmission.IsFor .swap where
  subject := rfl
  comesTo := .swap (planSwap_eq_ok_iff.mpr ⟨_, by decide +kernel, rfl⟩)
  decided := .cons ⟨rfl, rfl⟩ .nil

theorem volumeEmission_isFor : volumeEmission.IsFor .home where
  subject := rfl
  comesTo := by
    have hplan : volumeRequest.plan.run.value = .ok volumeEmission.plan :=
      MountRequest.plan_eq_ok_iff.mpr ⟨_, by decide +kernel, .unlocked rfl (by decide +kernel)⟩
    exact .data rfl hplan
  decided := by
    have hcheck : ((⟨"/dev/mapper/home", "/home", none⟩ : CheckRequest).resolve false
        fun _ => true).run.value = .ok (.service "systemd-fsck@dev-mapper-home.service") := by
      decide +kernel
    exact .cons ⟨rfl, rfl⟩ (.cons ⟨rfl, hcheck⟩ .nil)

/-- Swap and an encrypted volume do not collide, not even on one device, and in a pass that sets up
both data partitions none fails. -/
theorem dataMachine_never_collides :
    let site := applying (dataMachine (.found { fsType := some luksType })) bareDestination
    KeepApart [swapEmission, volumeEmission] ∧
      KeepApart (site.emissions (fun _ => bareDestination) {} bareTree) ∧
      (site.emissions (fun _ => bareDestination) {} bareTree).map Emission.subject =
        ["home", "srv"] ∧
      ∀ turn ∈ site.turns {} bareTree, ∀ plan, turn.plan? = some plan →
        (site.result turn = .ok .emitted ↔
          ∃ rendered, bareDestination.Decided plan.units rendered ∧
            ∀ a ∈ bareDestination.actions rendered plan.dropIns, a.IsNameable) ∧
        ∀ failure, site.result turn = .error failure → failure.BlamesOther := by
  intro site
  have happlies : site.Applies id fun _ => bareDestination := ⟨fun _ _ => rfl, fun _ _ => rfl⟩
  obtain ⟨hchosen, hpass, hresults⟩ := roles_never_collide happlies (fun _ => rfl) {} bareTree
  refine ⟨hchosen _ (by decide) (fun e he => ?_) (fun e he => ?_), hpass, by decide +kernel,
    hresults _ bareTree_wellFormed bareTree_leadsTo bareTree_names⟩
  · rcases List.mem_pair.mp he with rfl | rfl
    · exact ⟨_, swapEmission_isFor⟩
    · exact ⟨_, volumeEmission_isFor⟩
  · rcases List.mem_pair.mp he with rfl | rfl <;> rfl

end PartitionUnits
