import PartitionUnits.Proofs.Concurrency.Submitting
import PartitionUnits.Proofs.PlainPlans
import PartitionUnits.Proofs.UnlockChain

/-!
# Submissions side by side

However many submissions run in one directory at the same time, and whatever the order of their
steps: what they leave is what was there and the files and links of those that have succeeded.

## Main Definitions

* `Submission` — a plan that is to be applied somewhere, with the files and links of it
* `Plan.IsRequested`, `UnitFile.IsRequested` — the plans that requests come to, and their units
* `SubmittedTogether` — what has become of submissions that run side by side
* `Scene.around` — what a submission can count on while others run
* `submit_together` — every schedule comes to `SubmittedTogether`

## Design Notes

Nothing is locked.  What makes the submissions safe is that entries are only ever made where nothing
is, so that each new entry is one submission's own, and that plans tell the names of directories
from those of files and links.  A submission returns when the temporary file of its failure is gone,
so once all have returned there is none left.

The paths of a plan have to name the same places throughout.  They do, even through links that stand
in place of directories, unless such a link leads nowhere at first: through a directory that one
submission makes it could come to lead somewhere, and what another has made through it could be
neither found nor removed once that directory is gone again (`links_go_astray`).
-/

namespace PartitionUnits

open PartitionUnits.Tree Function

variable {t u v : Tree} {d : Destination} {directory p : Path} {l q : Location} {name : Name}
  {x : Part}

/-- **A plan that a request comes to**: a mount, a mount on access or a swap device. -/
inductive Plan.IsRequested : Plan → Prop where
  | mount {r : MountRequest} {plan : Plan} (h : r.plan.run.value = .ok plan) : IsRequested plan
  | onAccess {r : MountRequest} {idleSeconds : Nat} {plan : Plan}
      (h : (r.planOnAccess idleSeconds).run.value = .ok plan) : IsRequested plan
  | swap {device : String} {plan : Plan} (h : (planSwap device).run.value = .ok plan) :
      IsRequested plan

theorem Plan.IsRequested.isPlain {plan : Plan} (h : plan.IsRequested) : plan.IsPlain := by
  cases h with
  | mount h => exact MountRequest.plan_isPlain _ plan h
  | onAccess h => exact MountRequest.planOnAccess_isPlain _ _ plan h
  | swap h => exact planSwap_isPlain _ plan h

/-- **What a unit of such a plan is**: a mount, a service that unlocks what is mounted, a mount that
is made on access, or a swap device. -/
inductive UnitFile.IsRequested : UnitFile → Prop where
  | mount {r : MountRequest} {name device : String} {fsType : Option String}
      (hname : UnitName.ofPath r.mountPoint ".mount" = .ok name) :
      IsRequested (r.unit name device fsType)
  | service {id source consumer sourceUnit : String} {rw : Bool}
      (hsource : UnitName.ofPath source ".device" = .ok sourceUnit) :
      IsRequested (Unlocking.service id source rw consumer sourceUnit)
  | automount {r : MountRequest} {name : String} {idleSeconds : Nat}
      (hname : UnitName.ofPath r.mountPoint ".automount" = .ok name) :
      IsRequested (r.automountUnit name idleSeconds)
  | swap {device name : String} (hname : UnitName.ofPath device ".swap" = .ok name) :
      IsRequested (swapUnit name device)

theorem MountRequest.units_isRequested (r : MountRequest) :
    Attempt.Ensures r.plan fun plan => ∀ u ∈ plan.units, u.IsRequested := by
  intro plan h
  obtain ⟨name, hname, hplanned⟩ := MountRequest.plan_eq_ok_iff.mp h
  cases hplanned with
  | plain => exact List.forall_mem_singleton.mpr (.mount hname)
  | unlocked _ hsource =>
      exact List.forall_mem_cons.mpr
        ⟨.service hsource, List.forall_mem_singleton.mpr (.mount hname)⟩

theorem Plan.IsRequested.units {plan : Plan} (h : plan.IsRequested) :
    ∀ u ∈ plan.units, u.IsRequested := by
  cases h with
  | mount h => exact MountRequest.units_isRequested _ _ h
  | onAccess h =>
      obtain ⟨inner, name, hinner, hname, rfl⟩ := MountRequest.planOnAccess_eq_ok_iff.mp h
      exact List.forall_mem_append.mpr ⟨MountRequest.units_isRequested _ _ hinner,
        List.forall_mem_singleton.mpr (.automount hname)⟩
  | swap h =>
      obtain ⟨name, hname, rfl⟩ := planSwap_eq_ok_iff.mp h
      exact List.forall_mem_singleton.mpr (.swap hname)

/-- A plan that is to be applied somewhere. -/
structure Submission where
  destination : Destination
  plan : Plan

namespace Submission

/-- What a submission does. -/
def script (c : Submission) : Script (Traced (Except Failure Unit)) := c.destination.submit c.plan

/-- The files and links that a submission is to make, if it can be decided about checks. -/
def entries (c : Submission) : List (Path × Entry) :=
  match (c.destination.render c.plan.units).run.value with
  | .ok rendered => c.destination.entries rendered c.plan.dropIns
  | .error _ => []

/-- The directories that a submission needs for them. -/
def directories (c : Submission) : List Path :=
  match (c.destination.render c.plan.units).run.value with
  | .ok rendered => c.destination.directories rendered c.plan.dropIns
  | .error _ => []

end Submission

/-- Submissions that are about to begin. -/
def sideBySide (submissions : List Submission) (t : Tree) :
    System (Traced (Except Failure Unit)) :=
  { tree := t, scripts := submissions.map Submission.script }

/-- A submission has returned and has succeeded. -/
def System.Succeeded (s : System (Traced (Except Failure Unit))) (i : Nat) : Prop :=
  ∃ r, s.result? i = some r ∧ r.value = .ok ()

/-- Whether a path ends at a link that leads nowhere. -/
def Tree.isDeadLink (t : Tree) (p : Path) : Bool :=
  match t.find false p with
  | .ok (.link _) => !t.existsAt p
  | _ => false

/-- **What has become of submissions that run side by side**: nothing that was there is gone; a
submission that has succeeded has all its files and links, none of which was there before or is
another's; and once all have returned, there are no other new files and links. -/
structure SubmittedTogether (t : Tree) (submissions : List Submission)
    (s : System (Traced (Except Failure Unit))) : Prop where
  kept : t ≤ s.tree
  present : ∀ i c, submissions[i]? = some c → s.Succeeded i → ∀ x ∈ c.entries,
    s.tree.find false x.1 = .ok x.2 ∧ ∀ e, t.find false x.1 ≠ .ok e
  apart : ∀ i j c c', i ≠ j → submissions[i]? = some c → submissions[j]? = some c' →
    s.Succeeded i → s.Succeeded j → ∀ x ∈ c.entries, ∀ y ∈ c'.entries, x.1 ≠ y.1
  exact : (∀ i < submissions.length, ∃ r, s.result? i = some r) →
    ∀ l e, e.isDirectory = false → (s.tree.entry? l = some e ↔ t.entry? l = some e ∨
      ∃ i c, submissions[i]? = some c ∧ s.Succeeded i ∧
        ∃ x ∈ c.entries, x.2 = e ∧ s.tree.locate false x.1 = .ok l)

/-! ## What a submission can count on -/

namespace Scene

/-- **What may be put beside a tree**: anything below where a path leads, but where directories have
their names, only directories. -/
def around (t : Tree) (directory : Path) : Scene where
  tree := t
  allows place e := ∃ l, t.LeadsTo directory l ∧ ∀ n, IsDirectoryName n → IsOrdinaryName n →
    t.entry? (l ++ [n]) = none → place = l ++ [n] → e.isDirectory = true

section

variable (hu : (around t directory).Admits u)
include hu

/-- Where plans are applied cannot come to lead elsewhere. -/
theorem Admits.leadsTo (h : u.LeadsTo directory q) : t.LeadsTo directory q := by
  by_cases hl : ∃ l, t.LeadsTo directory l
  · obtain ⟨l, hl⟩ := hl
    rwa [h.unique (hl.of_le hu.le)]
  · -- If it leads nowhere, nothing is new.
    have hle : u ≤ t := fun l e hentry => (hu.allowed l e hentry).resolve_right
      fun ⟨l', hl', _⟩ => hl ⟨l', hl'⟩
    exact h.of_le hle

/-- Links do not come to stand where directories have their names. -/
theorem Admits.not_link (hl : t.LeadsTo directory l) (hname : IsDirectoryName name)
    (hordinary : IsOrdinaryName name)
    (hlink : ∀ target, t.entry? (l ++ [name]) ≠ some (.link target)) (target : Octets) :
    u.entry? (l ++ [name]) ≠ some (.link target) := by
  intro hentry
  rcases hu.allowed _ _ hentry with hold | ⟨l', hl', hallowed⟩
  · exact hlink target hold
  · obtain rfl := hl.unique hl'
    cases hold : t.entry? (l ++ [name]) with
    | none => exact absurd (hallowed name hname hordinary hold rfl) Bool.false_ne_true
    | some e =>
        rw [entry?_of_le hu.le hold] at hentry
        exact hlink target (hold.trans hentry)

end

/-- Nobody turns the path where plans are applied elsewhere. -/
theorem steady_directory : (around t directory).Steady directory :=
  fun _ _ hu hleads _ hw _ => (hu.leadsTo hleads).of_le hw.le

/-- What does not have the name of a directory is allowed anywhere below where plans are applied. -/
theorem takes_of_not_directory
    (hp : ∀ u q, (around t directory).Admits u → u.LeadsTo p q → ∃ l, u.LeadsTo directory l)
    (hname : IsDirectoryName name → ¬ IsOrdinaryName name) :
    (around t directory).Takes p name := by
  intro u q e hu hleads
  obtain ⟨l, hl⟩ := hp u q hu hleads
  refine ⟨l, hu.leadsTo hl, fun n hn hordinary _ hplace => ?_⟩
  obtain rfl : name = n := (List.cons.inj (List.append_inj' hplace rfl).2).1
  exact absurd hordinary (hname hn)

theorem takesDirectory : (around t directory).TakesDirectory directory name :=
  fun _ q hu hleads => ⟨q, hu.leadsTo hleads, fun _ _ _ _ _ => rfl⟩

end Scene

/-- A link that does not lead nowhere leads somewhere. -/
theorem Tree.exists_of_not_deadLink {target : Octets} (h : t.isDeadLink p = false)
    (hlink : t.find false p = .ok (.link target)) : ∃ e, t.find true p = .ok e := by
  unfold isDeadLink existsAt at h
  rw [hlink] at h
  cases hfind : t.find true p with
  | ok e => exact ⟨e, rfl⟩
  | error err =>
      rw [hfind] at h
      cases h

namespace Scene

/-- **Nobody turns the path to a directory of links or settings elsewhere**, unless it ends at a
link that leads nowhere. -/
theorem steady_join (hname : IsDirectoryName name) (hordinary : IsOrdinaryName name)
    (hlive : t.isDeadLink (directory.join ⟨name⟩) = false)
    (hfault : (directory.join ⟨name⟩).fault? = none) :
    (around t directory).Steady (directory.join ⟨name⟩) := by
  intro u q hu hleads w hw hq
  obtain ⟨l, left, hdirectory, hlast⟩ := hleads.exists_of_join hordinary.isName
  have hl := hu.leadsTo hdirectory
  have hplain := hlast.isPlainName hordinary.isName.ne_dot hordinary.ne_dots
  by_cases hlink : ∃ target, t.entry? (l ++ [name]) = some (.link target)
  · -- A link is there, and it leads where it has always led.
    obtain ⟨target, hentry⟩ := hlink
    have hfind := (hl.find_iff hordinary.isName hordinary.ne_dots).mpr ⟨hfault, hplain, hentry⟩
    obtain ⟨e, he⟩ := exists_of_not_deadLink hlive hfind
    obtain ⟨q', hlocate, hthere⟩ := find_eq_ok_iff.mp he
    obtain ⟨-, hold⟩ := locate_eq_ok_iff.mp hlocate
    rw [Path.steps, hordinary.isName.asksForDirectory_join, if_neg Bool.false_ne_true,
      List.append_nil] at hold
    obtain rfl := (hold.of_le hu.le).unique hleads.leads
    have hdir : t.isDirectoryAt q' = true := by
      rw [isDirectoryAt_congr (hthere.trans (entry?_of_le hu.le hthere).symm)]
      exact hleads.isDirectoryAt
    exact LeadsTo.of_le ⟨hdir, hold⟩ hw.le
  · -- The directory itself is there.
    have hnone := hu.not_link hl hname hordinary fun target h => hlink ⟨target, h⟩
    obtain ⟨rfl, -⟩ := hdirectory.eq_of_join hordinary.isName hordinary.ne_dots hnone hleads
    obtain ⟨mode, hmode⟩ := isDirectoryAt_iff.mp hq
    exact (hl.of_le hw.le).join hordinary.isName hplain hmode

/-- **A plain part can be made beside others.** -/
theorem hosts_of_isPlain (hx : x.IsPlain)
    (hlive : ∀ n, x.directory? = some n → t.isDeadLink (d.directory.join ⟨n⟩) = false) :
    (around t d.directory).Hosts d x := by
  have hway : ∀ u q, (around t d.directory).Admits u → u.LeadsTo (x.homePath d) q →
      ∃ l, u.LeadsTo d.directory l := by
    intro u q _ hleads
    unfold Part.homePath at hleads
    split at hleads
    · exact ⟨q, hleads⟩
    · next n hn =>
        obtain ⟨l, -, hl, -⟩ := hleads.exists_of_join (hx.regular.directory n hn).isName
        exact ⟨l, hl⟩
  refine ⟨hx.regular, fun hfault => ?_, takes_of_not_directory hway fun hn => absurd hn hx.name,
    fun draw => takes_of_not_directory hway fun _ hordinary => hordinary.apart draw rfl,
    fun _ _ => ⟨steady_directory, takesDirectory⟩⟩
  unfold Part.homePath at hfault ⊢
  split at hfault
  · exact steady_directory
  · next n hn =>
      exact steady_join (hx.directory n hn) (hx.regular.directory n hn) (hlive n hn) (hfault n hn)

end Scene

/-! ## Submissions and what they hold -/

/-- **A submission beside others** holds what it was to make, or nothing but directories. -/
theorem Submission.keeps_script (c : Submission) (hplan : c.plan.IsPlain)
    (hlive : ∀ p ∈ c.directories, t.isDeadLink p = false) :
    (Scene.around t c.destination.directory).Keeps
      (fun r => Scene.Submitted (.around t c.destination.directory) c.entries r.value) c.script
      fun _ => none := by
  unfold Submission.script
  cases hrender : (c.destination.render c.plan.units).run.value with
  | error failure => exact Scene.keeps_submit_of_undecided hrender
  | ok rendered =>
      have hdecided := render_eq_ok_iff.mp hrender
      have hentries : c.entries = c.destination.entries rendered c.plan.dropIns := by
        rw [Submission.entries, hrender]
      have hdirectories : c.directories = c.destination.directories rendered c.plan.dropIns := by
        rw [Submission.directories, hrender]
      rw [hentries]
      rw [hdirectories] at hlive
      exact Scene.keeps_submit hrender (hplan.plainParts hdecided) (hplan.expressible hdecided)
        fun x hx => Scene.hosts_of_isPlain (hplan.parts_isPlain hdecided hx)
          fun n hn => hlive _ (directory_mem_directories hx hn)

section

variable {S : Scene} {submissions : List Submission}
  {s : System (Traced (Except Failure Unit))} {own : Nat → Holdings}

/-- Each submission in its turn holds what it was to make, or nothing but directories. -/
abbrev Scene.AllSubmitted (S : Scene) (submissions : List Submission) (i : Nat)
    (r : Traced (Except Failure Unit)) (h : Holdings) : Prop :=
  ∀ c, submissions[i]? = some c → S.Submitted c.entries r.value h

namespace Scene.Sound

variable (h : S.Sound (S.AllSubmitted submissions) s own)
include h

theorem kept_of_succeeded {i : Nat} {c : Submission} (hc : submissions[i]? = some c)
    (hsucceeded : s.Succeeded i) : S.Kept c.entries (own i) := by
  obtain ⟨r, hr, hvalue⟩ := hsucceeded
  have hsubmitted := h.returned hr c hc
  rwa [hvalue] at hsubmitted

/-- What a submission that has succeeded was to make is where its path names it. -/
theorem exists_entry {i : Nat} {c : Submission} (hc : submissions[i]? = some c)
    (hsucceeded : s.Succeeded i) {x : Path × Entry} (hx : x ∈ c.entries) :
    ∃ q name, s.tree.InDirectory x.1 q name ∧ x.1.asksForDirectory = false ∧
      own i (q ++ [name]) = some x.2 := by
  obtain ⟨q, name, hlocates, hheld⟩ := (h.kept_of_succeeded hc hsucceeded).held x hx
  obtain ⟨hin, -⟩ := hlocates.of_held h.admits (h.holds i) hheld
  exact ⟨q, name, hin, hlocates.asksForDirectory, hheld⟩

theorem present {i : Nat} {c : Submission} (hc : submissions[i]? = some c)
    (hsucceeded : s.Succeeded i) {x : Path × Entry} (hx : x ∈ c.entries) :
    s.tree.find false x.1 = .ok x.2 ∧ ∀ e, S.tree.find false x.1 ≠ .ok e := by
  obtain ⟨q, name, hin, hasks, hheld⟩ := h.exists_entry hc hsucceeded hx
  refine ⟨(hin.find_iff hasks).mpr ((h.holds i).there _ _ hheld), fun e hfind => ?_⟩
  obtain ⟨l, hlocate, hentry⟩ := find_eq_ok_iff.mp hfind
  obtain ⟨rfl, -⟩ := (hin.locate_iff hasks).mp (locate_of_le h.le hlocate)
  rw [(h.holds i).new _ _ hheld] at hentry
  cases hentry

/-- No two submissions that have succeeded share a path. -/
theorem paths_apart {i j : Nat} {c c' : Submission} (hne : i ≠ j)
    (hc : submissions[i]? = some c) (hc' : submissions[j]? = some c') (hi : s.Succeeded i)
    (hj : s.Succeeded j) {x y : Path × Entry} (hx : x ∈ c.entries) (hy : y ∈ c'.entries) :
    x.1 ≠ y.1 := by
  intro heq
  obtain ⟨q, name, hin, -, hheld⟩ := h.exists_entry hc hi hx
  obtain ⟨q', name', hin', -, hheld'⟩ := h.exists_entry hc' hj hy
  rw [heq] at hin
  obtain ⟨rfl, rfl⟩ := hin.unique hin'
  rcases h.apart i j hne (q ++ [name]) with hnone | hnone
  · rw [hheld] at hnone
    cases hnone
  · rw [hheld'] at hnone
    cases hnone

/-- Once all submissions have returned, each new file or link is one that a submission was to make
and that has succeeded. -/
theorem exists_of_new (hlength : s.scripts.length = submissions.length)
    (hreturned : ∀ i < submissions.length, ∃ r, s.result? i = some r) {l : Location} {e : Entry}
    (he : e.isDirectory = false) (hentry : s.tree.entry? l = some e) :
    S.tree.entry? l = some e ∨ ∃ i c, submissions[i]? = some c ∧ s.Succeeded i ∧
      ∃ x ∈ c.entries, x.2 = e ∧ s.tree.locate false x.1 = .ok l := by
  rcases h.covered l e hentry with hold | ⟨i, hown⟩
  · exact Or.inl hold
  have hi : i < submissions.length := by
    by_contra hi
    have hnone := h.idle i (List.getElem?_eq_none (by omega)) l
    rw [hown] at hnone
    cases hnone
  have hc := List.getElem?_eq_getElem hi
  obtain ⟨r, hr⟩ := hreturned i hi
  have hsubmitted := h.returned hr _ hc
  cases hvalue : r.value with
  | error failure =>
      rw [hvalue] at hsubmitted
      rw [hsubmitted l e hown] at he
      cases he
  | ok =>
      have hsucceeded : s.Succeeded i := ⟨r, hr, hvalue⟩
      rcases (h.kept_of_succeeded hc hsucceeded).rest l e hown with
        hdirectory | ⟨x, hx, q, name, hlocates, rfl, rfl⟩
      · rw [hdirectory] at he
        cases he
      · obtain ⟨hin, hentry⟩ := hlocates.of_held h.admits (h.holds i) hown
        exact Or.inr ⟨i, _, hc, hsucceeded, x, hx, rfl,
          (hin.locate_iff hlocates.asksForDirectory).mpr ⟨rfl, _, hentry⟩⟩

/-- **What has become of submissions that keep to what they hold.** -/
theorem submittedTogether (hlength : s.scripts.length = submissions.length) :
    SubmittedTogether S.tree submissions s where
  kept := h.le
  present := fun _ _ hc hsucceeded _ hx => h.present hc hsucceeded hx
  apart := fun _ _ _ _ hne hc hc' hi hj _ hx _ hy => h.paths_apart hne hc hc' hi hj hx hy
  exact := by
    intro hreturned l e he
    constructor
    · exact h.exists_of_new hlength hreturned he
    · rintro (hold | ⟨i, c, hc, hsucceeded, x, hx, rfl, hlocate⟩)
      · exact entry?_of_le h.le hold
      · obtain ⟨l', hlocate', hentry⟩ := find_eq_ok_iff.mp (h.present hc hsucceeded hx).1
        rw [hlocate] at hlocate'
        cases hlocate'
        exact hentry

end Scene.Sound

end

/-- **Submissions side by side.**  However many submissions of requested plans run in one directory,
and whatever the order of their steps, those that succeed have all their files and links, those that
fail have none of their own, and nothing that was there or is another's is removed or replaced. -/
theorem submit_together {submissions : List Submission} (hwf : t.WellFormed)
    (hdirectory : ∀ c ∈ submissions, c.destination.directory = directory)
    (hrequested : ∀ c ∈ submissions, c.plan.IsRequested)
    (hlive : ∀ c ∈ submissions, ∀ p ∈ c.directories, t.isDeadLink p = false)
    (schedule : List Nat) :
    SubmittedTogether t submissions ((sideBySide submissions t).run schedule) := by
  have hstart : (Scene.around t directory).Sound
      ((Scene.around t directory).AllSubmitted submissions) (sideBySide submissions t)
      fun _ _ => none := by
    refine .start hwf fun i script hscript => ?_
    rw [List.getElem?_map] at hscript
    obtain ⟨c, hc, rfl⟩ := Option.map_eq_some_iff.mp hscript
    have hmem := List.mem_of_getElem? hc
    rw [← hdirectory c hmem]
    refine (c.keeps_script (hrequested c hmem).isPlain (hlive c hmem)).mono ?_
    intro r h hsub c' hc'
    rw [hc] at hc'
    cases hc'
    exact hsub
  obtain ⟨own, hsound⟩ := hstart.run schedule
  refine hsound.submittedTogether ?_
  rw [System.length_scripts_run]
  exact List.length_map _

/-- A home partition on another disk, which is not encrypted. -/
def otherHome : MountRequest := { encryptedHome with device := "/dev/sdb1", fsType := some "ext4" }

/-- Submissions of two partitions that are both to be mounted at `/home`. -/
def rivals : List Submission :=
  [⟨bareDestination, encryptedHomePlan⟩,
    ⟨bareDestination, { units := [otherHome.unit "home.mount" "/dev/sdb1" (some "ext4")] }⟩]

/-- Two submissions take turns. -/
def alternately : List Nat := (List.replicate 16 [0, 1]).flatten

/-- Of two partitions for `/home`, one is mounted there, and nothing is left of the plan for the
other. -/
theorem rivals_submitted :
    (∀ c ∈ rivals, c.plan.IsRequested) ∧
      (∀ c ∈ rivals, ∀ p ∈ c.directories, bareTree.isDeadLink p = false) ∧
      (((sideBySide rivals bareTree).run alternately).result? 0).map (·.value.isOk) = some false ∧
      (((sideBySide rivals bareTree).run alternately).result? 1).map (·.value.isOk) = some true ∧
      SubmittedTogether bareTree rivals ((sideBySide rivals bareTree).run alternately) := by
  have hmount : UnitName.ofPath "/home" ".mount" = .ok "home.mount" := by decide +kernel
  have hrequested : ∀ c ∈ rivals, c.plan.IsRequested := by
    intro c hc
    rcases List.mem_cons.mp hc with rfl | hc
    · exact .mount encryptedHome_plan
    · rw [List.mem_singleton.mp hc]
      exact .mount (r := otherHome)
        (MountRequest.plan_eq_ok_iff.mpr ⟨"home.mount", hmount, .plain (by decide)⟩)
  have hlive : ∀ c ∈ rivals, ∀ p ∈ c.directories, bareTree.isDeadLink p = false := by
    decide +kernel
  have hdirectory : ∀ c ∈ rivals, c.destination.directory = bareDestination.directory := by
    intro c hc
    rcases List.mem_cons.mp hc with rfl | hc
    · rfl
    · rw [List.mem_singleton.mp hc]
  exact ⟨hrequested, hlive, by decide +kernel, by decide +kernel,
    submit_together bareTree_wellFormed hdirectory hrequested hlive alternately⟩

/-! ## Through links -/

/-- A location below where plans are applied. -/
def belowDest (names : List String) : Location :=
  Text.encode "dest".toList :: names.map fun name => Text.encode name.toList

/-- An encrypted partition for server data. -/
def encryptedSrv : MountRequest :=
  { encryptedHome with id := "srv", device := "/dev/sdb1", mountPoint := "/srv" }

/-- What mounting it comes to. -/
def encryptedSrvPlan : Plan where
  units := [Unlocking.service "srv" "/dev/sdb1" true "srv.mount" "dev-sdb1.device",
    encryptedSrv.unit "srv.mount" "/dev/mapper/srv" none]
  dropIns := [Unlocking.noTimeout "srv"]

/-- Submissions of two encrypted partitions. -/
def lockedPair : List Submission :=
  [⟨bareDestination, encryptedHomePlan⟩, ⟨bareDestination, encryptedSrvPlan⟩]

/-- A destination in which the links for the device of one partition would go through the settings
for the other one, which are not there yet, and in which neither of the two can be mounted. -/
def windingTree : Tree :=
  let taken : Entry := .link (Text.encode "elsewhere".toList)
  ⟨[(belowDest [], .directory directoryMode),
    (belowDest ["real"], .directory directoryMode),
    (belowDest ["dev-sda3.device.wants"],
      .link (Text.encode "dev-mapper-srv.device.d/../real".toList)),
    (belowDest ["local-fs.target.requires"], .directory directoryMode),
    (belowDest ["local-fs.target.requires", "home.mount"], taken),
    (belowDest ["local-fs.target.requires", "srv.mount"], taken)]⟩

/-- The second submission makes its directory of settings and the first one makes a link through it;
then the second one returns, and the first one after it. -/
def windingEnd : System (Traced (Except Failure Unit)) :=
  (sideBySide lockedPair windingTree).run
    (List.replicate 9 1 ++ List.replicate 16 0 ++ List.replicate 40 1 ++ List.replicate 40 0)

/-- A destination whose links for swap devices are kept elsewhere. -/
def outsideTree : Tree :=
  ⟨[(belowDest [], .directory directoryMode),
    (belowDest ["swap.target.wants"], .link (Text.encode "/elsewhere".toList)),
    ([Text.encode "elsewhere".toList], .directory directoryMode)]⟩

/-- A swap device is set up there. -/
def outsideEnd : System (Traced (Except Failure Unit)) :=
  (sideBySide [⟨bareDestination, { units := [swapUnit "dev-sda2.swap" "/dev/sda2"] }⟩]
    outsideTree).run (List.replicate 40 0)

set_option maxRecDepth 10000 in
/-- **Through links, submissions leave other things than what is in their plans.**  A link that
leads nowhere at first can be a way for as long as another submission has not failed; what was made
on that way stays though all submissions fail.  And what is made through a link that leads elsewhere
is not where the plan is applied. -/
theorem links_go_astray :
    ((∀ c ∈ lockedPair, c.plan.IsRequested) ∧ windingTree.WellFormed ∧
      (∀ i < 2, (windingEnd.result? i).map (·.value.isOk) = some false) ∧
      windingTree.entry? (belowDest ["real", "systemd-cryptsetup@home.service"]) = none ∧
      windingEnd.tree.entry? (belowDest ["real", "systemd-cryptsetup@home.service"]) =
        some (.link (Text.encode "../systemd-cryptsetup@home.service".toList))) ∧
    Plan.IsRequested { units := [swapUnit "dev-sda2.swap" "/dev/sda2"] } ∧
      outsideTree.WellFormed ∧ (outsideEnd.result? 0).map (·.value.isOk) = some true ∧
      outsideEnd.tree.entry? (belowDest ["swap.target.wants", "dev-sda2.swap"]) = none ∧
      outsideEnd.tree.entry? [Text.encode "elsewhere".toList, Text.encode "dev-sda2.swap".toList] =
        some (.link (Text.encode "../dev-sda2.swap".toList)) := by
  have hmount : UnitName.ofPath "/srv" ".mount" = .ok "srv.mount" := by decide +kernel
  have hsource : UnitName.ofPath "/dev/sdb1" ".device" = .ok "dev-sdb1.device" := by
    decide +kernel
  have hswap : UnitName.ofPath "/dev/sda2" ".swap" = .ok "dev-sda2.swap" := by decide +kernel
  have hrequested : ∀ c ∈ lockedPair, c.plan.IsRequested := by
    intro c hc
    rcases List.mem_cons.mp hc with rfl | hc
    · exact .mount encryptedHome_plan
    · rw [List.mem_singleton.mp hc]
      exact .mount (r := encryptedSrv)
        (MountRequest.plan_eq_ok_iff.mpr ⟨"srv.mount", hmount, .unlocked rfl hsource⟩)
  exact ⟨⟨hrequested, .of_entries (by decide +kernel), by decide +kernel⟩,
    .swap (planSwap_eq_ok_iff.mpr ⟨"dev-sda2.swap", hswap, rfl⟩),
    .of_entries (by decide +kernel), by decide +kernel⟩

end PartitionUnits
