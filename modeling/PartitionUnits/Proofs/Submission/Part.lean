import PartitionUnits.Proofs.FileSystem.Place
import PartitionUnits.Proofs.Submission.Atomicity
import PartitionUnits.Proofs.Submission.Completion
import PartitionUnits.Proofs.Submission.Footprint

/-!
# The parts of a plan

A plan comes to files and links, each at a place of its own below the directory that plans are
applied in.  Whether they can be made depends on those places, and making them changes nothing but
those places.

## Main Definitions

* `Part` — a file or a link, with its place
* `Part.Fits`, `Part.lay` — what making a part needs, and the tree with it
* `Part.Strays` — what it takes for a part to leave a temporary file
* `Part.IsRegular`, `Destination.LiesAt` — what is asked of names, and of where plans are applied
* `PartVerdict`, `Destination.LiesAt.part_verdict` — what making a part comes to, with the reasons

## Design Notes

`Completes` and `Stops` speak of runs, `Fits` and `lay` of entries.  Two trees that have the same
entries at the places of a plan can be compared by the latter, whatever else they differ in.
-/

namespace PartitionUnits

open PartitionUnits.Tree

variable {t u v : Tree} {d : Destination} {l q : Location} {name : Name} {p : Path}

/-! ## Directories that are made if they are not there -/

namespace Tree

/-- Nothing but a directory is at a location. -/
def IsOpen (t : Tree) (l : Location) : Prop := ∀ e, t.entry? l = some e → e.isDirectory = true

theorem isOpen_of_isDirectoryAt (h : t.isDirectoryAt l = true) : t.IsOpen l := by
  intro e hentry
  rwa [isDirectoryAt, hentry] at h

/-- The tree with a directory at a location, unless something is there. -/
def withDirectory (t : Tree) (l : Location) : Tree :=
  if t.entry? l = none then t.insert l (.directory directoryMode) else t

theorem le_withDirectory : t ≤ t.withDirectory l := by
  unfold withDirectory
  split
  · next hvacant => exact le_insert hvacant
  · exact le_refl t

theorem entry?_withDirectory_of_ne {l' : Location} (h : l' ≠ l) :
    Tree.entry? (t.withDirectory l) l' = t.entry? l' := by
  unfold withDirectory
  split
  · exact entry?_insert_of_ne h
  · rfl

theorem isDirectoryAt_withDirectory (h : t.IsOpen l) :
    (t.withDirectory l).isDirectoryAt l = true := by
  unfold withDirectory
  split
  · next hvacant =>
      exact isDirectoryAt_iff.mpr ⟨_, entry?_insert_self (ne_nil_of_entry?_eq_none hvacant)⟩
  · next hthere =>
      obtain ⟨e, hentry⟩ := Option.ne_none_iff_exists'.mp hthere
      rw [isDirectoryAt, hentry]
      exact h e hentry

/-- One name leads from a directory to the entry of that name, unless that is a link. -/
theorem Leads.eq_of_no_link {follow : Bool} {links : Nat}
    (h : t.Leads follow links q [name] l) (hname : Path.IsName name) (hdots : name ≠ [dot, dot])
    (hlink : ∀ target, t.entry? (q ++ [name]) ≠ some (.link target)) :
    l = q ++ [name] ∧ IsPlainName name := by
  cases h.lastStep with
  | stay hdot => exact absurd hdot hname.ne_dot
  | up hdots' => exact absurd hdots' hdots
  | entry hplain _ hl => exact ⟨hl, hplain⟩
  | through _ hentry => exact absurd hentry (hlink _)

namespace LeadsTo

/-- A path to a directory and a name in it lead to the entry of that name. -/
theorem locate_join (h : t.LeadsTo p q) (hname : Path.IsName name) (hdots : name ≠ [dot, dot])
    (hlink : ∀ target, t.entry? (q ++ [name]) ≠ some (.link target)) {follow : Bool}
    (hlocate : t.locate follow (p.join ⟨name⟩) = .ok l) :
    (p.join ⟨name⟩).fault? = none ∧ IsPlainName name ∧ l = q ++ [name] := by
  obtain ⟨hfault, hleads⟩ := locate_eq_ok_iff.mp hlocate
  rw [Path.steps, hname.asksForDirectory_join, if_neg Bool.false_ne_true, List.append_nil,
    hname.names_join] at hleads
  obtain ⟨left, q', hfirst, hlast⟩ := hleads.split (by simp)
  rw [hfirst.unique h.leads] at hlast
  obtain ⟨hl, hplain⟩ := hlast.eq_of_no_link hname hdots hlink
  exact ⟨hfault, hplain, hl⟩

/-- A directory below a path to a directory is the entry of its name. -/
theorem eq_of_join (h : t.LeadsTo p q) (hname : Path.IsName name) (hdots : name ≠ [dot, dot])
    (hlink : ∀ target, t.entry? (q ++ [name]) ≠ some (.link target))
    (h' : t.LeadsTo (p.join ⟨name⟩) l) : l = q ++ [name] ∧ IsPlainName name := by
  have hleads := h'.leads
  rw [hname.names_join] at hleads
  obtain ⟨left, q', hfirst, hlast⟩ := hleads.split (by simp)
  rw [hfirst.unique h.leads] at hlast
  exact hlast.eq_of_no_link hname hdots hlink

/-- A directory is there after it was made sure of. -/
theorem run_ensureDirectory (h : t.LeadsTo p q) (hname : Path.IsName name)
    (hfault : (p.join ⟨name⟩).fault? = none) (hplain : IsPlainName name)
    (hopen : t.IsOpen (q ++ [name])) :
    ∃ artifact?, (Action.ensureDirectory (p.join ⟨name⟩)).perform.run t =
      (.ok artifact?, t.withDirectory (q ++ [name])) := by
  rw [Action.perform, Script.run_perform_bind]
  cases hentry : t.entry? (q ++ [name]) with
  | none =>
      rw [h.apply_makeDirectory hname ⟨hfault, hplain, hentry⟩, withDirectory, if_pos hentry]
      exact ⟨_, rfl⟩
  | some e =>
      have htaken := h.vacancy_of_taken hname hfault hplain hentry
      have hattempt : t.attempt (.makeDirectory (p.join ⟨name⟩)) = .error .alreadyExists := by
        simp [attempt, makeDirectory, htaken, bind, Except.bind, answerAt, Except.map]
      obtain ⟨mode, hmode⟩ : ∃ mode, e = .directory mode := by
        cases e with
        | directory mode => exact ⟨mode, rfl⟩
        | file mode content => exact absurd (hopen _ hentry) Bool.false_ne_true
        | link target => exact absurd (hopen _ hentry) Bool.false_ne_true
      rw [hmode] at hentry
      have hin := (h.inDirectory_iff hname).mpr ⟨hfault, hplain, rfl, rfl⟩
      have hthere : t.isDirectory (p.join ⟨name⟩) = true :=
        isDirectory_iff.mpr ⟨_, mode, hin.locate_directory hentry, hentry⟩
      rw [apply_eq_of_attempt_error hattempt, withDirectory, if_neg (by simp [hentry])]
      simp only [if_true]
      rw [Script.run_perform_bind, apply_checkDirectory, if_pos hthere]
      exact ⟨_, rfl⟩

/-- What cannot be made sure of is refused. -/
theorem ensureDirectory_refused (h : t.LeadsTo p q) (hname : Path.IsName name)
    (hdots : name ≠ [dot, dot]) (hlink : ∀ target, t.entry? (q ++ [name]) ≠ some (.link target))
    (hnot : ¬ ((p.join ⟨name⟩).fault? = none ∧ IsPlainName name ∧ t.IsOpen (q ++ [name]))) :
    ∃ aborted, (Action.ensureDirectory (p.join ⟨name⟩)).perform.run t = (.error aborted, t) ∧
      aborted.temporary = none := by
  generalize hrun : (Action.ensureDirectory (p.join ⟨name⟩)).perform.run t = ended
  obtain ⟨result, v⟩ := ended
  rcases perform_ensureDirectory_outcome hrun with ⟨made, rfl, hdone⟩ | ⟨aborted, rfl, hfailed⟩
  · refine absurd ?_ hnot
    cases hdone with
    | made hproduct hmade =>
        cases hproduct
        obtain ⟨hfault, hplain, rfl, rfl⟩ := (h.inDirectory_iff hname).mp hmade.inDirectory
        refine ⟨hfault, hplain, fun e hentry => ?_⟩
        rw [hmade.vacant] at hentry
        cases hentry
    | there ha hthere =>
        cases ha
        obtain ⟨l, mode, hlocate, hentry⟩ := isDirectory_iff.mp hthere
        obtain ⟨hfault, hplain, rfl⟩ := h.locate_join hname hdots hlink hlocate
        refine ⟨hfault, hplain, fun e he => ?_⟩
        rw [hentry] at he
        cases he
        rfl
  · cases hfailed with
    | refused howned => exact ⟨aborted, rfl, howned⟩
    | stray ha => cases ha

end LeadsTo

end Tree

/-! ## Parts -/

/-- What a part of a plan is. -/
inductive PartBody where
  | file (content : String)
  | link (target : Path)
deriving DecidableEq, Repr

/-- **A file or a link of a plan** with its place: a name in the directory that plans are applied
in, or in a directory that is directly in that one. -/
structure Part where
  directory? : Option Name := none
  name : Name
  body : PartBody
deriving DecidableEq, Repr

namespace Part

/-- The entry of a part. -/
def entry (x : Part) : Entry :=
  match x.body with
  | .file content => textFile content
  | .link target => .link target.octets

theorem isDirectory_entry (x : Part) : x.entry.isDirectory = false := by
  unfold entry
  split <;> rfl

/-- The location of the directory of a part. -/
def home (x : Part) (l : Location) : Location := l ++ x.directory?.toList

/-- The location of a part. -/
def place (x : Part) (l : Location) : Location := x.home l ++ [x.name]

/-- The path to the directory of a part. -/
def homePath (x : Part) (d : Destination) : Path :=
  match x.directory? with
  | none => d.directory
  | some n => d.directory.join ⟨n⟩

/-- The path of a part. -/
def path (x : Part) (d : Destination) : Path := (x.homePath d).join ⟨x.name⟩

theorem place_eq (x : Part) (l : Location) : x.place l = l ++ x.place [] := by
  simp only [place, home, List.nil_append, List.append_assoc]

theorem homePath_congr {d' : Destination} (h : d'.directory = d.directory) (x : Part) :
    x.homePath d' = x.homePath d := by
  unfold homePath
  rw [h]

theorem path_congr {d' : Destination} (h : d'.directory = d.directory) (x : Part) :
    x.path d' = x.path d := by
  unfold path
  rw [homePath_congr h]

/-- What makes a part. -/
def action (x : Part) (d : Destination) : Action :=
  match x.body with
  | .file content => .makeFile (x.path d) content (d.draws (x.path d))
  | .link target => .makeLink target (x.path d)

/-- What makes the directory of a part. -/
def directoryActions (x : Part) (d : Destination) : List Action :=
  x.directory?.toList.map fun n => .ensureDirectory (d.directory.join ⟨n⟩)

/-- What makes a part and its directory. -/
def actions (x : Part) (d : Destination) : List Action := x.directoryActions d ++ [x.action d]

/-- The tree with the directory of a part. -/
def ground (x : Part) (l : Location) (t : Tree) : Tree :=
  match x.directory? with
  | none => t
  | some n => t.withDirectory (l ++ [n])

/-- **The tree with a part and its directory.** -/
def lay (x : Part) (l : Location) (t : Tree) : Tree :=
  (x.ground l t).insert (x.place l) x.entry

/-- The directory of a part can be made, unless it is there. -/
def Opens (x : Part) (d : Destination) (l : Location) (t : Tree) : Prop :=
  ∀ n, x.directory? = some n →
    (d.directory.join ⟨n⟩).fault? = none ∧ IsPlainName n ∧ t.IsOpen (l ++ [n])

/-- What comes before a part gets its name can be done: a temporary file can be made for a file,
and the target of a link can be written. -/
def Ready (x : Part) (d : Destination) (l : Location) (t : Tree) : Prop :=
  match x.body with
  | .file _ => (x.path d).TakesTemporary ∧ t.HasDraw (x.home l) (d.draws (x.path d))
  | .link target => target.fault? = none

/-- **A part can be made.** -/
structure Fits (x : Part) (d : Destination) (l : Location) (t : Tree) : Prop where
  opens : x.Opens d l t
  ready : x.Ready d l t
  fits : t.Fits (x.homePath d) (x.home l) x.name

/-- **A part leaves a temporary file**: the temporary file can be made, but the part cannot get
its name. -/
structure Strays (x : Part) (d : Destination) (l : Location) (t : Tree) : Prop where
  file : ∃ content, x.body = .file content
  opens : x.Opens d l t
  ready : x.Ready d l t
  stuck : ¬ t.Fits (x.homePath d) (x.home l) x.name

end Part

/-- A name that is neither special nor that of a temporary file. -/
structure IsOrdinaryName (name : Name) : Prop where
  isName : Path.IsName name
  ne_dots : name ≠ [dot, dot]
  apart : ∀ draw : Draw, draw.name ≠ name

/-- **A part with ordinary names**; links are never directly in the directory that plans are
applied in. -/
structure Part.IsRegular (x : Part) : Prop where
  name : IsOrdinaryName x.name
  directory : ∀ n, x.directory? = some n → IsOrdinaryName n
  sheltered : ∀ target, x.body = .link target → x.directory? ≠ none

/-- **Plans are applied here**: the destination leads to a directory with no link directly in
it. -/
structure Destination.LiesAt (d : Destination) (t : Tree) (l : Location) : Prop where
  wellFormed : t.WellFormed
  leads : t.LeadsTo d.directory l
  noLink : ∀ name target, t.entry? (l ++ [name]) ≠ some (.link target)

/-! ## What laying a part changes -/

namespace Part

variable {x : Part}

theorem le_ground : t ≤ x.ground l t := by
  unfold ground
  split
  · exact le_refl t
  · exact le_withDirectory

/-- The directory of a part is not where the part is. -/
theorem entry?_ground_of_ne {l' : Location} (h : l' ≠ x.home l ∨ x.directory? = none) :
    Tree.entry? (x.ground l t) l' = t.entry? l' := by
  unfold ground
  unfold home at h
  split
  · rfl
  · next n hn =>
      simp only [hn, Option.toList_some, reduceCtorEq, or_false] at h
      exact entry?_withDirectory_of_ne h

theorem entry?_ground_below (l' : Name) :
    Tree.entry? (x.ground l t) (x.home l ++ [l']) = t.entry? (x.home l ++ [l']) :=
  entry?_ground_of_ne (Or.inl (by simp))

theorem entry?_lay_self : Tree.entry? (x.lay l t) (x.place l) = some x.entry :=
  entry?_insert_self (by simp [place])

theorem entry?_lay_of_ne {l' : Location} (hplace : l' ≠ x.place l)
    (hhome : l' ≠ x.home l ∨ x.directory? = none) : Tree.entry? (x.lay l t) l' = t.entry? l' :=
  (entry?_insert_of_ne hplace).trans (entry?_ground_of_ne hhome)

namespace Fits

theorem vacant (h : x.Fits d l t) : Tree.entry? (x.ground l t) (x.place l) = none :=
  (entry?_ground_below x.name).trans h.fits.vacant

theorem le_lay (h : x.Fits d l t) : t ≤ x.lay l t := le_trans le_ground (le_insert h.vacant)

end Fits

theorem Opens.isDirectoryAt_ground (h : x.Opens d l t) (hl : t.isDirectoryAt l = true) :
    (x.ground l t).isDirectoryAt (x.home l) = true := by
  unfold ground home
  split
  · next hn =>
      rw [hn, Option.toList_none, List.append_nil]
      exact hl
  · next n hn =>
      rw [hn]
      exact isDirectoryAt_withDirectory (h n hn).2.2

/-- The directory of a part is there once the part is. -/
theorem Fits.isDirectoryAt_lay (h : x.Fits d l t) (hl : t.isDirectoryAt l = true) :
    (x.lay l t).isDirectoryAt (x.home l) = true :=
  isDirectoryAt_of_le (le_insert h.vacant) (h.opens.isDirectoryAt_ground hl)

theorem hasDraw_ground {draws : List Draw} :
    (x.ground l t).HasDraw (x.home l) draws ↔ t.HasDraw (x.home l) draws := by
  unfold HasDraw
  simp only [entry?_ground_below]

theorem fits_ground : (x.ground l t).Fits (x.homePath d) (x.home l) x.name ↔
    t.Fits (x.homePath d) (x.home l) x.name := by
  constructor
  · exact fun h => ⟨h.fault, h.plain, (entry?_ground_below x.name).symm.trans h.vacant⟩
  · exact fun h => ⟨h.fault, h.plain, (entry?_ground_below x.name).trans h.vacant⟩

end Part

/-! ## Making one part -/

/-- **The temporary file that a failure owns** has its name in the directory that a path leads
to. -/
structure OwnsTemporary (aborted : Aborted) (file : Path) (draw : Draw) (p : Path) : Prop where
  owned : aborted.temporary = some file
  inDirectory : ∀ (t : Tree) q, t.LeadsTo p q → t.InDirectory file q draw.name
  asksForDirectory : file.asksForDirectory = false

/-- **What making a part comes to**, with the reasons. -/
inductive PartVerdict (x : Part) (d : Destination) (l : Location) (t : Tree) : Prop where
  | laid {made : List Artifact} (hfits : x.Fits d l t)
      (h : Completes t (x.actions d) made (x.lay l t))
  | refused {made : List Artifact} {u v : Tree} {aborted : Aborted} (hnot : ¬ x.Fits d l t)
      (hgone : ¬ x.Strays d l t) (h : Stops t (x.actions d) made u aborted v)
      (howned : aborted.temporary = none)
  | stray {made : List Artifact} {aborted : Aborted} {file : Path} {draw : Draw}
      (hstrays : x.Strays d l t)
      (h : Stops t (x.actions d) made (x.ground l t) aborted
        ((x.ground l t).insert (x.home l ++ [draw.name]) x.entry))
      (howns : OwnsTemporary aborted file draw (x.homePath d))
      (hvacant : Tree.entry? (x.ground l t) (x.home l ++ [draw.name]) = none)

namespace Part

variable {x : Part}

/-- The directory of a part can be made sure of, and the path to it leads there. -/
theorem Opens.completes (h : x.Opens d l t) (hl : d.LiesAt t l) (hx : x.IsRegular) :
    (∃ made, Completes t (x.directoryActions d) made (x.ground l t)) ∧
      (x.ground l t).LeadsTo (x.homePath d) (x.home l) := by
  cases hn : x.directory? with
  | none =>
      simp only [directoryActions, ground, homePath, home, hn, Option.toList_none, List.map_nil,
        List.append_nil]
      exact ⟨⟨[], .nil⟩, hl.leads⟩
  | some n =>
      have hname := (hx.directory n hn).isName
      obtain ⟨hfault, hplain, hopen⟩ := h n hn
      simp only [directoryActions, ground, homePath, home, hn, Option.toList_some, List.map_cons,
        List.map_nil]
      obtain ⟨artifact?, hrun⟩ := hl.leads.run_ensureDirectory hname hfault hplain hopen
      refine ⟨⟨_, .singleton hrun⟩, ?_⟩
      obtain ⟨mode, hmode⟩ := isDirectoryAt_iff.mp (isDirectoryAt_withDirectory hopen)
      exact (hl.leads.of_le le_withDirectory).join hname hplain hmode

/-- A part is refused if its directory cannot be made sure of. -/
theorem refused_of_not_opens (h : ¬ x.Opens d l t) (hl : d.LiesAt t l) (hx : x.IsRegular) :
    ∃ aborted, Stops t (x.directoryActions d) [] t aborted t ∧ aborted.temporary = none := by
  unfold Opens at h
  push Not at h
  obtain ⟨n, hn, hnot⟩ := h
  have hname := hx.directory n hn
  obtain ⟨aborted, hrun, howned⟩ := hl.leads.ensureDirectory_refused hname.isName hname.ne_dots
    (hl.noLink n) (fun ⟨hfault, hplain, hopen⟩ => hnot hfault hplain hopen)
  rw [directoryActions, hn]
  exact ⟨aborted, .of_perform hrun, howned⟩

theorem run_makeFile_of_ok {file : Path} {content : String} {draws : List Draw}
    (h : (newFile file (Text.encode content.toList) draws).run t = (.ok (), u)) :
    (Action.makeFile file content draws).perform.run t = (.ok (some (.file file)), u) := by
  rw [Action.perform, Script.run_bind, h]
  rfl

theorem run_makeFile_of_error {file : Path} {content : String} {draws : List Draw} {a : Aborted}
    (h : (newFile file (Text.encode content.toList) draws).run t = (.error a, u)) :
    ∃ aborted, (Action.makeFile file content draws).perform.run t = (.error aborted, u) ∧
      aborted.temporary = a.temporary := by
  rw [Action.perform, Script.run_bind, h]
  exact ⟨_, rfl, rfl⟩

/-- What making a file comes to, once its directory is there. -/
theorem file_verdict {content : String} {made : List Artifact} (hbody : x.body = .file content)
    (hx : x.IsRegular) (hopens : x.Opens d l t)
    (hground : Completes t (x.directoryActions d) made (x.ground l t))
    (hleads : (x.ground l t).LeadsTo (x.homePath d) (x.home l)) : PartVerdict x d l t := by
  have haction : x.action d = .makeFile (x.path d) content (d.draws (x.path d)) := by
    rw [action, hbody]
  have hentry : x.entry = .file fileMode (.octets (Text.encode content.toList)) := by
    rw [entry, hbody]
    rfl
  have hready : x.Ready d l t ↔ (x.path d).TakesTemporary ∧
      (x.ground l t).HasDraw (x.home l) (d.draws (x.path d)) := by
    rw [Ready, hbody, hasDraw_ground]
  generalize hrun : (newFile (x.path d) (Text.encode content.toList)
    (d.draws (x.path d))).run (x.ground l t) = ended
  obtain ⟨result, u⟩ := ended
  cases hleads.newFile_verdict hx.name.isName hx.name.apart hrun with
  | made htakes hdraw hfits =>
      have hperform := run_makeFile_of_ok hrun
      rw [← haction, ← hentry] at hperform
      exact .laid ⟨hopens, hready.mpr ⟨htakes, hdraw⟩, fits_ground.mp hfits⟩
        (hground.append (.singleton hperform))
  | refused hnot howned =>
      obtain ⟨aborted, hperform, hsame⟩ := run_makeFile_of_error hrun
      rw [← haction] at hperform
      exact .refused (fun hall => hnot (hready.mp hall.ready))
        (fun hstrays => hnot (hready.mp hstrays.ready))
        (.after_completes hground (.of_perform hperform)) (hsame.trans howned)
  | stray htakes hdraw hnot howned hin hasks hvacant =>
      obtain ⟨aborted, hperform, hsame⟩ := run_makeFile_of_error hrun
      rw [← haction, ← hentry] at hperform
      exact .stray ⟨⟨content, hbody⟩, hopens, hready.mpr ⟨htakes, hdraw⟩,
        fun hfits => hnot (fits_ground.mpr hfits)⟩
        (.after_completes hground (.of_perform hperform))
        ⟨hsame.trans howned, hin, hasks⟩ hvacant

/-- What making a link comes to, once its directory is there. -/
theorem link_verdict {target : Path} {made : List Artifact} (hbody : x.body = .link target)
    (hx : x.IsRegular) (hopens : x.Opens d l t)
    (hground : Completes t (x.directoryActions d) made (x.ground l t))
    (hleads : (x.ground l t).LeadsTo (x.homePath d) (x.home l)) : PartVerdict x d l t := by
  have haction : x.action d = .makeLink target (x.path d) := by
    rw [action, hbody]
  have hentry : x.entry = .link target.octets := by
    rw [entry, hbody]
  have hready : x.Ready d l t ↔ target.fault? = none := by
    rw [Ready, hbody]
  generalize hrun : (x.action d).perform.run (x.ground l t) = ended
  obtain ⟨result, u⟩ := ended
  by_cases hall : x.Fits d l t
  · have happly := hleads.apply_makeLink hx.name.isName (fits_ground.mpr hall.fits)
      (hready.mp hall.ready)
    have hperform : (x.action d).perform.run (x.ground l t) =
        (.ok (some (.file (x.path d))), x.lay l t) := by
      rw [haction, Action.perform, Script.run_perform_bind, path, happly, lay, hentry]
      rfl
    exact .laid hall (hground.append (.singleton hperform))
  · rcases perform_outcome hrun with ⟨made', rfl, hdone⟩ | ⟨aborted, rfl, hfailed⟩
    · refine absurd ?_ hall
      rw [haction, Action.perform, Script.run_perform_bind] at hrun
      rcases (x.ground l t).apply_cases (c := .makeLink target (x.path d)) rfl with
        ⟨err, -, happly⟩ | ⟨final, hmake, happly⟩
      · rw [happly] at hrun
        cases hrun
      · have htarget : target.fault? = none := by
          unfold makeLink at hmake
          split at hmake
          · cases hmake
          · assumption
        obtain ⟨q, name, hin, -, hvacant, -⟩ := makeLink_eq_ok hmake
        obtain ⟨hfault, hplain, rfl, rfl⟩ := (hleads.inDirectory_iff hx.name.isName).mp hin
        exact ⟨hopens, hready.mpr htarget, fits_ground.mp ⟨hfault, hplain, hvacant⟩⟩
    · rw [haction] at hfailed hrun
      cases hfailed with
      | refused howned =>
          rw [← haction] at hrun
          refine .refused hall ?_ (.after_completes hground (.of_perform hrun)) howned
          rintro ⟨⟨content, hfile⟩, -, -, -⟩
          rw [hbody] at hfile
          cases hfile
      | stray ha => cases ha

end Part

/-- **Whether a part can be made depends on its places only.** -/
theorem Destination.LiesAt.part_verdict {x : Part} (hl : d.LiesAt t l) (hx : x.IsRegular) :
    PartVerdict x d l t := by
  by_cases hopens : x.Opens d l t
  · obtain ⟨⟨made, hground⟩, hleads⟩ := hopens.completes hl hx
    cases hbody : x.body with
    | file content => exact Part.file_verdict hbody hx hopens hground hleads
    | link target => exact Part.link_verdict hbody hx hopens hground hleads
  · obtain ⟨aborted, hstops, howned⟩ := Part.refused_of_not_opens hopens hl hx
    exact .refused (fun hall => hopens hall.opens) (fun hstrays => hopens hstrays.opens)
      (hstops.append _) howned

end PartitionUnits
