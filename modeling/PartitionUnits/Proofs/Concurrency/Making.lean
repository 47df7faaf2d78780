import PartitionUnits.Proofs.Concurrency.Ownership
import PartitionUnits.Proofs.FileSystem.NewFile
import PartitionUnits.Proofs.FileSystem.Place
import PartitionUnits.Proofs.Submission.Journal

/-!
# Making and removing beside others

Files, links and directories are made where nothing is, and only what was made is removed.

## Main Definitions

* `Scene.Home`, `Scene.Steady`, `Scene.Locates` — paths that others cannot turn elsewhere
* `Scene.Adds` — holding one more entry
* `Scene.Ledger` — the artifacts that a script holds, the latest first
* `Ledger.keeps_rollBack` — rolling back gives them up, but for directories that others use
* `keeps_newFile`, `keeps_makeLink`, `keeps_ensureDirectory` — what making something comes to

## Design Notes

A journal tells how a tree came about, and others change the tree too.  What stays true is what a
script holds, so a ledger speaks of holdings alone.  A directory that cannot be removed because
others have something in it is still held, and this is the only thing that can be left: hence the
ledgers are about a base that directories may be added to.
-/

namespace PartitionUnits

open PartitionUnits.Tree Function

variable {S : Scene} {u : Tree} {h h' k : Holdings} {l q : Location} {e f : Entry} {p file : Path}
  {name m : Name} {a : Artifact} {made added : List Artifact} {B C : Holdings → Prop}

namespace Scene

/-! ## Paths that stay -/

/-- A path leads to a location whenever a directory is there. -/
def Home (S : Scene) (p : Path) (q : Location) : Prop :=
  ∀ u, S.Admits u → u.isDirectoryAt q = true → u.LeadsTo p q

/-- **A path that nobody turns elsewhere**: where it leads once, it leads whenever a directory is
there. -/
def Steady (S : Scene) (p : Path) : Prop :=
  ∀ u q, S.Admits u → u.LeadsTo p q → S.Home p q

/-- A path names an entry of a directory, of whatever kind, whenever that directory is there. -/
structure Locates (S : Scene) (p : Path) (q : Location) (name : Name) : Prop where
  asksForDirectory : p.asksForDirectory = false
  inDirectory : ∀ u, S.Admits u → u.isDirectoryAt q = true → u.InDirectory p q name

theorem Home.locates (hhome : S.Home p q) (hname : Path.IsName name)
    (hfault : (p.join ⟨name⟩).fault? = none) (hplain : IsPlainName name) :
    S.Locates (p.join ⟨name⟩) q name where
  asksForDirectory := hname.asksForDirectory_join
  inDirectory := fun u hu hq =>
    ((hhome u hu hq).inDirectory_iff hname).mpr ⟨hfault, hplain, rfl, rfl⟩

/-- What a steady path and a name in it name once, they name always. -/
theorem Steady.locates (hsteady : S.Steady p) (hname : Path.IsName name) (hu : S.Admits u)
    (hin : u.InDirectory (p.join ⟨name⟩) q m) :
    u.LeadsTo p q ∧ m = name ∧ S.Locates (p.join ⟨name⟩) q name := by
  have hleads := LeadsTo.of_inDirectory hin hname
  obtain ⟨hfault, hplain, -, rfl⟩ := (hleads.inDirectory_iff hname).mp hin
  exact ⟨hleads, rfl, (hsteady u q hu hleads).locates hname hfault hplain⟩

/-- What is held can be found. -/
theorem Locates.of_held (hlocates : S.Locates p q name) (hu : S.Admits u) (hh : S.Holds h u)
    (hheld : h (q ++ [name]) = some e) :
    u.InDirectory p q name ∧ u.entry? (q ++ [name]) = some e := by
  have hentry := hh.there _ e hheld
  exact ⟨hlocates.inDirectory u hu (hu.wellFormed.parent hentry), hentry⟩

/-! ## Holding more -/

/-- **One more entry is held**, where the path says. -/
def Adds (S : Scene) (p : Path) (e : Entry) (h h' : Holdings) : Prop :=
  ∃ q name, S.Locates p q name ∧ h (q ++ [name]) = none ∧ h' = update h (q ++ [name]) (some e)

/-- Giving up what was not held before. -/
theorem update_update_none (hvacant : h l = none) (e : Entry) :
    update (update h l (some e)) l none = h := by
  rw [update_idem, ← hvacant, update_eq_self]

/-- **The artifacts that are held**, the latest first, beside holdings of which `B` is true. -/
inductive Ledger (S : Scene) (B : Holdings → Prop) : List Artifact → Holdings → Prop where
  | nil {h : Holdings} (hbase : B h) : Ledger S B [] h
  | cons {made : List Artifact} {h h' : Holdings} {a : Artifact} {e : Entry}
      (earlier : Ledger S B made h) (hadds : S.Adds a.path e h h') (hfits : a.Fits e) :
      Ledger S B (a :: made) h'

namespace Ledger

theorem mono (hled : S.Ledger B made h) (hBC : ∀ h, B h → C h) : S.Ledger C made h := by
  induction hled with
  | nil hbase => exact .nil (hBC _ hbase)
  | cons _ hadds hfits ih => exact .cons ih hadds hfits

/-- What is held beside artifacts can be told from them: it is as if it came first. -/
theorem add (hled : S.Ledger B made h) (hvacant : h l = none)
    (hBC : ∀ h, B h → h l = none → C (update h l (some e))) :
    S.Ledger C made (update h l (some e)) := by
  induction hled with
  | nil hbase => exact .nil (hBC _ hbase hvacant)
  | @cons made h₀ h a e₀ earlier hadds hfits ih =>
      obtain ⟨q, name, hlocates, hfree, rfl⟩ := hadds
      have hne : l ≠ q ++ [name] := by
        rintro rfl
        rw [update_self] at hvacant
        cases hvacant
      rw [update_of_ne hne] at hvacant
      refine .cons (ih hvacant) ⟨q, name, hlocates, ?_, update_comm hne.symm _ _ _⟩ hfits
      rw [update_of_ne hne.symm, hfree]

/-- Which of the artifacts came first makes no difference. -/
theorem exchange (hled : S.Ledger B made h) (hadded : S.Ledger (· = h) added h') :
    S.Ledger (S.Ledger B added) made h' := by
  induction hadded with
  | nil hbase =>
      cases hbase
      exact hled.mono fun _ hB => .nil hB
  | cons _ hadds hfits ih =>
      obtain ⟨q, name, hlocates, hfree, rfl⟩ := hadds
      exact ih.add hfree fun k hk hvacant => .cons hk ⟨q, name, hlocates, hvacant, rfl⟩ hfits

end Ledger

/-! ## Giving up what is held -/

/-- Directories can be added to holdings that have the property. -/
def Roomy (B : Holdings → Prop) : Prop :=
  ∀ h l, B h → h l = none → B (update h l (some (.directory directoryMode)))

theorem Ledger.roomy (hB : Roomy B) : Roomy (S.Ledger B made) :=
  fun _ _ hled hvacant => hled.add hvacant fun _ hbase => hB _ _ hbase

/-- **What was made last is given up**, unless it is a directory that others use. -/
theorem Ledger.removal (hled : S.Ledger B (a :: made) k) (hB : Roomy B) (hu : S.Admits u)
    (hk : S.Holds k u) :
    ∃ h, S.Shifts u k (u.apply a.removal).2 h ∧ S.Ledger B made h := by
  cases hled with
  | @cons _ h _ _ e earlier hadds hfits =>
      obtain ⟨q, name, hlocates, hfree, rfl⟩ := hadds
      obtain ⟨hin, hentry⟩ := hlocates.of_held hu hk (update_self ..)
      have hgone : S.Shifts u (update h (q ++ [name]) (some e)) (u.erase (q ++ [name])) h := by
        have herase := Shifts.erase (S := S) (h := update h (q ++ [name]) (some e)) (by simp)
          ((update_self ..).trans hentry.symm)
        rwa [update_update_none hfree] at herase
      cases a with
      | file p =>
          have happly : u.apply (Artifact.file p).removal = _ :=
            hin.apply_removeFile hfits.1 hentry hfits.2
          rw [happly]
          exact ⟨h, hgone, earlier⟩
      | directory p =>
          obtain rfl : e = .directory directoryMode := hfits
          have hattempt : u.attempt (Artifact.directory p).removal = _ :=
            hin.attempt_removeDirectory hentry
          by_cases hempty : u.names (q ++ [name]) = []
          · rw [if_pos hempty] at hattempt
            rw [apply_eq_of_attempt_ok hattempt]
            exact ⟨h, hgone, earlier⟩
          · rw [if_neg hempty] at hattempt
            rw [apply_eq_of_attempt_error hattempt]
            exact ⟨_, .refl S u _, Ledger.roomy hB _ _ earlier hfree⟩

/-- **Rolling back gives up all artifacts**, but for directories that others use. -/
theorem Ledger.keeps_rollBack (hled : S.Ledger B made k) (hB : Roomy B) :
    S.Keeps (fun _ h => B h) (rollBack made) k := by
  induction made generalizing k with
  | nil =>
      cases hled with
      | nil hbase => exact hbase
  | cons a earlier ih =>
      intro u hu hk
      obtain ⟨h, hshift, hrest⟩ := hled.removal hB hu hk
      refine ⟨h, hshift, ?_⟩
      cases (u.apply a.removal).1 with
      | ok p => exact ih hrest
      | error err => exact (ih hrest).bind fun _ _ hbase => hbase

end Scene

/-- The temporary file that a failure owns, as an artifact. -/
def Aborted.owed (a : Aborted) : List Artifact := a.temporary.toList.map .file

namespace Scene

/-- **What a failure owns is given up with it.** -/
theorem Ledger.keeps_release {aborted : Aborted} (hled : S.Ledger B aborted.owed k)
    (hB : Roomy B) : S.Keeps (fun _ h => B h) aborted.release k := by
  unfold Aborted.owed at hled
  unfold Aborted.release
  cases htemporary : aborted.temporary with
  | none =>
      rw [htemporary] at hled
      cases hled with
      | nil hbase => exact hbase
  | some file =>
      rw [htemporary] at hled
      intro u hu hk
      obtain ⟨h, hshift, hrest⟩ := hled.removal hB hu hk
      cases hrest with
      | nil hbase => exact ⟨h, hshift, hbase⟩

/-! ## Making a file -/

/-- Entries of any kind are allowed under a name of the directory that a path leads to. -/
def Takes (S : Scene) (p : Path) (name : Name) : Prop :=
  ∀ u q e, S.Admits u → u.LeadsTo p q → S.allows (q ++ [name]) e

/-- **What making a file or a link comes to**: it is held, or nothing but what the failure owns. -/
def Making (S : Scene) (p : Path) (e : Entry) (h : Holdings) :
    Except Aborted Unit → Holdings → Prop
  | .ok (), h' => S.Adds p e h h'
  | .error aborted, h' => S.Ledger (· = h) aborted.owed h'

/-- **A temporary file**, which is to have another name of its directory. -/
structure Temporary (S : Scene) (p file : Path) (q : Location) (draw : Draw) (h : Holdings) :
    Prop where
  home : S.Home p q
  locates : S.Locates file q draw.name
  vacant : h (q ++ [draw.name]) = none
  allowed : ∀ e, S.allows (q ++ [draw.name]) e

namespace Temporary

variable {draw : Draw} {content : Octets} {mode : Nat} {c : Content}

/-- A temporary file that a failure owns. -/
theorem making {aborted : Aborted} (htemp : S.Temporary p file q draw h)
    (howned : aborted.temporary = some file) (hf : f.isDirectory = false) :
    S.Making (p.join ⟨name⟩) e h (.error aborted) (update h (q ++ [draw.name]) (some f)) := by
  show S.Ledger (· = h) aborted.owed _
  rw [Aborted.owed, howned]
  exact .cons (.nil rfl) ⟨q, draw.name, htemp.locates, htemp.vacant, rfl⟩
    ⟨htemp.locates.asksForDirectory, hf⟩

/-- Where a temporary file is that is held. -/
theorem fileAt (htemp : S.Temporary p file q draw h) (hu : S.Admits u)
    (hk : S.Holds (update h (q ++ [draw.name]) (some (.file mode c))) u) :
    u.entry? (q ++ [draw.name]) = some (.file mode c) ∧
      u.fileAt file = .ok (q ++ [draw.name], mode, c) := by
  obtain ⟨hin, hentry⟩ := htemp.locates.of_held hu hk (update_self ..)
  exact ⟨hentry, hin.fileAt htemp.locates.asksForDirectory hentry⟩

/-- A temporary file that is held can be changed. -/
theorem shifts (htemp : S.Temporary p file q draw h)
    (hentry : u.entry? (q ++ [draw.name]) = some e) :
    S.Shifts u (update h (q ++ [draw.name]) (some e)) (u.insert (q ++ [draw.name]) f)
      (update h (q ++ [draw.name]) (some f)) := by
  have hinsert := Shifts.insert (S := S) (h := update h (q ++ [draw.name]) (some e)) (by simp)
    ((update_self ..).trans hentry.symm) (htemp.allowed f)
  rwa [update_idem] at hinsert

/-- **Giving a temporary file its name**, or failing and owning it. -/
theorem keeps_settle (htemp : S.Temporary p file q draw h) (hname : Path.IsName name)
    (htakes : S.Takes p name) :
    S.Keeps (S.Making (p.join ⟨name⟩) (.file mode c) h) (settle file (p.join ⟨name⟩))
      (update h (q ++ [draw.name]) (some (.file mode c))) := by
  intro u hu hk
  obtain ⟨hentry, hat⟩ := htemp.fileAt hu hk
  rcases apply_cases (t := u) (c := .rename file (p.join ⟨name⟩)) rfl with
    ⟨err, -, happly⟩ | ⟨final, hrename, happly⟩
  · rw [happly]
    exact ⟨_, .refl S u _, htemp.making rfl rfl⟩
  · rw [happly]
    obtain ⟨l', mode', c', q', name', hat', hin, -, hvacant, rfl⟩ := rename_eq_ok hrename
    rw [hat] at hat'
    cases hat'
    -- The new name is one of the directory that the temporary file is in.
    have hleads := htemp.home u hu (hu.wellFormed.parent hentry)
    obtain ⟨hfault, hplain, rfl, rfl⟩ := (hleads.inDirectory_iff hname).mp hin
    have hne := (ne_of_vacant hentry hvacant).symm
    have hfree := hk.eq_none hvacant
    rw [update_of_ne hne] at hfree
    have herase := Shifts.erase (S := S)
      (h := update h (q' ++ [draw.name]) (some (.file mode c))) (by simp)
      ((update_self ..).trans hentry.symm)
    rw [update_update_none htemp.vacant] at herase
    have hfree' : h (q' ++ [name']) = entry? (u.erase (q' ++ [draw.name])) (q' ++ [name']) := by
      rw [entry?_erase_of_ne hne, hvacant, hfree]
    exact ⟨_, herase.trans (.insert (by simp) hfree' (htakes u q' _ hu hleads)), q', name',
      htemp.home.locates hname hfault hplain, hfree, rfl⟩

/-- Filling a temporary file and giving it its permissions and its name. -/
theorem keeps_fillAndSettle (htemp : S.Temporary p file q draw h) (hname : Path.IsName name)
    (htakes : S.Takes p name) :
    S.Keeps (S.Making (p.join ⟨name⟩) (.file fileMode (.octets content)) h)
      (fillAndSettle file (p.join ⟨name⟩) content)
      (update h (q ++ [draw.name]) (some (.file mode c))) := by
  intro u hu hk
  obtain ⟨hentry, hat⟩ := htemp.fileAt hu hk
  rw [apply_write content hat]
  refine ⟨_, htemp.shifts hentry, ?_⟩
  intro v hv hk'
  obtain ⟨hentry', hat'⟩ := htemp.fileAt hv hk'
  rw [apply_setMode fileMode hat']
  exact ⟨_, htemp.shifts hentry', htemp.keeps_settle hname htakes⟩

end Temporary

/-- **Making a file beside others.** -/
theorem keeps_newFile {content : Octets} {draws : List Draw} (hsteady : S.Steady p)
    (hname : Path.IsName name) (htakes : S.Takes p name)
    (hdraws : ∀ draw : Draw, S.Takes p draw.name) :
    S.Keeps (S.Making (p.join ⟨name⟩) (.file fileMode (.octets content)) h)
      (newFile (p.join ⟨name⟩) content draws) h := by
  obtain ⟨parent, hparent, hleads⟩ := LeadsTo.exists_parent? (p := p) hname
  unfold newFile
  rw [hparent]
  intro u hu hh
  cases hattempt : u.attempt (.createTemporary parent draws) with
  | error err =>
      rw [apply_eq_of_attempt_error hattempt]
      exact ⟨h, .refl S u h, .nil rfl⟩
  | ok result =>
      obtain ⟨v, file⟩ := result
      rw [apply_eq_of_attempt_ok hattempt]
      obtain ⟨draw, -, q, rfl, hin, hvacant, rfl⟩ := createTemporary_eq_ok hattempt
      have hplace := (hleads u q).mp (.of_inDirectory hin draw.isName)
      have hhome := hsteady u q hu hplace
      have hhome' : S.Home parent q := fun w hw hq => (hleads w q).mpr (hhome w hw hq)
      have hfree := hh.eq_none hvacant
      have htemp : S.Temporary p (parent.join ⟨draw.name⟩) q draw h :=
        ⟨hhome, hhome'.locates draw.isName hin.fault draw.isPlainName, hfree,
          fun e => hdraws draw u q e hu hplace⟩
      exact ⟨_, .insert (by simp) (hfree.trans hvacant.symm) (htemp.allowed _),
        htemp.keeps_fillAndSettle hname htakes⟩

/-! ## Making links and directories -/

/-- **What doing one thing comes to**, given what success comes to. -/
def Doing (S : Scene) (P : Option Artifact → Holdings → Prop) (h : Holdings) :
    Except Aborted (Option Artifact) → Holdings → Prop
  | .ok artifact?, h' => P artifact? h'
  | .error aborted, h' => S.Ledger (· = h) aborted.owed h'

/-- **Making a file beside others**, as something that a plan makes. -/
theorem keeps_makeFile {content : String} {draws : List Draw} (hsteady : S.Steady p)
    (hname : Path.IsName name) (htakes : S.Takes p name)
    (hdraws : ∀ draw : Draw, S.Takes p draw.name) :
    S.Keeps (S.Doing (fun artifact? h' => artifact? = some (.file (p.join ⟨name⟩)) ∧
        S.Adds (p.join ⟨name⟩) (.file fileMode (.octets (Text.encode content.toList))) h h') h)
      (Action.makeFile (p.join ⟨name⟩) content draws).perform h := by
  refine (keeps_newFile hsteady hname htakes hdraws).bind fun result h' hmaking => ?_
  cases result with
  | ok => exact ⟨rfl, hmaking⟩
  | error aborted => exact hmaking

/-- **Making a link beside others.** -/
theorem keeps_makeLink {target : Path} (hsteady : S.Steady p) (hname : Path.IsName name)
    (htakes : S.Takes p name) :
    S.Keeps (S.Doing (fun artifact? h' => artifact? = some (.file (p.join ⟨name⟩)) ∧
        S.Adds (p.join ⟨name⟩) (.link target.octets) h h') h)
      (Action.makeLink target (p.join ⟨name⟩)).perform h := by
  intro u hu hh
  rcases apply_cases (t := u) (c := .makeLink target (p.join ⟨name⟩)) rfl with
    ⟨err, -, happly⟩ | ⟨final, hmake, happly⟩
  · rw [happly]
    exact ⟨h, .refl S u h, .nil rfl⟩
  · rw [happly]
    obtain ⟨q, m, hin, -, hvacant, rfl⟩ := makeLink_eq_ok hmake
    obtain ⟨hleads, rfl, hlocates⟩ := hsteady.locates hname hu hin
    have hfree := hh.eq_none hvacant
    exact ⟨_, .insert (by simp) (hfree.trans hvacant.symm) (htakes u q _ hu hleads), rfl, q, m,
      hlocates, hfree, rfl⟩

/-- Directories are allowed under a name of the directory that a path leads to. -/
def TakesDirectory (S : Scene) (p : Path) (name : Name) : Prop :=
  ∀ u q, S.Admits u → u.LeadsTo p q → S.allows (q ++ [name]) (.directory directoryMode)

/-- **Making sure of a directory beside others**: if it was not there, it is held. -/
theorem keeps_ensureDirectory (hsteady : S.Steady p) (hname : Path.IsName name)
    (htakes : S.TakesDirectory p name) :
    S.Keeps (S.Doing (fun artifact? h' => (p.join ⟨name⟩).fault? = none ∧
        (artifact? = none ∧ h' = h ∨ artifact? = some (.directory (p.join ⟨name⟩)) ∧
          S.Adds (p.join ⟨name⟩) (.directory directoryMode) h h')) h)
      (Action.ensureDirectory (p.join ⟨name⟩)).perform h := by
  unfold Action.perform
  refine keeps_perform_bind.mpr fun u hu hh => ?_
  rcases apply_cases (t := u) (c := .makeDirectory (p.join ⟨name⟩)) rfl with
    ⟨err, -, happly⟩ | ⟨final, hmake, happly⟩
  · rw [happly]
    refine ⟨h, .refl S u h, ?_⟩
    by_cases hthere : err = .alreadyExists
    · simp only [if_pos hthere]
      intro v hv hk
      rw [apply_checkDirectory]
      refine ⟨h, .refl S v h, ?_⟩
      by_cases hdirectory : v.isDirectory (p.join ⟨name⟩) = true
      · rw [if_pos hdirectory]
        obtain ⟨l, -, hlocate, -⟩ := isDirectory_iff.mp hdirectory
        exact ⟨(locate_eq_ok_iff.mp hlocate).1, Or.inl ⟨rfl, rfl⟩⟩
      · rw [if_neg hdirectory]
        exact .nil rfl
    · simp only [if_neg hthere]
      exact .nil rfl
  · rw [happly]
    obtain ⟨q, m, hin, hvacant, rfl⟩ := makeDirectory_eq_ok hmake
    obtain ⟨hleads, rfl, hlocates⟩ := hsteady.locates hname hu hin
    have hfree := hh.eq_none hvacant
    exact ⟨_, .insert (by simp) (hfree.trans hvacant.symm) (htakes u q hu hleads), hin.fault,
      Or.inr ⟨rfl, q, m, hlocates, hfree, rfl⟩⟩

end Scene

end PartitionUnits
