import PartitionUnits.Proofs.FileSystem.NewFile

/-!
# Entries of a directory that is known

Whether something can be made under a name of a directory depends on the entries of that directory
alone, once it is known where the directory is.

## Main Definitions

* `Tree.LeadsTo` — a path leads to a directory
* `Tree.LeadsTo.inDirectory_iff` — where the names below such a path are
* `Tree.Fits`, `Tree.HasDraw` — what a new entry needs, and what a temporary file needs
* `NewFileVerdict` — what making a file comes to, with the reasons
-/

namespace PartitionUnits

open PartitionUnits.Tree

variable {t t' u : Tree} {p parent : Path} {d q : Location} {name m : Name} {draws : List Draw}
  {content : Octets} {mode : Nat}

namespace Tree

/-- **A path leads to a directory.** -/
structure LeadsTo (t : Tree) (p : Path) (d : Location) : Prop where
  isDirectoryAt : t.isDirectoryAt d = true
  leads : t.Leads true maxLinks [] p.names d

/-- Lone dots lead from a directory to itself. -/
theorem leads_dots {dots : List Name} {links : Nat} {here : Location}
    (hdots : ∀ x ∈ dots, x = [dot]) (hd : t.isDirectoryAt d = true) :
    t.Leads true links here dots d ↔ here = d := by
  induction dots with
  | nil =>
      constructor
      · intro h
        cases h
        rfl
      · rintro rfl
        exact .arrived
  | cons x rest ih =>
      have hrest := ih fun y hy => hdots y (List.mem_cons_of_mem _ hy)
      rw [hdots x List.mem_cons_self]
      constructor
      · intro h
        cases h with
        | stay _ next => exact hrest.mp next
        | enter _ hplain => exact absurd rfl hplain.ne_dot
        | endAtLink _ _ _ hfollow => cases hfollow
        | through _ hplain => exact absurd rfl hplain.ne_dot
      · rintro rfl
        exact .stay hd (hrest.mpr rfl)

namespace LeadsTo

theorem unique {d' : Location} (h : t.LeadsTo p d) (h' : t.LeadsTo p d') : d = d' :=
  h.leads.unique h'.leads

theorem of_le (h : t.LeadsTo p d) (hle : t ≤ t') : t'.LeadsTo p d where
  isDirectoryAt := isDirectoryAt_of_le hle h.isDirectoryAt
  leads := h.leads.of_le hle

/-- **Where the names below a path to a directory are.** -/
theorem inDirectory_iff (h : t.LeadsTo p d) (hname : Path.IsName name) :
    t.InDirectory (p.join ⟨name⟩) q m ↔
      (p.join ⟨name⟩).fault? = none ∧ IsPlainName name ∧ q = d ∧ m = name := by
  constructor
  · intro hin
    have hm : m = name :=
      Option.some.inj (hin.getLast.symm.trans hname.getLast?_names_join)
    have hleads := hin.leads
    rw [hname.names_join, List.dropLast_concat] at hleads
    exact ⟨hin.fault, hm ▸ hin.plain, hleads.unique h.leads, hm⟩
  · rintro ⟨hfault, hplain, rfl, rfl⟩
    refine ⟨hfault, hname.getLast?_names_join, ?_, h.isDirectoryAt, hplain⟩
    rw [hname.names_join, List.dropLast_concat]
    exact h.leads

/-- A name below a path is in the directory that the path leads to. -/
theorem of_inDirectory (hin : t.InDirectory (p.join ⟨name⟩) q m) (hname : Path.IsName name) :
    t.LeadsTo p q where
  isDirectoryAt := hin.isDirectoryAt
  leads := by
    have hleads := hin.leads
    rwa [hname.names_join, List.dropLast_concat] at hleads

/-- A path to a directory and the name of a directory in it lead to that directory. -/
theorem join (h : t.LeadsTo p d) (hname : Path.IsName name) (hplain : IsPlainName name)
    (hentry : t.entry? (d ++ [name]) = some (.directory mode)) :
    t.LeadsTo (p.join ⟨name⟩) (d ++ [name]) where
  isDirectoryAt := isDirectoryAt_iff.mpr ⟨mode, hentry⟩
  leads := by
    rw [hname.names_join]
    obtain ⟨left, hleft⟩ := h.leads.append true [name] (by simp)
    exact hleft _ (.enter h.isDirectoryAt hplain hentry (by simp) .arrived)

/-- A path through a name leads through where the path before it leads. -/
theorem exists_of_join (hname : Path.IsName name) (h : t.LeadsTo (p.join ⟨name⟩) q) :
    ∃ l left, t.LeadsTo p l ∧ t.Leads true left l [name] q := by
  have hleads := h.leads
  rw [hname.names_join] at hleads
  obtain ⟨left, l, hfirst, hlast⟩ := hleads.split (by simp)
  exact ⟨l, left, ⟨hlast.isDirectoryAt_of_cons, hfirst⟩, hlast⟩

/-- **The parent of a name below a path leads where the path leads.** -/
theorem exists_parent? (hname : Path.IsName name) :
    ∃ parent, (p.join ⟨name⟩).parent? = some parent ∧
      ∀ (t : Tree) d, t.LeadsTo parent d ↔ t.LeadsTo p d := by
  obtain ⟨parent, dots, hparent, hnames, hdots⟩ := Path.exists_parent?_join (p := p) hname
  refine ⟨parent, hparent, fun t d => ?_⟩
  constructor
  · rintro ⟨hd, hleads⟩
    refine ⟨hd, ?_⟩
    rw [hnames]
    by_cases hnil : dots = []
    · rwa [hnil, List.append_nil]
    · obtain ⟨left, hleft⟩ := hleads.append true dots hnil
      exact hleft _ ((leads_dots hdots hd).mpr rfl)
  · rintro ⟨hd, hleads⟩
    refine ⟨hd, ?_⟩
    rw [hnames] at hleads
    by_cases hnil : dots = []
    · rwa [hnil, List.append_nil] at hleads
    · obtain ⟨left, d', hfirst, hlast⟩ := hleads.split hnil
      rwa [(leads_dots hdots hd).mp hlast] at hfirst

end LeadsTo

/-! ## Looking at an entry -/

/-- What is found below a path is in a directory that the path leads to. -/
theorem LeadsTo.exists_of_find {e : Entry} (hname : Path.IsName name)
    (h : t.find false (p.join ⟨name⟩) = .ok e) :
    (p.join ⟨name⟩).fault? = none ∧
      ∃ q left l, t.LeadsTo p q ∧ t.Leads false left q [name] l := by
  obtain ⟨l, hlocate, -⟩ := find_eq_ok_iff.mp h
  obtain ⟨hfault, hleads⟩ := locate_eq_ok_iff.mp hlocate
  rw [Path.steps, hname.asksForDirectory_join, if_neg Bool.false_ne_true, List.append_nil,
    hname.names_join] at hleads
  obtain ⟨left, q, hfirst, hlast⟩ := hleads.split (by simp)
  exact ⟨hfault, q, left, l, ⟨hlast.isDirectoryAt_of_cons, hfirst⟩, hlast⟩

/-- **The entry below a path is in the directory that the path leads to.** -/
theorem LeadsTo.find_iff {e : Entry} (h : t.LeadsTo p d) (hname : Path.IsName name)
    (hdots : name ≠ [dot, dot]) : t.find false (p.join ⟨name⟩) = .ok e ↔
      (p.join ⟨name⟩).fault? = none ∧ IsPlainName name ∧ t.entry? (d ++ [name]) = some e := by
  have hfind : (p.join ⟨name⟩).fault? = none → IsPlainName name →
      (t.find false (p.join ⟨name⟩) = .ok e ↔ t.entry? (d ++ [name]) = some e) :=
    fun hfault hplain => ((h.inDirectory_iff hname).mpr ⟨hfault, hplain, rfl, rfl⟩).find_iff
      hname.asksForDirectory_join
  constructor
  · intro hfound
    obtain ⟨hfault, q, left, l, -, hlast⟩ := LeadsTo.exists_of_find hname hfound
    have hplain := hlast.isPlainName hname.ne_dot hdots
    exact ⟨hfault, hplain, (hfind hfault hplain).mp hfound⟩
  · rintro ⟨hfault, hplain, hentry⟩
    exact (hfind hfault hplain).mpr hentry

/-! ## What a new entry needs -/

/-- **An entry can be made** under a name of a directory. -/
structure Fits (t : Tree) (p : Path) (d : Location) (name : Name) : Prop where
  fault : (p.join ⟨name⟩).fault? = none
  plain : IsPlainName name
  vacant : t.entry? (d ++ [name]) = none

theorem LeadsTo.vacancy_eq_ok_iff {l : Location} {asks : Bool} (h : t.LeadsTo p d)
    (hname : Path.IsName name) :
    t.vacancy (p.join ⟨name⟩) = .ok (l, asks) ↔
      t.Fits p d name ∧ l = d ++ [name] ∧ asks = false := by
  rw [Tree.vacancy_eq_ok_iff]
  constructor
  · rintro ⟨q, m, hin, hvacant, rfl, rfl⟩
    obtain ⟨hfault, hplain, rfl, rfl⟩ := (h.inDirectory_iff hname).mp hin
    exact ⟨⟨hfault, hplain, hvacant⟩, rfl, hname.asksForDirectory_join⟩
  · rintro ⟨hfits, rfl, rfl⟩
    exact ⟨d, name, (h.inDirectory_iff hname).mpr ⟨hfits.fault, hfits.plain, rfl, rfl⟩,
      hfits.vacant, rfl, hname.asksForDirectory_join.symm⟩

/-- A directory can be made just if its entry can. -/
theorem LeadsTo.apply_makeDirectory (h : t.LeadsTo p d) (hname : Path.IsName name)
    (hfits : t.Fits p d name) :
    t.apply (.makeDirectory (p.join ⟨name⟩)) =
      (.ok (p.join ⟨name⟩), t.insert (d ++ [name]) (.directory directoryMode)) := by
  have hvacancy := (h.vacancy_eq_ok_iff hname).mpr ⟨hfits, rfl, rfl⟩
  apply apply_eq_of_attempt_ok
  simp [attempt, makeDirectory, hvacancy, bind, Except.bind, answerAt, Except.map]

/-- A link can be made if its entry can and its target can be written. -/
theorem LeadsTo.apply_makeLink {target : Path} (h : t.LeadsTo p d) (hname : Path.IsName name)
    (hfits : t.Fits p d name) (htarget : target.fault? = none) :
    t.apply (.makeLink target (p.join ⟨name⟩)) =
      (.ok (p.join ⟨name⟩), t.insert (d ++ [name]) (.link target.octets)) := by
  have hvacancy := (h.vacancy_eq_ok_iff hname).mpr ⟨hfits, rfl, rfl⟩
  apply apply_eq_of_attempt_ok
  simp [attempt, makeLink, htarget, hvacancy, bind, Except.bind, answerAt, Except.map]

/-! ## What a temporary file needs -/

end Tree

/-- The directory of a path takes a temporary file, whatever is drawn for its name. -/
def Path.TakesTemporary (p : Path) : Prop :=
  ∀ parent, p.parent? = some parent → ∀ draw : Draw, (parent.join ⟨draw.name⟩).fault? = none

theorem Path.fault?_eq_none_iff :
    p.fault? = none ↔ 0 ∉ p.octets ∧ p.octets ≠ [] ∧ p.octets.length ≤ Path.maxLength := by
  unfold Path.fault?
  by_cases hzero : 0 ∈ p.octets
  · simp [hzero]
  by_cases hnil : p.octets = []
  · simp [hnil]
  by_cases hlong : Path.maxLength < p.octets.length
  · simp [hzero, hnil, hlong]
  · simp [hzero, hnil, hlong, Nat.not_lt.mp hlong]

/-- Whatever is drawn for a name can be walked or nothing can. -/
theorem Draw.fault?_join (draw draw' : Draw) (h : (p.join ⟨draw.name⟩).fault? = none) :
    (p.join ⟨draw'.name⟩).fault? = none := by
  have hzero : ∀ draw : Draw, 0 ∉ draw.name := by
    intro draw hmem
    rcases List.mem_append.mp hmem with hstart | hend
    · exact absurd hstart (by decide)
    · exact absurd (draw.drawable _ hend) (by decide)
  have hlength : draw'.name.length = draw.name.length := by
    rw [draw.length_name, draw'.length_name]
  have hne := draw'.isName.ne_nil
  rw [Path.fault?_eq_none_iff] at h ⊢
  rw [Path.join, if_neg (by simp [draw.isName.isAbsolute])] at h
  rw [Path.join, if_neg (by simp [draw'.isName.isAbsolute])]
  split at h
  · next hbase =>
      rw [if_pos hbase]
      simp_all
  · next hbase =>
      rw [if_neg hbase]
      simp_all

namespace Tree

/-- **A temporary file can be made** in a directory: some name that is drawn is not taken. -/
def HasDraw (t : Tree) (d : Location) (draws : List Draw) : Prop :=
  ∃ draw ∈ draws, t.entry? (d ++ [draw.name]) = none

/-- A name that is taken is passed over. -/
theorem LeadsTo.vacancy_of_taken {e : Entry} (h : t.LeadsTo p d) (hname : Path.IsName name)
    (hfault : (p.join ⟨name⟩).fault? = none) (hplain : IsPlainName name)
    (hentry : t.entry? (d ++ [name]) = some e) :
    t.vacancy (p.join ⟨name⟩) = .error .alreadyExists := by
  have hin := (h.inDirectory_iff hname).mpr ⟨hfault, hplain, rfl, rfl⟩
  have hlength : ¬ maxNameLength < name.length := by
    have := hplain.length_le
    omega
  unfold vacancy
  simp only [hin.slot, bind, Except.bind]
  simp [hlength, hentry]

/-- **A temporary file is made** if it can be. -/
theorem LeadsTo.exists_createTemporary (h : t.LeadsTo p d)
    (hfault : ∀ draw : Draw, (p.join ⟨draw.name⟩).fault? = none) (hdraw : t.HasDraw d draws) :
    ∃ draw ∈ draws, t.entry? (d ++ [draw.name]) = none ∧
      t.createTemporary p draws =
        .ok (t.insert (d ++ [draw.name]) (.file 0o600 (.octets [])), p.join ⟨draw.name⟩) := by
  obtain ⟨found, hmem, hfree⟩ := hdraw
  induction draws with
  | nil => cases hmem
  | cons draw rest ih =>
      unfold createTemporary
      cases hentry : t.entry? (d ++ [draw.name]) with
      | none =>
          refine ⟨draw, List.mem_cons_self, hentry, ?_⟩
          have hvacancy := (h.vacancy_eq_ok_iff draw.isName).mpr
            ⟨⟨hfault draw, draw.isPlainName, hentry⟩, rfl, rfl⟩
          simp only [hvacancy]
      | some e =>
          have hrest : found ∈ rest := by
            rcases List.mem_cons.mp hmem with rfl | hrest
            · rw [hentry] at hfree
              cases hfree
            · exact hrest
          obtain ⟨draw', hdraw', hfree', hrest'⟩ := ih hrest
          refine ⟨draw', List.mem_cons_of_mem _ hdraw', hfree', ?_⟩
          simp only [h.vacancy_of_taken draw.isName (hfault draw) draw.isPlainName hentry, hrest']

end Tree

/-! ## Making a file -/

/-- **What making a file comes to**, with the reasons. -/
inductive NewFileVerdict (t : Tree) (p : Path) (d : Location) (name : Name) (content : Octets)
    (draws : List Draw) : Except Aborted Unit → Tree → Prop where
  | made (htakes : (p.join ⟨name⟩).TakesTemporary) (hdraw : t.HasDraw d draws)
      (hfits : t.Fits p d name) :
      NewFileVerdict t p d name content draws (.ok ())
        (t.insert (d ++ [name]) (.file fileMode (.octets content)))
  | refused {a : Aborted} (hnot : ¬ ((p.join ⟨name⟩).TakesTemporary ∧ t.HasDraw d draws))
      (howned : a.temporary = none) : NewFileVerdict t p d name content draws (.error a) t
  | stray {a : Aborted} {file : Path} {draw : Draw}
      (htakes : (p.join ⟨name⟩).TakesTemporary) (hdraw : t.HasDraw d draws)
      (hnot : ¬ t.Fits p d name) (howned : a.temporary = some file)
      (hin : ∀ (t : Tree) q, t.LeadsTo p q → t.InDirectory file q draw.name)
      (hasks : file.asksForDirectory = false)
      (hvacant : t.entry? (d ++ [draw.name]) = none) :
      NewFileVerdict t p d name content draws (.error a)
        (t.insert (d ++ [draw.name]) (.file fileMode (.octets content)))

/-- **Whether a file can be made depends on its directory only.** -/
theorem Tree.LeadsTo.newFile_verdict {result : Except Aborted Unit} (h : t.LeadsTo p d)
    (hname : Path.IsName name) (hapart : ∀ draw : Draw, draw.name ≠ name)
    (hrun : (newFile (p.join ⟨name⟩) content draws).run t = (result, u)) :
    NewFileVerdict t p d name content draws result u := by
  obtain ⟨parent, hparent, hleads⟩ := LeadsTo.exists_parent? (p := p) hname
  have hplace := (hleads t d).mpr h
  unfold newFile at hrun
  rw [hparent] at hrun
  simp only at hrun
  rw [Script.run_perform_bind] at hrun
  cases hattempt : t.attempt (.createTemporary parent draws) with
  | error err =>
      rw [apply_eq_of_attempt_error hattempt] at hrun
      obtain ⟨rfl, rfl⟩ := Prod.mk.inj hrun
      refine .refused (fun ⟨htakes, hdraw⟩ => ?_) rfl
      obtain ⟨draw, -, -, hcreate⟩ := hplace.exists_createTemporary (htakes parent hparent) hdraw
      rw [attempt, hcreate] at hattempt
      cases hattempt
  | ok made =>
      obtain ⟨u', file⟩ := made
      rw [apply_eq_of_attempt_ok hattempt] at hrun
      obtain ⟨draw, hmem, q, hfile, hin, hvacant, rfl⟩ := createTemporary_eq_ok hattempt
      have hasks : file.asksForDirectory = false := by
        rw [hfile]
        exact draw.isName.asksForDirectory_join
      -- The temporary file is where the file itself is to be.
      obtain rfl : q = d := (LeadsTo.of_inDirectory (hfile ▸ hin) draw.isName).unique hplace
      have htakes : (p.join ⟨name⟩).TakesTemporary := by
        intro parent' hparent' draw'
        obtain rfl : parent = parent' := Option.some.inj (hparent.symm.trans hparent')
        exact draw.fault?_join draw' (hfile ▸ hin.fault)
      have hdraw : t.HasDraw q draws := ⟨draw, hmem, hvacant⟩
      simp only at hrun
      rw [run_fillAndSettle hin hasks hvacant, settle, Script.run_perform_bind] at hrun
      have hat := fileAt_insert fileMode (.octets content) hin hasks hvacant
      have hne : q ++ [name] ≠ q ++ [draw.name] := by
        intro heq
        exact hapart draw (List.cons.inj (List.append_cancel_left heq)).1.symm
      rcases apply_cases (c := .rename file (p.join ⟨name⟩)) rfl with
        ⟨err, hrename, happly⟩ | ⟨final, hrename, happly⟩
      · rw [happly] at hrun
        obtain ⟨rfl, rfl⟩ := Prod.mk.inj hrun
        have hnames : ∀ (t : Tree) q, t.LeadsTo p q → t.InDirectory file q draw.name := by
          intro t q hq
          rw [hfile]
          exact (((hleads t q).mpr hq).inDirectory_iff draw.isName).mpr
            ⟨hfile ▸ hin.fault, draw.isPlainName, rfl, rfl⟩
        refine .stray htakes hdraw (fun hfits => ?_) rfl hnames hasks hvacant
        have htarget := (h.inDirectory_iff hname).mpr ⟨hfits.fault, hfits.plain, rfl, rfl⟩
        rw [(htarget.insert hvacant _).rename_eq hname.asksForDirectory_join
          (by rw [entry?_insert_of_ne hne]; exact hfits.vacant) hat] at hrename
        cases hrename
      · rw [happly] at hrun
        obtain ⟨rfl, rfl⟩ := Prod.mk.inj hrun
        obtain ⟨q', name', hin', -, hvacant', rfl⟩ := rename_insert_eq_ok hat hvacant hrename
        obtain ⟨hfault, hplain, rfl, rfl⟩ := (h.inDirectory_iff hname).mp hin'
        exact .made htakes hdraw ⟨hfault, hplain, hvacant'⟩

end PartitionUnits
