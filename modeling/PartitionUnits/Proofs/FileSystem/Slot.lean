import PartitionUnits.Proofs.FileSystem.Walk
import PartitionUnits.Proofs.Path

/-!
# The last name of a path

A path names one entry of one directory.  The steps that make and remove entries look for that
directory; looking at the entry itself finds it in the same place.

## Main Definitions

* `Tree.InDirectory` — the last name of a path and the directory that it is in
* `InDirectory.of_keepsWays` — what the answer depends on
* `vacancy_eq_ok_iff`, `InDirectory.find_iff`, `InDirectory.find_of_vacant` — making an entry and
  looking at it
-/

namespace PartitionUnits

namespace Tree

variable {t t' : Tree} {p : Path} {d l : Location} {name : Name} {e : Entry}

/-- A computation of two steps succeeds if both do. -/
theorem bind_eq_ok {ε α β : Type} {x : Except ε α} {f : α → Except ε β} {b : β} :
    (x >>= f) = .ok b ↔ ∃ a, x = .ok a ∧ f a = .ok b := by
  cases x with
  | error err => simp [bind, Except.bind]
  | ok a => simp [bind, Except.bind]

/-- A path leads to a location if it can be walked and the walk of its steps arrives there. -/
theorem locate_eq_ok_iff {follow : Bool} :
    t.locate follow p = .ok l ↔ p.fault? = none ∧ t.Leads follow maxLinks [] p.steps l := by
  unfold locate
  cases hfault : p.fault? with
  | some err => simp
  | none =>
      simp only [true_and]
      exact walk_eq_ok_iff

/-- **The last name of a path and the directory that it is in.** -/
structure InDirectory (t : Tree) (p : Path) (d : Location) (name : Name) : Prop where
  fault : p.fault? = none
  getLast : p.names.getLast? = some name
  leads : t.Leads true maxLinks [] p.names.dropLast d
  isDirectoryAt : t.isDirectoryAt d = true
  plain : IsPlainName name

/-- What is known of a path whose last directory was found. -/
theorem slot_eq_ok {s : Slot} (h : t.slot p = .ok s) (hlast : p.names.getLast? = some name) :
    p.fault? = none ∧ t.Leads true maxLinks [] p.names.dropLast s.directory ∧
      t.isDirectoryAt s.directory = true ∧ s.asksForDirectory = p.asksForDirectory ∧
      s.name? = if name = [dot] ∨ name = [dot, dot] then none else some name := by
  unfold slot at h
  cases hfault : p.fault? with
  | some err => simp [hfault] at h
  | none =>
      simp only [hfault, hlast] at h
      obtain ⟨d, hwalk, h⟩ := bind_eq_ok.mp h
      have hleads := walk_eq_ok_iff.mp hwalk
      by_cases hdir : t.isDirectoryAt d = true
      · simp only [hdir, Bool.not_true, Bool.false_eq_true, if_false] at h
        split at h
        · next hdots =>
            cases h
            exact ⟨rfl, hleads, hdir, rfl, (if_pos hdots).symm⟩
        · next hdots =>
            cases h
            exact ⟨rfl, hleads, hdir, rfl, (if_neg hdots).symm⟩
      · simp [hdir] at h

namespace InDirectory

/-- A path names at most one entry of one directory. -/
theorem unique {d' : Location} {name' : Name} (h : t.InDirectory p d name)
    (h' : t.InDirectory p d' name') : d = d' ∧ name = name' := by
  refine ⟨h.leads.unique h'.leads, ?_⟩
  have hsome := h.getLast.symm.trans h'.getLast
  exact Option.some.inj hsome

theorem slot (h : t.InDirectory p d name) : t.slot p = .ok ⟨d, some name, p.asksForDirectory⟩ := by
  unfold Tree.slot
  simp only [h.fault, h.getLast, walk_eq_ok_iff.mpr h.leads, bind, Except.bind]
  simp [h.isDirectoryAt, h.plain.ne_dot, h.plain.ne_dots]

theorem names_eq (h : t.InDirectory p d name) : p.names = p.names.dropLast ++ [name] := by
  obtain ⟨before, hbefore⟩ := List.getLast?_eq_some_iff.mp h.getLast
  rw [hbefore, List.dropLast_concat]

/-- **What a path names depends on directories and links only.** -/
theorem of_keepsWays (h : t.InDirectory p d name) (hways : t.KeepsWays t') :
    t'.InDirectory p d name where
  fault := h.fault
  getLast := h.getLast
  leads := h.leads.of_keepsWays h.isDirectoryAt hways
  isDirectoryAt := hways.isDirectoryAt h.isDirectoryAt
  plain := h.plain

/-- A new entry changes nothing about what a path names. -/
theorem insert (h : t.InDirectory p d name) (hvacant : t.entry? l = none) (e : Entry) :
    (t.insert l e).InDirectory p d name := h.of_keepsWays (.of_le (le_insert hvacant))

/-- A plain last name is in a directory as soon as that can be found. -/
theorem of_slot {s : Slot} (hslot : t.slot p = .ok s) (hlast : p.names.getLast? = some name)
    (hplain : IsPlainName name) : t.InDirectory p s.directory name := by
  obtain ⟨hfault, hleads, hdir, -⟩ := slot_eq_ok hslot hlast
  exact ⟨hfault, hlast, hleads, hdir, hplain⟩

/-! ## Looking at the entry -/

theorem steps_eq (h : t.InDirectory p d name) (hasks : p.asksForDirectory = false) :
    p.steps = p.names.dropLast ++ [name] := by
  rw [Path.steps, hasks]
  simpa using h.names_eq

/-- Looking at a path without following a link at its end finds the entry that it names. -/
theorem locate_iff (h : t.InDirectory p d name) (hasks : p.asksForDirectory = false) :
    t.locate false p = .ok l ↔ l = d ++ [name] ∧ ∃ e, t.entry? l = some e := by
  rw [locate_eq_ok_iff, h.steps_eq hasks]
  constructor
  · rintro ⟨-, hleads⟩
    obtain ⟨left, d', hfirst, hlast⟩ := hleads.split (by simp)
    rw [hfirst.unique h.leads] at hlast
    exact hlast.eq_of_singleton h.plain
  · rintro ⟨rfl, e, hentry⟩
    obtain ⟨left, hleft⟩ := h.leads.append false [name] (by simp)
    exact ⟨h.fault, hleft _ (.singleton h.isDirectoryAt h.plain hentry)⟩

/-- Following a path to a directory that it names finds that directory. -/
theorem locate_directory {mode : Nat} (h : t.InDirectory p d name)
    (hentry : t.entry? (d ++ [name]) = some (.directory mode)) :
    t.locate true p = .ok (d ++ [name]) := by
  rw [locate_eq_ok_iff, Path.steps, h.names_eq, List.append_assoc]
  obtain ⟨left, hleft⟩ := h.leads.append true
    ([name] ++ if p.asksForDirectory then [[dot]] else []) (by simp)
  refine ⟨h.fault, hleft _ (.enter h.isDirectoryAt h.plain hentry (by simp) ?_)⟩
  split
  · exact .stay (isDirectoryAt_iff.mpr ⟨mode, hentry⟩) .arrived
  · exact .arrived

/-- All names of a path to a directory lead to that directory. -/
theorem leads_names {mode : Nat} (h : t.InDirectory p d name)
    (hasks : p.asksForDirectory = false)
    (hentry : t.entry? (d ++ [name]) = some (.directory mode)) :
    t.Leads true maxLinks [] p.names (d ++ [name]) := by
  obtain ⟨-, hleads⟩ := locate_eq_ok_iff.mp (h.locate_directory hentry)
  rw [Path.steps, hasks] at hleads
  simpa using hleads

/-- Octets without a slash that end a path and name a file say something. -/
theorem isName_of_join {octets : Octets} (h : t.InDirectory (p.join ⟨octets⟩) d name)
    (hslash : slash ∉ octets) (hasks : (p.join ⟨octets⟩).asksForDirectory = false) :
    Path.IsName octets where
  ne_nil := by
    rintro rfl
    have hnames : (p.join ⟨[]⟩).names ≠ [] := by
      intro hnil
      have hlast := h.getLast
      rw [hnil] at hlast
      cases hlast
    -- The path is empty or ends in a slash.
    rcases Path.join_eq (p := p) (q := ⟨[]⟩) rfl with ⟨-, hjoin⟩ | ⟨before, -, hjoin⟩ | ⟨-, hjoin⟩
    · rw [hjoin] at hnames
      exact hnames rfl
    · rw [hjoin] at hnames hasks
      simp [Path.asksForDirectory, hnames] at hasks
    · rw [hjoin] at hnames hasks
      simp [Path.asksForDirectory, hnames] at hasks
  ne_dot := by
    rintro rfl
    have hnames : (p.join ⟨[dot]⟩).names = p.names ++ [[dot]] := Path.names_join rfl
    have hlast := h.getLast
    rw [hnames, List.getLast?_concat] at hlast
    exact h.plain.ne_dot (Option.some.inj hlast).symm
  slash_notMem := hslash

end InDirectory

theorem find_eq_ok_iff {follow : Bool} :
    t.find follow p = .ok e ↔ ∃ l, t.locate follow p = .ok l ∧ t.entry? l = some e := by
  unfold find
  rw [bind_eq_ok]
  refine exists_congr fun l => and_congr_right fun _ => ?_
  cases t.entry? l with
  | none => simp
  | some e' => simp

/-- **The entry at a path is the one that the path names.** -/
theorem InDirectory.find_iff (h : t.InDirectory p d name) (hasks : p.asksForDirectory = false) :
    t.find false p = .ok e ↔ t.entry? (d ++ [name]) = some e := by
  rw [find_eq_ok_iff]
  constructor
  · rintro ⟨l, hl, hentry⟩
    obtain ⟨rfl, -⟩ := (h.locate_iff hasks).mp hl
    exact hentry
  · intro hentry
    exact ⟨_, (h.locate_iff hasks).mpr ⟨rfl, e, hentry⟩, hentry⟩

/-- **Nothing is at a path** whose directory does not have its last name. -/
theorem InDirectory.find_of_vacant (h : t.InDirectory p d name) (hasks : p.asksForDirectory = false)
    (hvacant : t.entry? (d ++ [name]) = none) : t.find false p = .error .notFound := by
  obtain ⟨left, hwalk⟩ := h.leads.walk_append false (List.cons_ne_nil name [])
  have hlocate : t.locate false p = .error .notFound := by
    unfold locate
    simp only [h.fault]
    rw [h.steps_eq hasks, hwalk, walk_cons_of_isPlainName h.isDirectoryAt h.plain, hvacant]
  rw [find, hlocate]
  rfl

/-- What is found at a path is found there in a tree that has more. -/
theorem locate_of_le {follow : Bool} (hle : t ≤ t') (h : t.locate follow p = .ok l) :
    t'.locate follow p = .ok l := by
  obtain ⟨hfault, hleads⟩ := locate_eq_ok_iff.mp h
  exact locate_eq_ok_iff.mpr ⟨hfault, hleads.of_le hle⟩

theorem find_of_le {follow : Bool} (hle : t ≤ t') (h : t.find follow p = .ok e) :
    t'.find follow p = .ok e := by
  obtain ⟨l, hl, hentry⟩ := find_eq_ok_iff.mp h
  exact find_eq_ok_iff.mpr ⟨l, locate_of_le hle hl, entry?_of_le hle hentry⟩

theorem isDirectory_iff : t.isDirectory p = true ↔
    ∃ l mode, t.locate true p = .ok l ∧ t.entry? l = some (.directory mode) := by
  unfold isDirectory
  constructor
  · intro h
    split at h
    · next mode hfind =>
        obtain ⟨l, hl, hentry⟩ := find_eq_ok_iff.mp hfind
        exact ⟨l, mode, hl, hentry⟩
    · cases h
  · rintro ⟨l, mode, hl, hentry⟩
    rw [find_eq_ok_iff.mpr ⟨l, hl, hentry⟩]

/-! ## Places for new entries -/

/-- The name of a slot is the last name of the path. -/
theorem getLast?_of_slot {s : Slot} (hslot : t.slot p = .ok s) (hname : s.name? = some name) :
    p.names.getLast? = some name := by
  cases hlast : p.names.getLast? with
  | none =>
      unfold slot at hslot
      cases hfault : p.fault? with
      | some err => simp [hfault] at hslot
      | none =>
          simp only [hfault, hlast, Except.ok.injEq] at hslot
          subst hslot
          cases hname
  | some last =>
      obtain ⟨-, -, -, -, hs⟩ := slot_eq_ok hslot hlast
      rw [hname] at hs
      split at hs
      · cases hs
      · rw [Option.some.inj hs]

/-- **A place for a new entry** is a last name that its directory does not have yet. -/
theorem vacancy_eq_ok_iff {asks : Bool} : t.vacancy p = .ok (l, asks) ↔
    ∃ d name, t.InDirectory p d name ∧ t.entry? (d ++ [name]) = none ∧ l = d ++ [name] ∧
      asks = p.asksForDirectory := by
  constructor
  · intro h
    unfold vacancy at h
    obtain ⟨s, hslot, h⟩ := bind_eq_ok.mp h
    cases hname : s.name? with
    | none => simp [hname] at h
    | some name =>
        simp only [hname] at h
        have hlast := getLast?_of_slot hslot hname
        obtain ⟨-, -, -, hasks, hs⟩ := slot_eq_ok hslot hlast
        -- A lone dot or a double dot would have left the slot without a name.
        have hdots : ¬ (name = [dot] ∨ name = [dot, dot]) := by
          intro hdots
          rw [hname, if_pos hdots] at hs
          cases hs
        split at h
        · cases h
        next hlength =>
        split at h
        · cases h
        next hentry =>
        obtain ⟨rfl, rfl⟩ := Prod.mk.inj (Except.ok.inj h)
        have hplain : IsPlainName name :=
          ⟨fun hdot => hdots (Or.inl hdot), fun hdot => hdots (Or.inr hdot), by omega⟩
        have hin : t.InDirectory p s.directory name := .of_slot hslot hlast hplain
        exact ⟨s.directory, name, hin, by simpa using hentry, rfl, hasks⟩
  · rintro ⟨d, name, hin, hentry, rfl, rfl⟩
    have hlength : ¬ maxNameLength < name.length := by
      have := hin.plain.length_le
      omega
    unfold vacancy
    simp only [hin.slot, bind, Except.bind]
    simp [hlength, hentry]

/-! ## Files under their last names -/

/-- Walking one name ends at a directory, or at the entry of that name. -/
theorem Leads.getLast?_of_singleton {left : Nat} {here : Location} (hwf : t.WellFormed)
    (h : t.Leads false left here [name] l) (hfile : t.isDirectoryAt l = false) :
    l.getLast? = some name ∧ name ≠ [dot] := by
  cases h.lastStep with
  | stay _ hdir hl =>
      rw [hl, hdir] at hfile
      cases hfile
  | up _ hdir hl =>
      rw [hl, hwf.isDirectoryAt_dropLast hdir] at hfile
      cases hfile
  | entry hplain _ hl => exact ⟨hl ▸ List.getLast?_concat, hplain.ne_dot⟩
  | through _ _ hfollow => cases hfollow

/-- In a well-formed tree, a path leads to a regular file under its own last name. -/
theorem getLast?_of_locate_file {mode : Nat} {content : Content} (hwf : t.WellFormed)
    (h : t.locate false p = .ok l) (hentry : t.entry? l = some (.file mode content)) :
    l.getLast? = p.names.getLast? := by
  have hfile := isDirectoryAt_eq_false hentry
  obtain ⟨-, hleads⟩ := locate_eq_ok_iff.mp h
  rcases List.eq_nil_or_concat p.names with hnil | ⟨before, name, hnames⟩
  · -- A path without names leads to the root directory.
    have hsteps : p.steps = [] := by simp [Path.steps, Path.asksForDirectory, hnil]
    rw [hsteps] at hleads
    cases hleads
    simp at hentry
  rw [List.concat_eq_append] at hnames
  by_cases hasks : p.asksForDirectory = true
  · -- A slash at the end asks for a directory.
    rw [Path.steps, if_pos hasks] at hleads
    obtain ⟨left, d, -, hlast⟩ := hleads.split (by simp)
    exact absurd rfl (hlast.getLast?_of_singleton hwf hfile).2
  · rw [Path.steps, if_neg hasks, List.append_nil, hnames] at hleads
    obtain ⟨left, d, -, hlast⟩ := hleads.split (by simp)
    rw [(hlast.getLast?_of_singleton hwf hfile).1, hnames, List.getLast?_concat]

end Tree

end PartitionUnits
