import PartitionUnits.Proofs.FileSystem.Slot

/-!
# What steps do

Every step on a tree, said once: what it can do to the tree, and when it does it.

## Main Definitions

* `Tree.Effect` — what a step can do to a tree
* `apply_effect` — it does nothing else
* `WellFormed.of_effect` — a step keeps a tree well-formed
* `apply_write`, `InDirectory.apply_removeFile`, … — a step that is certain to succeed

## Design Notes

`Effect` has a constructor for each way in which a step changes a tree and one for a step that
changes nothing, with everything that is known then.  Invariants of trees are case analyses of it.
-/

namespace PartitionUnits

/-! ## Names of temporary files -/

namespace Draw

theorem length_name (draw : Draw) : draw.name.length = 17 := by
  rw [name, List.length_append, draw.length_eq]
  decide

theorem name_ne (draw : Draw) {octets : Octets} (h : octets.length ≠ 17) : draw.name ≠ octets := by
  rintro rfl
  exact h draw.length_name

/-- The name of a temporary file is a name of a path. -/
theorem isName (draw : Draw) : Path.IsName draw.name where
  ne_nil := draw.name_ne (by decide)
  ne_dot := draw.name_ne (by decide)
  slash_notMem := by
    intro h
    rcases List.mem_append.mp h with hstart | hend
    · exact absurd hstart (by decide)
    · exact absurd (draw.drawable _ hend) (by decide)

theorem isPlainName (draw : Draw) : Tree.IsPlainName draw.name where
  ne_dot := draw.isName.ne_dot
  ne_dots := draw.name_ne (by decide)
  length_le := by
    rw [length_name]
    decide

/-- A name with another dot than its first octet is not drawn. -/
theorem name_ne_append {before ending : Octets} (draw : Draw) (hdot : dot ∈ ending)
    (hlength : ending.length ≤ 16) : draw.name ≠ before ++ ending := by
  cases before with
  | nil => exact draw.name_ne (by rw [List.nil_append]; omega)
  | cons b before =>
      intro h
      have htail : temporaryStart.tail ++ draw.octets = before ++ ending := by
        rw [← List.tail_append_of_ne_nil (by decide)]
        exact congrArg List.tail h
      have hmem : dot ∈ temporaryStart.tail ++ draw.octets :=
        htail ▸ List.mem_append_right before hdot
      rcases List.mem_append.mp hmem with hstart | hend
      · exact absurd hstart (by decide)
      · exact absurd (draw.drawable _ hend) (by decide)

end Draw

namespace Tree

variable {t t' : Tree} {p file target directory : Path} {d l : Location} {name : Name} {e : Entry}
  {mode : Nat} {content : Content}

/-! ## Steps that succeed -/

theorem apply_eq_of_attempt_ok {c : Change} (h : t.attempt c = .ok (t', p)) :
    t.apply c = (.ok p, t') := by
  rw [apply, h]

theorem apply_eq_of_attempt_error {c : Change} {err : FileError} (h : t.attempt c = .error err) :
    t.apply c = (.error err, t) := by
  rw [apply, h]

/-- A step that answers with a given path does so, or fails and changes nothing. -/
theorem apply_cases {c : Change} {r : Except FileError Tree} (hc : t.attempt c = answerAt p r) :
    (∃ err, r = .error err ∧ t.apply c = (.error err, t)) ∨
      ∃ final, r = .ok final ∧ t.apply c = (.ok p, final) := by
  cases r with
  | error err => exact Or.inl ⟨err, rfl, apply_eq_of_attempt_error hc⟩
  | ok final => exact Or.inr ⟨final, rfl, apply_eq_of_attempt_ok hc⟩

/-- Asking for a directory changes nothing. -/
theorem apply_checkDirectory : t.apply (.checkDirectory p) =
    (if t.isDirectory p then .ok p else .error .notDirectory, t) := by
  by_cases hdirectory : t.isDirectory p = true
  · rw [if_pos hdirectory]
    exact apply_eq_of_attempt_ok (if_pos hdirectory)
  · rw [if_neg hdirectory]
    exact apply_eq_of_attempt_error (if_neg hdirectory)

/-- A temporary file has the first drawn name that is not taken. -/
theorem createTemporary_eq_ok {draws : List Draw}
    (h : t.createTemporary directory draws = .ok (t', file)) :
    ∃ draw ∈ draws, ∃ d, file = directory.join ⟨draw.name⟩ ∧ t.InDirectory file d draw.name ∧
      t.entry? (d ++ [draw.name]) = none ∧
      t' = t.insert (d ++ [draw.name]) (.file 0o600 (.octets [])) := by
  induction draws with
  | nil => cases h
  | cons draw rest ih =>
      unfold createTemporary at h
      simp only at h
      split at h
      · next l asks hvacancy =>
          obtain ⟨rfl, rfl⟩ := Prod.mk.inj (Except.ok.inj h)
          obtain ⟨d, name, hin, hnone, rfl, -⟩ := vacancy_eq_ok_iff.mp hvacancy
          have hname : name = draw.name := by
            have hlast := hin.getLast.symm.trans draw.isName.getLast?_names_join
            exact Option.some.inj hlast
          subst hname
          exact ⟨draw, List.mem_cons_self, d, rfl, hin, hnone, rfl⟩
      · -- The name is taken, so the next one is tried.
        obtain ⟨draw', hdraw', hrest⟩ := ih h
        exact ⟨draw', List.mem_cons_of_mem _ hdraw', hrest⟩
      · cases h

theorem entry?_of_fileAt (h : t.fileAt p = .ok (l, mode, content)) :
    t.entry? l = some (.file mode content) := by
  unfold fileAt at h
  obtain ⟨l', -, h⟩ := bind_eq_ok.mp h
  split at h
  · next hentry =>
      obtain ⟨rfl, hrest⟩ := Prod.mk.inj (Except.ok.inj h)
      obtain ⟨rfl, rfl⟩ := Prod.mk.inj hrest
      exact hentry
  all_goals cases h

/-- A regular file is found under the name that its path names. -/
theorem InDirectory.fileAt (h : t.InDirectory p d name) (hasks : p.asksForDirectory = false)
    (hentry : t.entry? (d ++ [name]) = some (.file mode content)) :
    t.fileAt p = .ok (d ++ [name], mode, content) := by
  have hlocate := (h.locate_iff hasks).mpr ⟨rfl, _, hentry⟩
  simp [Tree.fileAt, hlocate, bind, Except.bind, hentry]

theorem apply_write (data : Octets) (h : t.fileAt file = .ok (l, mode, content)) :
    t.apply (.write file data) = (.ok file, t.insert l (.file mode (.octets data))) := by
  apply apply_eq_of_attempt_ok
  simp [attempt, write, h, bind, Except.bind, answerAt, Except.map]

theorem apply_setMode (mode' : Nat) (h : t.fileAt file = .ok (l, mode, content)) :
    t.apply (.setMode file mode') = (.ok file, t.insert l (.file mode' content)) := by
  apply apply_eq_of_attempt_ok
  simp [attempt, setMode, h, bind, Except.bind, answerAt, Except.map]

/-- A regular file can take a name that its directory does not have yet. -/
theorem InDirectory.rename_eq (h : t.InDirectory target d name)
    (hasks : target.asksForDirectory = false) (hvacant : t.entry? (d ++ [name]) = none)
    (hfile : t.fileAt file = .ok (l, mode, content)) :
    t.rename file target = .ok ((t.erase l).insert (d ++ [name]) (.file mode content)) := by
  have hvacancy : t.vacancy target = .ok (d ++ [name], false) :=
    vacancy_eq_ok_iff.mpr ⟨d, name, h, hvacant, rfl, hasks.symm⟩
  simp [rename, hfile, hvacancy, bind, Except.bind]

/-- A file or a link that a path names can be removed. -/
theorem InDirectory.apply_removeFile (h : t.InDirectory p d name)
    (hasks : p.asksForDirectory = false) (hentry : t.entry? (d ++ [name]) = some e)
    (he : e.isDirectory = false) :
    t.apply (.removeFile p) = (.ok p, t.erase (d ++ [name])) := by
  apply apply_eq_of_attempt_ok
  cases e with
  | directory mode => cases he
  | file mode content =>
      simp [attempt, removeFile, h.slot, hasks, bind, Except.bind, hentry, answerAt, Except.map]
  | link target =>
      simp [attempt, removeFile, h.slot, hasks, bind, Except.bind, hentry, answerAt, Except.map]

/-- A directory that a path names can be removed if it is empty. -/
theorem InDirectory.attempt_removeDirectory (h : t.InDirectory p d name)
    (hentry : t.entry? (d ++ [name]) = some (.directory mode)) :
    t.attempt (.removeDirectory p) =
      if t.names (d ++ [name]) = [] then .ok (t.erase (d ++ [name]), p) else .error .notEmpty := by
  simp only [attempt, removeDirectory, h.slot, bind, Except.bind, hentry]
  split <;> rfl

/-! ## What a step can do -/

/-- **What a step can do to a tree.** -/
inductive Effect (t : Tree) : Change → Tree → Prop where
  | nothing {c : Change} : Effect t c t
  | temporary {directory file : Path} {draws : List Draw} {draw : Draw} {d : Location}
      (hdraw : draw ∈ draws) (hin : t.InDirectory file d draw.name)
      (hvacant : t.entry? (d ++ [draw.name]) = none) :
      Effect t (.createTemporary directory draws)
        (t.insert (d ++ [draw.name]) (.file 0o600 (.octets [])))
  | written {file : Path} {data : Octets} {l : Location} {mode : Nat} {content : Content}
      (hentry : t.entry? l = some (.file mode content)) :
      Effect t (.write file data) (t.insert l (.file mode (.octets data)))
  | modeSet {file : Path} {l : Location} {mode mode' : Nat} {content : Content}
      (hentry : t.entry? l = some (.file mode content)) :
      Effect t (.setMode file mode') (t.insert l (.file mode' content))
  | renamed {file target : Path} {l d : Location} {name : Name} {mode : Nat} {content : Content}
      (hentry : t.entry? l = some (.file mode content)) (hin : t.InDirectory target d name)
      (hvacant : t.entry? (d ++ [name]) = none) :
      Effect t (.rename file target) ((t.erase l).insert (d ++ [name]) (.file mode content))
  | directoryMade {p : Path} {d : Location} {name : Name} (hin : t.InDirectory p d name)
      (hvacant : t.entry? (d ++ [name]) = none) :
      Effect t (.makeDirectory p) (t.insert (d ++ [name]) (.directory directoryMode))
  | linkMade {target link : Path} {d : Location} {name : Name} (hin : t.InDirectory link d name)
      (hvacant : t.entry? (d ++ [name]) = none) :
      Effect t (.makeLink target link) (t.insert (d ++ [name]) (.link target.octets))
  | fileRemoved {p : Path} {l : Location} {e : Entry} (hentry : t.entry? l = some e)
      (he : e.isDirectory = false) : Effect t (.removeFile p) (t.erase l)
  | directoryRemoved {p : Path} {l : Location} {mode : Nat}
      (hentry : t.entry? l = some (.directory mode)) (hempty : t.names l = []) :
      Effect t (.removeDirectory p) (t.erase l)

theorem answerAt_eq_ok {r : Except FileError Tree} (h : answerAt p r = .ok (t', file)) :
    r = .ok t' := by
  cases r with
  | error err => cases h
  | ok u =>
      obtain ⟨rfl, -⟩ := Prod.mk.inj (Except.ok.inj h)
      rfl

/-- A file is given a name only where its directory does not have that name yet. -/
theorem rename_eq_ok (h : t.rename file target = .ok t') :
    ∃ l mode content d name, t.fileAt file = .ok (l, mode, content) ∧
      t.InDirectory target d name ∧ target.asksForDirectory = false ∧
      t.entry? (d ++ [name]) = none ∧
      t' = (t.erase l).insert (d ++ [name]) (.file mode content) := by
  unfold rename at h
  obtain ⟨⟨l, mode, content⟩, hfile, h⟩ := bind_eq_ok.mp h
  obtain ⟨⟨l', asks⟩, hvacancy, h⟩ := bind_eq_ok.mp h
  simp only at h
  split at h
  · cases h
  next hasks =>
    obtain ⟨d, name, hin, hvacant, rfl, rfl⟩ := vacancy_eq_ok_iff.mp hvacancy
    cases h
    exact ⟨l, mode, content, d, name, hfile, hin, by simpa using hasks, hvacant, rfl⟩

/-- A directory is made where its directory does not have that name yet. -/
theorem makeDirectory_eq_ok (h : t.makeDirectory p = .ok t') :
    ∃ d name, t.InDirectory p d name ∧ t.entry? (d ++ [name]) = none ∧
      t' = t.insert (d ++ [name]) (.directory directoryMode) := by
  unfold makeDirectory at h
  obtain ⟨⟨l, asks⟩, hvacancy, h⟩ := bind_eq_ok.mp h
  obtain ⟨d, name, hin, hvacant, rfl, -⟩ := vacancy_eq_ok_iff.mp hvacancy
  cases h
  exact ⟨d, name, hin, hvacant, rfl⟩

/-- A link is made where its directory does not have that name yet. -/
theorem makeLink_eq_ok (h : t.makeLink target p = .ok t') :
    ∃ d name, t.InDirectory p d name ∧ p.asksForDirectory = false ∧
      t.entry? (d ++ [name]) = none ∧ t' = t.insert (d ++ [name]) (.link target.octets) := by
  unfold makeLink at h
  split at h
  · cases h
  obtain ⟨⟨l, asks⟩, hvacancy, h⟩ := bind_eq_ok.mp h
  simp only at h
  split at h
  · cases h
  next hasks =>
    obtain ⟨d, name, hin, hvacant, rfl, rfl⟩ := vacancy_eq_ok_iff.mp hvacancy
    cases h
    exact ⟨d, name, hin, by simpa using hasks, hvacant, rfl⟩

/-- What is removed as a file is what the path names, and no directory. -/
theorem removeFile_eq_ok (h : t.removeFile p = .ok t') :
    ∃ s name e, t.slot p = .ok s ∧ s.name? = some name ∧
      t.entry? (s.directory ++ [name]) = some e ∧ e.isDirectory = false ∧
      t' = t.erase (s.directory ++ [name]) := by
  unfold removeFile at h
  obtain ⟨s, hslot, h⟩ := bind_eq_ok.mp h
  split at h
  · cases h
  next name hname =>
  split at h
  · cases h
  · cases h
  next e hdirectory hentry =>
  split at h
  · cases h
  · cases h
    have he : e.isDirectory = false := by
      cases e with
      | directory mode => exact absurd rfl (hdirectory mode)
      | file mode content => rfl
      | link target => rfl
    exact ⟨s, name, e, hslot, hname, hentry, he, rfl⟩

theorem effect_removeDirectory (h : t.removeDirectory p = .ok t') :
    t.Effect (.removeDirectory p) t' := by
  unfold removeDirectory at h
  obtain ⟨s, -, h⟩ := bind_eq_ok.mp h
  split at h
  · cases h
  simp only at h
  split at h
  · cases h
  next mode hentry =>
    split at h
    · next hempty =>
        cases h
        exact .directoryRemoved hentry hempty
    · cases h
  · cases h

/-- A step that succeeds has one of the effects. -/
theorem effect_of_attempt_ok {c : Change} (h : t.attempt c = .ok (t', p)) : t.Effect c t' := by
  cases c with
  | createTemporary directory draws =>
      obtain ⟨draw, hdraw, d, -, hin, hvacant, rfl⟩ := createTemporary_eq_ok h
      exact .temporary hdraw hin hvacant
  | write file data =>
      have hwrite := answerAt_eq_ok h
      unfold write at hwrite
      obtain ⟨found, hfile, hwrite⟩ := bind_eq_ok.mp hwrite
      cases hwrite
      exact .written (entry?_of_fileAt hfile)
  | setMode file mode =>
      have hset := answerAt_eq_ok h
      unfold setMode at hset
      obtain ⟨found, hfile, hset⟩ := bind_eq_ok.mp hset
      cases hset
      exact .modeSet (entry?_of_fileAt hfile)
  | rename file target =>
      obtain ⟨l, mode, content, d, name, hfile, hin, -, hvacant, rfl⟩ :=
        rename_eq_ok (answerAt_eq_ok h)
      exact .renamed (entry?_of_fileAt hfile) hin hvacant
  | makeDirectory directory =>
      obtain ⟨d, name, hin, hvacant, rfl⟩ := makeDirectory_eq_ok (answerAt_eq_ok h)
      exact .directoryMade hin hvacant
  | makeLink target link =>
      obtain ⟨d, name, hin, -, hvacant, rfl⟩ := makeLink_eq_ok (answerAt_eq_ok h)
      exact .linkMade hin hvacant
  | removeFile file =>
      obtain ⟨s, name, e, -, -, hentry, he, rfl⟩ := removeFile_eq_ok (answerAt_eq_ok h)
      exact .fileRemoved hentry he
  | removeDirectory directory => exact effect_removeDirectory (answerAt_eq_ok h)
  | checkDirectory directory =>
      simp only [attempt] at h
      split at h
      · obtain ⟨rfl, -⟩ := Prod.mk.inj (Except.ok.inj h)
        exact .nothing
      · cases h

/-- **A step has one of the effects, whether it succeeds or not.** -/
theorem apply_effect (t : Tree) (c : Change) : t.Effect c (t.apply c).2 := by
  cases hattempt : t.attempt c with
  | error err =>
      rw [apply_eq_of_attempt_error hattempt]
      exact .nothing
  | ok result =>
      obtain ⟨t', p⟩ := result
      rw [apply_eq_of_attempt_ok hattempt]
      exact effect_of_attempt_ok hattempt

/-! ## Invariants of trees -/

/-- A regular file has nothing below it. -/
theorem WellFormed.vacant_below_file (h : t.WellFormed)
    (hentry : t.entry? l = some (.file mode content)) (name : Name) :
    t.entry? (l ++ [name]) = none :=
  h.entry?_eq_none (isDirectoryAt_eq_false hentry) name

/-- Replacing a regular file by another keeps a tree well-formed. -/
theorem WellFormed.insert_file {mode' : Nat} {content' : Content} (h : t.WellFormed)
    (hentry : t.entry? l = some (.file mode content)) :
    (t.insert l (.file mode' content')).WellFormed where
  parent := by
    intro d name e he
    have hl : l ≠ [] := by
      rintro rfl
      simp at hentry
    have hd : t.isDirectoryAt d = true := by
      rcases entry?_insert_eq_some hl he with ⟨rfl, -⟩ | ⟨-, hold⟩
      · exact h.parent hentry
      · exact h.parent hold
    have hne : d ≠ l := by
      rintro rfl
      rw [isDirectoryAt_eq_false hentry] at hd
      cases hd
    rw [isDirectoryAt_congr (entry?_insert_of_ne hne)]
    exact hd

/-- **Every step keeps a tree well-formed.** -/
theorem WellFormed.of_effect {c : Change} (h : t.WellFormed) (heffect : t.Effect c t') :
    t'.WellFormed := by
  cases heffect with
  | nothing => exact h
  | temporary _ hin hvacant => exact h.insert hin.isDirectoryAt hvacant
  | written hentry => exact h.insert_file hentry
  | modeSet hentry => exact h.insert_file hentry
  | @renamed _ _ l d name mode content hentry hin hvacant =>
      -- The file goes first, and the directory of its new name is not the file itself.
      have hl : l ≠ [] := by
        rintro rfl
        simp at hentry
      have hd : d ≠ l := by
        rintro rfl
        have hdir := hin.isDirectoryAt
        rw [isDirectoryAt_eq_false hentry] at hdir
        cases hdir
      have herased := h.erase (h.vacant_below_file hentry)
      refine herased.insert ?_ (entry?_eq_none_of_le erase_le hvacant)
      rw [isDirectoryAt_congr (entry?_erase_of_ne hd)]
      exact hin.isDirectoryAt
  | directoryMade hin hvacant => exact h.insert hin.isDirectoryAt hvacant
  | linkMade hin hvacant => exact h.insert hin.isDirectoryAt hvacant
  | @fileRemoved _ l e hentry he =>
      refine h.erase fun name => h.entry?_eq_none ?_ name
      simpa [isDirectoryAt, hentry] using he
  | directoryRemoved _ hempty => exact h.erase (names_eq_nil_iff.mp hempty)

end Tree

end PartitionUnits
