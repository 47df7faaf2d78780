import Mathlib.Tactic.SplitIfs
import PartitionUnits.Proofs.Text.Words
import PartitionUnits.Proofs.Unit.Name
import PartitionUnits.Unit.Text

/-!
# Reading unit files

What a generated file says to a reader that takes it line by line.

## Main Definitions

* `Line.read` — what one line says
* `settingsOf`, `valuesOf`, `wordsOf` — what a whole text says
* `UnitFile.Readable` — a unit whose texts cannot be taken for more than they are
* `UnitFile.settingsOf_text` — the file of such a unit says what the unit was built from
* `UnitFile.exists_settingsOf_text` — the end of any unit's file says what the unit does
* `UnitFile.wordsOf_relation` — the dependencies it declares are the unit's own, in order

## Design Notes

The reader knows nothing of units.  It cuts a text at line feeds and a line at its first equals
sign, so whatever a value holds besides a line feed comes back unchanged; that a value cannot pass
for a heading or for another key rests on the keys alone.  Lines are not joined, as no generated
line asks for that, and quotes are not taken apart here.
-/

namespace PartitionUnits

open Text

/-! ## The reader -/

/-- What a line of a file says. -/
inductive Line where
  /-- The settings that follow belong to a group. -/
  | heading (group : String)
  | setting (key value : String)
  /-- A comment, or nothing to make sense of. -/
  | other
deriving DecidableEq, Repr

/-- What a line says, by its first character and its first equals sign. -/
def Line.read (cs : List Char) : Line :=
  if cs.head? = some '#' then .other
  else if cs.head? = some '[' ∧ cs.getLast? = some ']' then
    .heading (String.ofList cs.tail.dropLast)
  else
    match cut? '=' cs with
    | some (key, value) => .setting (String.ofList key) (String.ofList value)
    | none => .other

/-- A setting as it was read, with the group that it stands in. -/
structure ReadSetting where
  group : String
  key : String
  value : String
deriving DecidableEq, Repr

/-- What lines say, given the group that the first of them stands in. -/
def readLines (group : String) : List (List Char) → List ReadSetting
  | [] => []
  | cs :: rest =>
    match Line.read cs with
    | .heading group' => readLines group' rest
    | .setting key value => ⟨group, key, value⟩ :: readLines group rest
    | .other => readLines group rest

/-- What a text says, setting by setting. -/
def settingsOf (text : String) : List ReadSetting := readLines "" (text.toList.splitOn '\n')

/-- What a text sets a key to, each time that it does. -/
def valuesOf (text group key : String) : List String :=
  ((settingsOf text).filter fun s => s.group = group ∧ s.key = key).map (·.value)

/-- The words that a text sets a key to, all values taken together. -/
def wordsOf (text group key : String) : List String :=
  (valuesOf text group key).flatMap fun value =>
    (words isBlank value.toList).map String.ofList

/-! ## Lines -/

/-- A text that can stand in a line. -/
def OneLine (s : String) : Prop := '\n' ∉ s.toList

instance (s : String) : Decidable (OneLine s) := inferInstanceAs (Decidable (_ ∉ _))

theorem OneLine.append {s s' : String} (h : OneLine s) (h' : OneLine s') : OneLine (s ++ s') := by
  unfold OneLine
  rw [String.toList_append, List.mem_append]
  rintro (hmem | hmem)
  · exact h hmem
  · exact h' hmem

/-- A key that cannot be taken for a heading, a comment or a shorter key. -/
structure IsKey (key : String) : Prop where
  ne_comment : key.toList.head? ≠ some '#'
  ne_heading : key.toList.head? ≠ some '['
  equals_notMem : '=' ∉ key.toList
  oneLine : OneLine key

instance (key : String) : Decidable (IsKey key) :=
  decidable_of_iff (key.toList.head? ≠ some '#' ∧ key.toList.head? ≠ some '[' ∧
    '=' ∉ key.toList ∧ OneLine key)
    ⟨fun ⟨h₁, h₂, h₃, h₄⟩ => ⟨h₁, h₂, h₃, h₄⟩, fun ⟨h₁, h₂, h₃, h₄⟩ => ⟨h₁, h₂, h₃, h₄⟩⟩

/-- **A line that sets a key is read as that.** -/
theorem Line.read_settingLine {key value : String} (h : IsKey key) :
    Line.read (settingLine key value).toList = .setting key value := by
  have hline : (settingLine key value).toList = key.toList ++ '=' :: value.toList := by
    simp [settingLine, String.toList_append]
  have hhead : ∀ c, c ≠ '=' → key.toList.head? ≠ some c →
      (key.toList ++ '=' :: value.toList).head? ≠ some c := by
    intro c hc hkey
    cases hchars : key.toList with
    | nil => simpa using hc.symm
    | cons d ds =>
        rw [hchars] at hkey
        exact hkey
  rw [hline, Line.read, if_neg (hhead '#' (by decide) h.ne_comment),
    if_neg (fun hboth => hhead '[' (by decide) h.ne_heading hboth.1), cut?_append h.equals_notMem]
  simp

/-- A name in brackets is read as a heading. -/
theorem Line.read_heading (group : String) :
    Line.read ("[" ++ group ++ "]").toList = .heading group := by
  have hline : ("[" ++ group ++ "]").toList = '[' :: group.toList ++ [']'] := by
    simp [String.toList_append]
  rw [hline, Line.read, if_neg (by simp), if_pos ⟨rfl, List.getLast?_concat⟩]
  simp

/-- **Lines that were put together into a text are the lines of the text.** -/
theorem splitOn_linesText {lines : List String} (h : ∀ line ∈ lines, OneLine line) :
    (linesText lines).toList.splitOn '\n' = lines.map String.toList ++ [[]] := by
  rw [linesText, String.toList_join, List.flatMap_map]
  induction lines with
  | nil => rfl
  | cons line rest ih =>
      obtain ⟨hline, hrest⟩ := List.forall_mem_cons.mp h
      rw [List.flatMap_cons, String.toList_append, List.append_assoc,
        show "\n".toList = ['\n'] from rfl, List.singleton_append, List.splitOn_append_cons_self,
        List.splitOn_eq_singleton hline, ih hrest]
      rfl

/-- Further lines are read in the group that the lines before them have come to. -/
theorem exists_readLines_append (group : String) (before after : List (List Char)) :
    ∃ group',
      readLines group (before ++ after) = readLines group before ++ readLines group' after := by
  induction before generalizing group with
  | nil => exact ⟨group, rfl⟩
  | cons line before ih =>
      rw [List.cons_append, readLines, readLines]
      cases Line.read line with
      | heading group' => exact ih group'
      | setting key value =>
          obtain ⟨group', hrest⟩ := ih group
          exact ⟨group', congrArg _ hrest⟩
      | other => exact ih group

/-! ## Groups -/

/-- Lines that set keys under a heading. -/
def groupLines (group : String) (settings : List (String × String)) : List String :=
  ("[" ++ group ++ "]") :: settings.map fun s => settingLine s.1 s.2

/-- Settings that come back as they were written. -/
def Legible (settings : List (String × String)) : Prop :=
  ∀ s ∈ settings, IsKey s.1 ∧ OneLine s.2

/-- Settings as they are read. -/
def readAs (group : String) (settings : List (String × String)) : List ReadSetting :=
  settings.map fun s => ⟨group, s.1, s.2⟩

section

variable {group : String} {settings : List (String × String)}

theorem oneLine_groupLines (hgroup : OneLine group) (h : Legible settings) :
    ∀ line ∈ groupLines group settings, OneLine line := by
  intro line hline
  rcases List.mem_cons.mp hline with rfl | hline
  · exact (OneLine.append (by decide) hgroup).append (by decide)
  · obtain ⟨s, hs, rfl⟩ := List.mem_map.mp hline
    obtain ⟨hkey, hvalue⟩ := h s hs
    exact (hkey.oneLine.append (by decide)).append hvalue

/-- **Lines under a heading are read as the settings of its group.** -/
theorem readLines_groupLines (before : String) (h : Legible settings) (rest : List (List Char)) :
    readLines before ((groupLines group settings).map String.toList ++ rest) =
      readAs group settings ++ readLines group rest := by
  have hsettings : ∀ settings : List (String × String), Legible settings →
      readLines group ((settings.map fun s => settingLine s.1 s.2).map String.toList ++ rest) =
        readAs group settings ++ readLines group rest := by
    intro settings h
    induction settings with
    | nil => rfl
    | cons s others ih =>
        obtain ⟨hfirst, hothers⟩ := List.forall_mem_cons.mp h
        rw [List.map_cons, List.map_cons, List.cons_append, readLines,
          Line.read_settingLine hfirst.1]
        simp only [ih hothers]
        rfl
  rw [groupLines, List.map_cons, List.cons_append, readLines, Line.read_heading]
  exact hsettings settings h

/-- The file of a drop-in says what it was built from. -/
theorem settingsOf_settingsText (hgroup : OneLine group) (h : Legible settings) :
    settingsOf (settingsText group settings) = readAs group settings := by
  have hlines : settingsText group settings =
      linesText ([generatedHeader, ""] ++ groupLines group settings) := rfl
  have honeLine : ∀ line ∈ [generatedHeader, ""] ++ groupLines group settings, OneLine line := by
    intro line hline
    rcases List.mem_append.mp hline with hline | hline
    · exact (by decide : ∀ line ∈ [generatedHeader, ""], OneLine line) line hline
    · exact oneLine_groupLines hgroup h line hline
  rw [hlines, settingsOf, splitOn_linesText honeLine, List.map_append, List.append_assoc]
  show readLines "" ((groupLines group settings).map String.toList ++ [[]]) = _
  rw [readLines_groupLines "" h]
  exact List.append_nil _

/-- What settings set a key to. -/
def assigned (settings : List (String × String)) (key : String) : List String :=
  (settings.filter (·.1 = key)).map (·.2)

theorem assigned_append (settings settings' : List (String × String)) (key : String) :
    assigned (settings ++ settings') key = assigned settings key ++ assigned settings' key := by
  simp [assigned]

theorem filter_readAs (key : String) :
    ((readAs group settings).filter fun s => s.group = group ∧ s.key = key).map (·.value) =
      assigned settings key := by
  induction settings with
  | nil => rfl
  | cons s others ih =>
      by_cases hkey : s.1 = key <;> simp_all [readAs, assigned]

theorem filter_readAs_of_ne {group' : String} (hgroup : group ≠ group') (key : String) :
    ((readAs group settings).filter fun s => s.group = group' ∧ s.key = key).map (·.value) =
      [] := by
  rw [List.filter_eq_nil_iff.mpr, List.map_nil]
  intro s hs
  obtain ⟨_, -, rfl⟩ := List.mem_map.mp hs
  simp [hgroup]

end

/-! ## Units -/

namespace UnitFile

/-- What a unit's own file says that it depends on in one way, in order. -/
def targets (u : UnitFile) (relation : Relation) : List String :=
  (u.ownEdges.filter (·.relation = relation)).map (·.target)

theorem targets_depends (u : UnitFile) (relation relation' : Relation) (target : String) :
    (u.depends relation target).targets relation' =
      u.targets relation' ++ if relation = relation' then [target] else [] := by
  unfold targets ownEdges depends
  split_ifs with h <;> simp [h]

theorem targets_dependedOnBy {u : UnitFile} {source : String} (h : source ≠ u.name)
    (relation relation' : Relation) :
    (u.dependedOnBy source relation).targets relation' = u.targets relation' := by
  have hown : (u.dependedOnBy source relation).ownEdges = u.ownEdges := by
    unfold ownEdges dependedOnBy
    rw [List.filter_append, List.filter_cons_of_neg (by simpa using h)]
    exact List.append_nil _
  rw [targets, hown]
  rfl

/-- The setting for the dependencies of one kind; none if there are none. -/
def relationSettings (u : UnitFile) (relation : Relation) : List (String × String) :=
  if u.targets relation = [] then []
  else [(relation.setting, " ".intercalate (u.targets relation))]

end UnitFile

/-- The settings that make a unit wait for a check. -/
def CheckDependency.settings : CheckDependency → List (String × String)
  | .service name => [("Requires", name), ("After", name)]
  | .none | .rootLink => []

/-- The settings of the group that all units have. -/
def UnitFile.unitSettings (u : UnitFile) (check : CheckDependency) : List (String × String) :=
  [("Description", u.description)] ++
    (if u.documentation = [] then []
      else [("Documentation", " ".intercalate u.documentation)]) ++
    (if u.defaultDependencies then [] else [("DefaultDependencies", "no")]) ++
    Relation.all.flatMap u.relationSettings ++
    check.settings ++
    (if u.ignoreOnIsolate then [("IgnoreOnIsolate", "true")] else [])

/-- The keys of the group that all units have. -/
def unitKeys : List String :=
  ["Description", "Documentation", "DefaultDependencies", "IgnoreOnIsolate"] ++
    Relation.all.map Relation.setting

/-- The settings of the group that all units have, one by one. -/
theorem UnitFile.mem_unitSettings {u : UnitFile} {check : CheckDependency} {s : String × String}
    (h : s ∈ u.unitSettings check) :
    s = ("Description", u.description) ∨
      s = ("Documentation", " ".intercalate u.documentation) ∨
      s = ("DefaultDependencies", "no") ∨ s = ("IgnoreOnIsolate", "true") ∨
      (∃ relation : Relation, s = (relation.setting, " ".intercalate (u.targets relation))) ∨
      ∃ name, check = .service name ∧ (s = ("Requires", name) ∨ s = ("After", name)) := by
  unfold UnitFile.unitSettings at h
  simp only [List.mem_append, List.mem_ite_nil_left, List.mem_ite_nil_right, List.mem_singleton,
    List.mem_flatMap] at h
  rcases h with ((((h | ⟨-, h⟩) | ⟨-, h⟩) | ⟨relation, -, h⟩) | h) | ⟨-, h⟩
  · exact Or.inl h
  · exact Or.inr (Or.inl h)
  · exact Or.inr (Or.inr (Or.inl h))
  · unfold UnitFile.relationSettings at h
    split at h
    · cases h
    · exact Or.inr (Or.inr (Or.inr (Or.inr (Or.inl ⟨relation, List.mem_singleton.mp h⟩))))
  · cases check with
    | none | rootLink => cases h
    | service name =>
        refine Or.inr (Or.inr (Or.inr (Or.inr (Or.inr ⟨name, rfl, ?_⟩))))
        simpa [CheckDependency.settings] using h
  · exact Or.inr (Or.inr (Or.inr (Or.inl h)))

theorem UnitFile.key_unitSettings (u : UnitFile) (check : CheckDependency) :
    ∀ s ∈ u.unitSettings check, s.1 ∈ unitKeys := by
  intro s hs
  rcases UnitFile.mem_unitSettings hs with
    rfl | rfl | rfl | rfl | ⟨relation, rfl⟩ | ⟨name, -, rfl | rfl⟩
  · exact (by decide : "Description" ∈ unitKeys)
  · exact (by decide : "Documentation" ∈ unitKeys)
  · decide
  · decide
  · have hall : ∀ relation : Relation, relation.setting ∈ unitKeys := by
      rintro (_ | _ | _ | _ | _ | _) <;> decide
    exact hall relation
  · exact (by decide : "Requires" ∈ unitKeys)
  · exact (by decide : "After" ∈ unitKeys)

namespace UnitBody

/-- The group that says what a unit does. -/
def group : UnitBody → String
  | .mount .. => "Mount"
  | .automount .. => "Automount"
  | .swap _ => "Swap"
  | .unlock .. => "Service"

/-- The settings that say what a unit does. -/
def settings : UnitBody → List (String × String)
  | .mount device mountPoint fsType options =>
    [("What", device), ("Where", mountPoint)] ++ fsType.toList.map (("Type", ·)) ++
      [("Options", options)]
  | .automount mountPoint idleSeconds =>
    [("Where", mountPoint), ("TimeoutIdleSec", toString idleSeconds)]
  | .swap device => [("What", device)]
  | .unlock volume source readOnly =>
    [("Type", "oneshot"), ("RemainAfterExit", "yes"), ("TimeoutSec", "0"),
      ("ExecStart", " ".intercalate [cryptsetupPath, "attach", singleQuoted volume,
        singleQuoted source, singleQuoted "", singleQuoted (if readOnly then "read-only" else "")]),
      ("ExecStop", " ".intercalate [cryptsetupPath, "detach", singleQuoted volume])]

end UnitBody

/-- The lines of a unit file are its two groups under a comment. -/
theorem UnitFile.lines_eq (u : UnitFile) (check : CheckDependency) :
    u.lines check = [generatedHeader, ""] ++ groupLines "Unit" (u.unitSettings check) ++ [""] ++
      groupLines u.body.group u.body.settings := by
  have hrelation : ∀ relation, u.relationLines relation =
      (u.relationSettings relation).map fun s => settingLine s.1 s.2 := by
    intro relation
    unfold UnitFile.relationLines UnitFile.relationSettings UnitFile.targets
    split
    · next h => rw [if_pos h]; rfl
    · next h => rw [if_neg h]; rfl
  have hunit : u.unitLines check = groupLines "Unit" (u.unitSettings check) := by
    unfold UnitFile.unitLines UnitFile.unitSettings groupLines
    simp only [List.map_append, List.map_flatMap, ← hrelation]
    cases check <;> split_ifs <;> rfl
  have hbody : u.body.lines = groupLines u.body.group u.body.settings := by
    cases u.body with
    | mount device mountPoint fsType options => cases fsType <;> rfl
    | automount | swap | unlock => rfl
  rw [UnitFile.lines, hunit, hbody]

namespace UnitBody

theorem group_spec (body : UnitBody) : OneLine body.group ∧ body.group ≠ "Unit" := by
  have hgroups : ∀ group ∈ ["Mount", "Automount", "Swap", "Service"],
      OneLine group ∧ group ≠ "Unit" := by
    decide
  exact hgroups body.group (by cases body <;> simp [group])

theorem isKey_settings (body : UnitBody) : ∀ s ∈ body.settings, IsKey s.1 := by
  have hkeys : ∀ key ∈ ["What", "Where", "Type", "Options", "TimeoutIdleSec", "RemainAfterExit",
      "TimeoutSec", "ExecStart", "ExecStop"], IsKey key := by
    decide
  intro s hs
  refine hkeys s.1 ?_
  cases body with
  | mount device mountPoint fsType options =>
      simp only [settings, List.mem_append, List.mem_cons, List.mem_map, List.not_mem_nil,
        or_false] at hs
      rcases hs with ((rfl | rfl) | ⟨_, -, rfl⟩) | rfl <;> simp
  | automount | swap | unlock =>
      simp only [settings, List.mem_cons, List.not_mem_nil, or_false] at hs
      rcases hs with rfl | rfl | rfl | rfl | rfl <;> simp

end UnitBody

/-! ## Words -/

/-- A text without blanks. -/
def Unbroken (s : String) : Prop := ∀ c ∈ s.toList, isBlank c = false

-- Named, as another instance asks the same of every character that there is.
instance (s : String) : Decidable (Unbroken s) := List.decidableBAll _ _

theorem Unbroken.append {s s' : String} (h : Unbroken s) (h' : Unbroken s') :
    Unbroken (s ++ s') := by
  intro c hc
  rw [String.toList_append, List.mem_append] at hc
  exact hc.elim (h c) (h' c)

/-- A text that is one word. -/
structure IsWord (s : String) : Prop where
  ne_nil : s.toList ≠ []
  unbroken : Unbroken s

instance (s : String) : Decidable (IsWord s) :=
  decidable_of_iff (s.toList ≠ [] ∧ Unbroken s) ⟨fun ⟨h, h'⟩ => ⟨h, h'⟩, fun ⟨h, h'⟩ => ⟨h, h'⟩⟩

theorem IsWord.oneLine {s : String} (h : IsWord s) : OneLine s := by
  intro hmem
  exact absurd (h.unbroken _ hmem) (by decide)

theorem IsWord.words_eq {s : String} (h : IsWord s) : words isBlank s.toList = [s.toList] :=
  words_unbroken h.ne_nil h.unbroken

/-- **Words that were put in a row are found again.** -/
theorem words_intercalate {ss : List String} (h : ∀ s ∈ ss, IsWord s) :
    (words isBlank (" ".intercalate ss).toList).map String.ofList = ss := by
  have hrow : ∀ word ∈ ss.map String.toList, IsUnbroken word := by
    intro word hword
    obtain ⟨s, hs, rfl⟩ := List.mem_map.mp hword
    exact ⟨(h s hs).ne_nil, (h s hs).unbroken⟩
  rw [(Spaced.intercalate ss).words_eq hrow]
  simp

theorem IsWord.of_append {s s' : String} (h : Unbroken s) (h' : IsWord s') : IsWord (s ++ s') where
  ne_nil := by
    rw [String.toList_append]
    exact mt List.append_eq_nil_iff.mp fun hboth => h'.ne_nil hboth.2
  unbroken := h.append h'.unbroken

/-- Texts that were put in a row stand in one line. -/
theorem oneLine_intercalate {ss : List String} (h : ∀ s ∈ ss, OneLine s) :
    OneLine (" ".intercalate ss) := by
  induction ss with
  | nil => decide
  | cons s rest ih =>
      obtain ⟨hfirst, hrest⟩ := List.forall_mem_cons.mp h
      cases rest with
      | nil => simpa using hfirst
      | cons s' others =>
          rw [String.intercalate_cons_cons]
          exact (hfirst.append (by decide)).append (ih hrest)

namespace UnitName

theorem unbroken_escape {s : String} : Unbroken (escape s) := by
  have hoctets : ∀ n < 256, (escapeFirst (UInt8.ofNat n) ++ escapeOctet (UInt8.ofNat n)).any isBlank
      = false := by
    decide +kernel
  intro c hc
  obtain ⟨b, hb⟩ := exists_of_mem_escape hc
  have hoctet := hoctets b.toNat b.toNat_lt
  rw [UInt8.ofNat_toNat, List.any_eq_false] at hoctet
  exact Bool.eq_false_iff.mpr (hoctet c (List.mem_append.mpr hb))

theorem unbroken_escapePath {path name : String} (h : escapePath path = .ok name) :
    Unbroken name := by
  unfold escapePath at h
  split_ifs at h
  · rw [← Except.ok.inj h]
    decide
  · rw [← Except.ok.inj h]
    exact unbroken_escape

/-- **The unit for a path is a word.** -/
theorem isWord_ofPath {path suffix name : String} (h : ofPath path suffix = .ok name)
    (hsuffix : IsWord suffix) : IsWord name := by
  obtain ⟨escaped, hescape, rfl⟩ := ofPath_eq_ok h
  exact .of_append (unbroken_escapePath hescape) hsuffix

/-- An instance of a template is a word if its name is made of escaped characters. -/
theorem isWord_instantiate {template name suffix : String} (htemplate : Unbroken template)
    (hname : Unbroken name) (hsuffix : IsWord suffix) :
    IsWord (instantiate template name suffix) := by
  have hat : Unbroken "@" := by decide
  exact .of_append ((htemplate.append hat).append hname) hsuffix

end UnitName

/-! ## Whole unit files -/

/-- **A unit whose file cannot be misread**: its texts stand in one line each, and the names that
it depends on are words. -/
structure UnitFile.Readable (u : UnitFile) (check : CheckDependency) : Prop where
  description : OneLine u.description
  documentation : ∀ page ∈ u.documentation, OneLine page
  target : ∀ e ∈ u.edges, IsWord e.target
  check : ∀ name, check = .service name → IsWord name
  body : ∀ s ∈ u.body.settings, OneLine s.2

/-- What a unit depends on in one way because of a check. -/
def CheckDependency.targets : CheckDependency → Relation → List String
  | .service name, .requires | .service name, .after => [name]
  | _, _ => []

namespace UnitFile

variable {u : UnitFile} {check : CheckDependency}

namespace Readable

theorem isWord_targets (h : u.Readable check) (relation : Relation) :
    ∀ target ∈ u.targets relation, IsWord target := by
  intro target htarget
  obtain ⟨e, he, rfl⟩ := List.mem_map.mp htarget
  exact h.target e (List.mem_filter.mp (List.mem_filter.mp he).1).1

theorem legible_body (h : u.Readable check) : Legible u.body.settings :=
  fun s hs => ⟨u.body.isKey_settings s hs, h.body s hs⟩

theorem legible_unit (h : u.Readable check) : Legible (u.unitSettings check) := by
  have hkeys : ∀ key ∈ unitKeys, IsKey key := by decide
  intro s hs
  refine ⟨hkeys _ (u.key_unitSettings check s hs), ?_⟩
  rcases mem_unitSettings hs with
    rfl | rfl | rfl | rfl | ⟨relation, rfl⟩ | ⟨name, hcheck, rfl | rfl⟩
  · exact h.description
  · exact oneLine_intercalate h.documentation
  · decide
  · decide
  · exact oneLine_intercalate fun target ht => (h.isWord_targets relation target ht).oneLine
  · exact (h.check name hcheck).oneLine
  · exact (h.check name hcheck).oneLine

/-- No line of the file of a unit has a line feed. -/
theorem oneLine_lines (h : u.Readable check) : ∀ line ∈ u.lines check, OneLine line := by
  intro line hline
  rw [UnitFile.lines_eq, List.mem_append, List.mem_append, List.mem_append] at hline
  rcases hline with ((hline | hline) | hline) | hline
  · exact (by decide : ∀ line ∈ [generatedHeader, ""], OneLine line) line hline
  · exact oneLine_groupLines (by decide) h.legible_unit line hline
  · rw [List.mem_singleton.mp hline]
    decide
  · exact oneLine_groupLines u.body.group_spec.1 h.legible_body line hline

/-- **The file of a unit says what the unit was built from.** -/
theorem settingsOf_text (h : u.Readable check) :
    settingsOf (u.text check) =
      readAs "Unit" (u.unitSettings check) ++ readAs u.body.group u.body.settings := by
  rw [UnitFile.text, settingsOf, splitOn_linesText h.oneLine_lines, UnitFile.lines_eq]
  simp only [List.map_append, List.append_assoc]
  show readLines "" ((groupLines "Unit" (u.unitSettings check)).map String.toList ++
    ([] :: ((groupLines u.body.group u.body.settings).map String.toList ++ [[]]))) = _
  rw [readLines_groupLines "" h.legible_unit]
  show _ ++ readLines "Unit" (_ ++ [[]]) = _
  rw [readLines_groupLines "Unit" h.legible_body]
  exact congrArg _ (List.append_nil _)

theorem valuesOf_unit (h : u.Readable check) (key : String) :
    valuesOf (u.text check) "Unit" key = assigned (u.unitSettings check) key := by
  rw [valuesOf, h.settingsOf_text, List.filter_append, List.map_append, filter_readAs,
    filter_readAs_of_ne u.body.group_spec.2, List.append_nil]

theorem valuesOf_body (h : u.Readable check) (key : String) :
    valuesOf (u.text check) u.body.group key = assigned u.body.settings key := by
  rw [valuesOf, h.settingsOf_text, List.filter_append, List.map_append, filter_readAs,
    filter_readAs_of_ne u.body.group_spec.2.symm, List.nil_append]

end Readable

/-- **The end of a unit's file says what the unit does**, whatever names stand before it. -/
theorem exists_settingsOf_text (check : CheckDependency) (h : Legible u.body.settings) :
    ∃ before, settingsOf (u.text check) = before ++ readAs u.body.group u.body.settings := by
  let front := linesText ([generatedHeader, ""] ++ groupLines "Unit" (u.unitSettings check))
  have htext : (u.text check).toList = front.toList ++ '\n' ::
      (linesText (groupLines u.body.group u.body.settings)).toList := by
    rw [UnitFile.text, UnitFile.lines_eq]
    simp [front, linesText, String.toList_append]
  obtain ⟨group, happend⟩ := exists_readLines_append "" (front.toList.splitOn '\n')
    ((groupLines u.body.group u.body.settings).map String.toList ++ [[]])
  refine ⟨readLines "" (front.toList.splitOn '\n'), ?_⟩
  rw [settingsOf, htext, List.splitOn_append_cons_self,
    splitOn_linesText (oneLine_groupLines u.body.group_spec.1 h), happend,
    readLines_groupLines group h]
  exact congrArg _ (List.append_nil _)

theorem exists_valuesOf_body (check : CheckDependency) (h : Legible u.body.settings)
    (key : String) : ∃ before,
      valuesOf (u.text check) u.body.group key = before ++ assigned u.body.settings key := by
  obtain ⟨before, hsettings⟩ := exists_settingsOf_text check h
  exact ⟨_, by rw [valuesOf, hsettings, List.filter_append, List.map_append, filter_readAs]⟩

theorem assigned_relationSettings (u : UnitFile) (relation relation' : Relation) :
    assigned (u.relationSettings relation') relation.setting =
      if relation' = relation then (u.relationSettings relation).map (·.2) else [] := by
  have hinjective : relation'.setting = relation.setting → relation' = relation := by
    cases relation <;> cases relation' <;> decide
  by_cases heq : relation' = relation
  · rw [if_pos heq, heq, relationSettings]
    split <;> simp [assigned]
  · rw [if_neg heq, relationSettings]
    split <;> simp [assigned, mt hinjective heq]

/-- The group that all units have sets the key of a dependency for the unit's own dependencies and
for the check. -/
theorem assigned_unitSettings (u : UnitFile) (check : CheckDependency) (relation : Relation) :
    assigned (u.unitSettings check) relation.setting =
      (u.relationSettings relation).map (·.2) ++ check.targets relation := by
  have hother : ∀ key ∈ ["Description", "Documentation", "DefaultDependencies", "IgnoreOnIsolate"],
      ∀ value, assigned [(key, value)] relation.setting = [] := by
    intro key hkey value
    have hne : key ≠ relation.setting := by
      revert key
      cases relation <;> decide
    simp [assigned, hne]
  have hall : assigned (Relation.all.flatMap u.relationSettings) relation.setting =
      (u.relationSettings relation).map (·.2) := by
    simp only [Relation.all, List.flatMap_cons, List.flatMap_nil, assigned_append,
      assigned_relationSettings]
    cases relation <;> simp [assigned]
  have hcheck : assigned check.settings relation.setting = check.targets relation := by
    cases check <;> cases relation <;> rfl
  have hdocumentation : assigned (if u.documentation = [] then []
      else [("Documentation", " ".intercalate u.documentation)]) relation.setting = [] := by
    split
    · rfl
    · exact hother _ (by simp) _
  have hdefault : assigned (if u.defaultDependencies then []
      else [("DefaultDependencies", "no")]) relation.setting = [] := by
    split
    · rfl
    · exact hother _ (by simp) _
  have hignore : assigned (if u.ignoreOnIsolate then [("IgnoreOnIsolate", "true")] else [])
      relation.setting = [] := by
    split
    · exact hother _ (by simp) _
    · rfl
  unfold unitSettings
  rw [assigned_append, assigned_append, assigned_append, assigned_append, assigned_append,
    hother "Description" (by simp), hdocumentation, hdefault, hall, hcheck, hignore,
    List.nil_append, List.nil_append, List.nil_append, List.append_nil]

/-- **The dependencies that a file declares are those of its unit and of its check.** -/
theorem Readable.wordsOf_relation (h : u.Readable check) (relation : Relation) :
    wordsOf (u.text check) "Unit" relation.setting =
      u.targets relation ++ check.targets relation := by
  have hwords : ∀ names : List String, (∀ name ∈ names, IsWord name) →
      (if names = [] then [] else [" ".intercalate names]).flatMap (fun value =>
        (words isBlank value.toList).map String.ofList) = names := by
    intro names hnames
    split
    · next hnone => exact hnone.symm
    · exact (List.flatMap_singleton ..).trans (words_intercalate hnames)
  have hvalues : (u.relationSettings relation).map (·.2) =
      if u.targets relation = [] then [] else [" ".intercalate (u.targets relation)] := by
    unfold relationSettings
    split <;> rfl
  have hcheck : check.targets relation = if check.targets relation = [] then []
      else [" ".intercalate (check.targets relation)] := by
    cases check <;> cases relation <;> simp [CheckDependency.targets]
  have hnames : ∀ name ∈ check.targets relation, IsWord name := by
    intro name hname
    refine h.check name ?_
    cases check <;> cases relation <;> simp_all [CheckDependency.targets]
  rw [wordsOf, h.valuesOf_unit, assigned_unitSettings, List.flatMap_append, hvalues,
    hwords _ (h.isWord_targets relation), hcheck, hwords _ hnames, ← hcheck]

end UnitFile

end PartitionUnits
