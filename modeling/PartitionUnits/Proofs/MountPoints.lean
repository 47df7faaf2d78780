import PartitionUnits.Proofs.Occupancy
import PartitionUnits.Proofs.Text.Utf8
import PartitionUnits.Proofs.Unit.Escape
import PartitionUnits.Proofs.Unit.Reading

/-!
# Which mount points are recognised

The kernel writes one line for each active mount, in which blanks, line feeds and backslashes of the
path of the mount are written as numbers.  Nobody but the reader of the table could undo them, so
what is recognised depends on how that takes the paths: as they are written, or decoded.

## Main Definitions

* `Location.IsProper` — a location of names that say what they are; walks lead to such ones
  (`Tree.Leads.isProper`)
* `MountTable.escape` — a text as the kernel writes it
* `ActiveMount`, `mountTable` — the mounts that there are, and what the kernel writes for them
* `PathReading`, `MountTable.Reader.TakesPaths` — how a reader takes the paths of mounts
* `MountTable.readLines_takesPaths` — the reader of lines takes them as they are written
* `World.mountPointState_of_mountTable` — which paths are told to be mount points

## Design Notes

If paths are taken as they are written, a path with a blank or a line feed in it is never
recognised, as what the kernel writes has none.  A path with a backslash is recognised then if it
reads like what is written for some mount, which need not be at that path.  Where there is none of
the four, it does not matter how paths are taken.
-/

namespace PartitionUnits

open PartitionUnits.Tree Text

variable {t : Tree} {w : World} {p c : Path} {l l' : Location} {name : Name}

/-! ## Paths without links -/

/-- A step of a walk: something, and without slashes. -/
def IsStep (name : Name) : Prop := name ≠ [] ∧ slash ∉ name

theorem Path.isStep_of_mem_steps (p : Path) : ∀ name ∈ p.steps, IsStep name := by
  intro name hname
  rcases List.mem_append.mp hname with hname | hname
  · obtain ⟨hsegment, hne⟩ := List.mem_filter.mp hname
    exact ⟨of_decide_eq_true hne, slash_notMem_segments hsegment⟩
  · split at hname
    · rw [List.mem_singleton.mp hname]
      exact ⟨by decide, by decide⟩
    · cases hname

/-- A location of names that are what they say: none of them is a lone dot or two dots. -/
def Location.IsProper (l : Location) : Prop := ∀ name ∈ l, Path.IsName name ∧ name ≠ [dot, dot]

/-- **A walk leads from proper locations to proper locations.** -/
theorem Tree.Leads.isProper {follow : Bool} {links : Nat} {here : Location} {names : List Name}
    (h : t.Leads follow links here names l) (hnames : ∀ name ∈ names, IsStep name)
    (hhere : here.IsProper) : l.IsProper := by
  have hconcat : ∀ {here : Location} {name : Name}, here.IsProper → IsStep name →
      IsPlainName name → Location.IsProper (here ++ [name]) := by
    intro here name hhere hstep hplain name' hname'
    rcases List.mem_append.mp hname' with hname' | hname'
    · exact hhere name' hname'
    · rw [List.mem_singleton.mp hname']
      exact ⟨⟨hstep.1, hplain.ne_dot, hstep.2⟩, hplain.ne_dots⟩
  induction h with
  | arrived => exact hhere
  | stay _ _ ih => exact ih (List.forall_mem_cons.mp hnames).2 hhere
  | up _ _ ih =>
      exact ih (List.forall_mem_cons.mp hnames).2 fun name hname =>
        hhere name ((List.dropLast_sublist _).subset hname)
  | enter _ hplain _ _ _ ih =>
      obtain ⟨hname, hrest⟩ := List.forall_mem_cons.mp hnames
      exact ih hrest (hconcat hhere hname hplain)
  | endAtLink _ hplain =>
      exact hconcat hhere (List.forall_mem_cons.mp hnames).1 hplain
  | @through _ _ _ _ _ target _ _ _ _ _ ih =>
      refine ih ?_ ?_
      · intro name hname
        rcases List.mem_append.mp hname with hname | hname
        · exact (⟨target⟩ : Path).isStep_of_mem_steps name hname
        · exact (List.forall_mem_cons.mp hnames).2 name hname
      · split
        · exact fun _ hname => absurd hname List.not_mem_nil
        · exact hhere

namespace Location

theorem path_of_ne_nil (h : l ≠ []) : Location.path l = ⟨l.flatMap fun name => slash :: name⟩ := by
  cases l with
  | nil => exact absurd rfl h
  | cons name rest => rfl

/-- The path of a location in another one is a name below the path of that. -/
theorem path_concat (h : l.IsProper) (hname : Path.IsName name) :
    Location.path (l ++ [name]) = (Location.path l).join ⟨name⟩ := by
  rw [path_of_ne_nil (by simp), List.flatMap_append, List.flatMap_singleton]
  rcases List.eq_nil_or_concat' l with rfl | ⟨init, last, rfl⟩
  · simp [Location.path, Path.join, hname.isAbsolute]
  · have hlast : Path.IsName last := (h last (by simp)).1
    have hoctets : (Location.path (init ++ [last])).octets =
        (init.flatMap fun name => slash :: name) ++ [slash] ++ last := by
      rw [path_of_ne_nil (by simp), List.flatMap_append, List.flatMap_singleton]
      simp
    have hend : (Location.path (init ++ [last])).octets.getLast? ≠ some slash := by
      rw [hoctets]
      exact hlast.getLast?_ne_slash
    rw [hname.join_eq (by simp [hoctets]) hend, hoctets]
    simp

/-- **The components of the path of a location** are the root directory and its names. -/
theorem components_path (h : l.IsProper) :
    (Location.path l).components = .root :: l.map .name := by
  induction l using List.reverseRecOn with
  | nil => decide
  | append_singleton l name ih =>
      obtain ⟨hl, hname⟩ := List.forall_mem_append.mp h
      obtain ⟨hname, hdots⟩ := List.forall_mem_singleton.mp hname
      rw [path_concat hl hname, hname.components_join hdots, ih hl, List.map_append]
      rfl

/-- **Paths of locations are the same just if the locations are.** -/
theorem sameAs_path_iff (h : l.IsProper) (h' : l'.IsProper) :
    (Location.path l).SameAs (Location.path l') ↔ Location.path l = Location.path l' := by
  constructor
  · intro hsame
    rw [Path.SameAs, components_path h, components_path h'] at hsame
    have hnames : l = l' :=
      List.map_injective_iff.mpr (fun _ _ => Component.name.inj) (List.cons.inj hsame).2
    rw [hnames]
  · intro heq
    rw [heq]
    rfl

end Location

/-! ## What the kernel writes -/

namespace MountTable

/-- How the kernel writes a character of a field: what would end the field or the line, and the
backslash, as a backslash and three digits of base 8. -/
def escapeChar : Char → List Char
  | ' ' => ['\\', '0', '4', '0']
  | '\t' => ['\\', '0', '1', '1']
  | '\n' => ['\\', '0', '1', '2']
  | '\\' => ['\\', '1', '3', '4']
  | c => [c]

/-- The characters that end a field or a line. -/
def separators : List Char := [' ', '\t', '\n']

/-- The characters that the kernel does not write as they are. -/
def special : List Char := '\\' :: separators

/-- **A text as the kernel writes it.** -/
def escape (cs : List Char) : List Char := cs.flatMap escapeChar

theorem escapeChar_of_notMem {c : Char} (h : c ∉ special) : escapeChar c = [c] := by
  unfold escapeChar
  split <;> first | rfl | exact absurd (by decide) h

/-- What the kernel writes is what numbers are made of, or stands for itself. -/
theorem mem_escape {c : Char} {cs : List Char} (h : c ∈ escape cs) :
    c ∈ ['\\', '0', '1', '2', '3', '4'] ∨ c ∈ cs ∧ c ∉ special := by
  obtain ⟨d, hd, hc⟩ := List.mem_flatMap.mp h
  by_cases hspecial : d ∈ special
  · have hall : ∀ d ∈ special, ∀ c ∈ escapeChar d, c ∈ ['\\', '0', '1', '2', '3', '4'] := by
      simp [special, separators, escapeChar]
    exact Or.inl (hall d hspecial c hc)
  · rw [escapeChar_of_notMem hspecial, List.mem_singleton] at hc
    rw [hc]
    exact Or.inr ⟨hd, hspecial⟩

/-- What the kernel writes has no separators. -/
theorem separators_notMem_escape {cs : List Char} : ∀ c ∈ escape cs, c ∉ separators := by
  intro c hc
  rcases mem_escape hc with hdigit | ⟨-, hspecial⟩
  · have hall : ∀ c ∈ ['\\', '0', '1', '2', '3', '4'], c ∉ separators := by simp [separators]
    exact hall c hdigit
  · exact fun hsep => hspecial (List.mem_cons_of_mem _ hsep)

/-- A text without special characters is written as it is. -/
theorem escape_eq_self {cs : List Char} (h : ∀ c ∈ cs, c ∉ special) : escape cs = cs := by
  refine (List.flatMap_congr fun c hc => escapeChar_of_notMem (h c hc)).trans ?_
  exact List.flatMap_singleton' cs

/-- **A text that is written without backslashes is written as it is.** -/
theorem escape_eq_self_of_backslash_notMem {cs : List Char} (h : '\\' ∉ escape cs) :
    escape cs = cs := by
  have hall : ∀ c ∈ special, '\\' ∈ escapeChar c := by simp [special, separators, escapeChar]
  exact escape_eq_self fun c hc hspecial =>
    h (List.mem_flatMap.mpr ⟨c, hc, hall c hspecial⟩)

theorem escapeChar_ne_nil (c : Char) : escapeChar c ≠ [] := by
  by_cases hspecial : c ∈ special
  · have hall : ∀ c ∈ special, escapeChar c ≠ [] := by simp [special, separators, escapeChar]
    exact hall c hspecial
  · rw [escapeChar_of_notMem hspecial]
    exact List.cons_ne_nil _ _

theorem escape_ne_nil {cs : List Char} (h : cs ≠ []) : escape cs ≠ [] := by
  obtain ⟨c, rest, rfl⟩ := List.exists_cons_of_ne_nil h
  rw [escape, List.flatMap_cons]
  exact List.append_ne_nil_of_left_ne_nil (escapeChar_ne_nil c) _

end MountTable

/-- A text that stands in a field of a line as it is. -/
structure IsField (s : String) : Prop where
  ne_empty : s ≠ ""
  unbroken : ∀ c ∈ s.toList, c ∉ MountTable.separators

-- The check goes through the characters of the text, not through all characters that there are.
instance (s : String) : Decidable (IsField s) :=
  decidable_of_iff (s ≠ "" ∧ s.toList.all (decide <| · ∉ MountTable.separators) = true)
    ⟨fun ⟨h, h'⟩ => ⟨h, by simpa using h'⟩, fun ⟨h, h'⟩ => ⟨h, by simpa using h'⟩⟩

/-- A name in a normalized path. -/
structure IsPathName (name : String) : Prop where
  ne_empty : name ≠ ""
  ne_dot : name ≠ "."
  ne_dots : name ≠ ".."
  slash_notMem : '/' ∉ name.toList

instance (name : String) : Decidable (IsPathName name) :=
  decidable_of_iff (name ≠ "" ∧ name ≠ "." ∧ name ≠ ".." ∧ '/' ∉ name.toList)
    ⟨fun ⟨h₁, h₂, h₃, h₄⟩ => ⟨h₁, h₂, h₃, h₄⟩, fun ⟨h₁, h₂, h₃, h₄⟩ => ⟨h₁, h₂, h₃, h₄⟩⟩

/-- **An active mount**: the names in its path from the root directory, and the other fields of its
line as they are written. -/
structure ActiveMount where
  source : String
  names : List String
  fsType : String
  options : String
  source_isField : IsField source
  /-- What is mounted is not all blanks of other kinds. -/
  source_visible : ∃ c ∈ source.toList, isBlank c = false
  names_isPathName : ∀ name ∈ names, IsPathName name
  fsType_isField : IsField fsType
  options_isField : IsField options

namespace ActiveMount

/-- The path of a mount: absolute and normalized. -/
def path (m : ActiveMount) : String :=
  if m.names = [] then "/" else String.join (m.names.map ("/" ++ ·))

/-- The path of a mount as the kernel writes it. -/
def writtenPath (m : ActiveMount) : String := String.ofList (MountTable.escape m.path.toList)

/-- The line of a mount. -/
def line (m : ActiveMount) : String :=
  " ".intercalate [m.source, m.writtenPath, m.fsType, m.options, "0", "0"]

/-- The location of a path whose characters are spelled in some way. -/
def locationBy (spell : Char → List Char) (m : ActiveMount) : Location :=
  m.names.map fun name => encode (name.toList.flatMap spell)

/-- A path that is spelled character by character leads along the names that are. -/
theorem path_locationBy {spell : Char → List Char} (hslash : spell '/' = ['/'])
    (m : ActiveMount) :
    Location.path (m.locationBy spell) = ⟨encode (m.path.toList.flatMap spell)⟩ := by
  unfold path locationBy
  split
  · next hnone => simp [hnone, Location.path, hslash, encode, String.utf8EncodeChar, slash]
  · next hsome =>
      rw [Location.path_of_ne_nil (by simpa using hsome)]
      refine congrArg Path.mk ?_
      rw [String.toList_join, encode, List.flatMap_map, List.flatMap_map, List.flatMap_assoc,
        List.flatMap_assoc]
      refine List.flatMap_congr fun name _ => ?_
      rw [← List.flatMap_assoc, String.toList_append, List.flatMap_append,
        show "/".toList = ['/'] from rfl, List.flatMap_singleton, hslash, List.flatMap_append]
      rfl

end ActiveMount

/-- The octets of a text are a name if the text is one. -/
theorem isName_encode {cs : List Char} (hne : cs ≠ []) (hdot : cs ≠ ['.']) (hdots : cs ≠ ['.', '.'])
    (hslash : '/' ∉ cs) : Path.IsName (encode cs) ∧ encode cs ≠ [dot, dot] where
  left :=
    { ne_nil := fun h => hne (encode_injective (h.trans (show [] = encode [] from rfl)))
      ne_dot := fun h => hdot (encode_injective (h.trans (show [dot] = encode ['.'] from rfl)))
      slash_notMem := mt (Path.mem_encode_iff (by decide) rfl).mp hslash }
  right := fun h =>
    hdots (encode_injective (h.trans (show [dot, dot] = encode ['.', '.'] from rfl)))

/-- **How a reader takes the paths of mounts**: as they are written, or with the numbers undone. -/
inductive PathReading where
  | asWritten
  | decoded
deriving DecidableEq, Repr

namespace PathReading

/-- What is taken for a character of a path. -/
def spell : PathReading → Char → List Char
  | asWritten => MountTable.escapeChar
  | decoded => fun c => [c]

/-- The path that is taken for the one of a mount. -/
def path : PathReading → ActiveMount → Path
  | asWritten, m => Path.ofText m.writtenPath
  | decoded, m => Path.ofText m.path

variable (reading : PathReading) (m : ActiveMount)

/-- The path that is taken for the one of a mount leads along names. -/
theorem path_eq : reading.path m = Location.path (m.locationBy reading.spell) := by
  cases reading with
  | asWritten =>
      rw [m.path_locationBy rfl, path, Path.ofText, ActiveMount.writtenPath, String.toList_ofList]
      rfl
  | decoded =>
      rw [m.path_locationBy rfl, path, Path.ofText, spell, List.flatMap_singleton']

theorem isProper_location : (m.locationBy reading.spell).IsProper := by
  intro octets hoctets
  obtain ⟨name, hname, rfl⟩ := List.mem_map.mp hoctets
  have h := m.names_isPathName name hname
  have hne : name.toList ≠ [] := by simpa using h.ne_empty
  have heq : ∀ cs, name.toList = cs → name = String.ofList cs :=
    fun cs hcs => by rw [← hcs, String.ofList_toList]
  cases reading with
  | asWritten =>
      -- A name that is written as a text without backslashes is that text.
      have hplain : ∀ cs : List Char, '\\' ∉ cs → MountTable.escape name.toList = cs →
          name.toList = cs := by
        intro cs hcs hescape
        rw [← hescape] at hcs
        rw [← hescape, MountTable.escape_eq_self_of_backslash_notMem hcs]
      refine isName_encode (MountTable.escape_ne_nil hne)
        (fun hdot => h.ne_dot (heq _ (hplain _ (by decide) hdot)))
        (fun hdots => h.ne_dots (heq _ (hplain _ (by decide) hdots))) fun hmem => ?_
      rcases MountTable.mem_escape hmem with hdigit | ⟨hmem, -⟩
      · exact absurd hdigit (by decide)
      · exact h.slash_notMem hmem
  | decoded =>
      rw [spell, List.flatMap_singleton']
      exact isName_encode hne (fun hdot => h.ne_dot (heq _ hdot))
        (fun hdots => h.ne_dots (heq _ hdots)) h.slash_notMem

end PathReading

/-! ## Reading what the kernel writes -/

/-- A text is trimmed at its start only, and not beyond its first blanks, if its last character is
not blank. -/
theorem trim_append_concat {cs rest : List Char} {c : Char} (hcs : ∃ d ∈ cs, isBlank d = false)
    (hc : isBlank c = false) :
    trim (cs ++ (rest ++ [c])) = cs.dropWhile isBlank ++ (rest ++ [c]) := by
  have hvisible : (cs.dropWhile isBlank).isEmpty = false := by
    obtain ⟨d, hd, hblank⟩ := hcs
    rw [Bool.eq_false_iff, ne_eq, List.isEmpty_iff, List.dropWhile_eq_nil_iff]
    exact fun hall => Bool.false_ne_true (hblank.symm.trans (hall d hd))
  have hstart : trimStart (cs ++ (rest ++ [c])) = cs.dropWhile isBlank ++ (rest ++ [c]) := by
    rw [trimStart, List.dropWhile_append, hvisible]
    rfl
  rw [trim, hstart, trimEnd, ← List.append_assoc, List.reverse_append, List.reverse_singleton,
    List.singleton_append, List.dropWhile_cons_of_neg (by simp [hc]), List.reverse_cons,
    List.reverse_reverse]

/-- Whether a character ends a field of a line of the mount table. -/
def endsField (c : Char) : Bool := c = ' ' || c = '\t'

/-- A text without separators is one field, if it says something. -/
theorem words_field {cs : List Char} (hne : cs ≠ []) (h : ∀ c ∈ cs, c ∉ MountTable.separators) :
    words endsField cs = [cs] := by
  refine words_unbroken hne fun c hc => ?_
  have hsep := h c hc
  simp only [MountTable.separators, List.mem_cons, not_or] at hsep
  simp [endsField, hsep]

theorem IsField.words_eq {s : String} (h : IsField s) : words endsField s.toList = [s.toList] :=
  words_field (by simpa using h.ne_empty) h.unbroken

namespace ActiveMount

theorem isField_writtenPath (m : ActiveMount) : IsField m.writtenPath where
  ne_empty := by
    have hpath : m.path.toList ≠ [] := by
      unfold path
      split
      · decide
      · next hsome =>
          obtain ⟨name, rest, hnames⟩ := List.exists_cons_of_ne_nil hsome
          simp [hnames, String.toList_join]
    intro hempty
    have hnil := congrArg String.toList hempty
    rw [writtenPath, String.toList_ofList] at hnil
    exact MountTable.escape_ne_nil hpath hnil
  unbroken := by
    intro c hc
    rw [writtenPath, String.toList_ofList] at hc
    exact MountTable.separators_notMem_escape c hc

/-- The fields of the line of a mount. -/
theorem words_line (m : ActiveMount) : words endsField (trim m.line.toList) =
    [m.source.toList.dropWhile isBlank, m.writtenPath.toList, m.fsType.toList, m.options.toList,
      ['0'], ['0']] := by
  have hline : m.line.toList = m.source.toList ++ ((' ' :: (m.writtenPath.toList ++ ' ' ::
      (m.fsType.toList ++ ' ' :: (m.options.toList ++ ' ' :: ['0', ' '])))) ++ ['0']) := by
    simp [line, String.intercalate_cons_cons, String.toList_append]
  have htrim : trim m.line.toList = m.source.toList.dropWhile isBlank ++ ' ' ::
      (m.writtenPath.toList ++ ' ' :: (m.fsType.toList ++ ' ' :: (m.options.toList ++ ' ' ::
        (['0'] ++ ' ' :: ['0'])))) := by
    rw [hline, trim_append_concat m.source_visible (by decide)]
    simp
  have hsource : words endsField (m.source.toList.dropWhile isBlank) =
      [m.source.toList.dropWhile isBlank] := by
    refine words_field ?_ fun c hc => ?_
    · obtain ⟨d, hd, hblank⟩ := m.source_visible
      rw [ne_eq, List.dropWhile_eq_nil_iff]
      exact fun hall => Bool.false_ne_true (hblank.symm.trans (hall d hd))
    · exact m.source_isField.unbroken c ((List.dropWhile_sublist _).subset hc)
  have hzero : words endsField ['0'] = [['0']] := by decide
  rw [htrim, words_append_cons (by decide), words_append_cons (by decide),
    words_append_cons (by decide), words_append_cons (by decide), words_append_cons (by decide),
    hsource, m.isField_writtenPath.words_eq, m.fsType_isField.words_eq, m.options_isField.words_eq,
    hzero]
  rfl

/-- **The line of a mount tells of the mount**, at its path as it is written. -/
theorem tellsMount_line (m : ActiveMount) :
    TellsMount m.line.toList (Path.ofText m.writtenPath) := by
  have habsolute : (Path.ofText m.writtenPath).isAbsolute = true := by
    show (PathReading.asWritten.path m).isAbsolute = true
    rw [PathReading.path_eq]
    cases m.locationBy PathReading.asWritten.spell <;> rfl
  exact ⟨_, _, _, _, _, _, [], 0, m.words_line, by rw [String.ofList_toList], habsolute,
    by decide, by decide, by decide⟩

theorem oneLine_line (m : ActiveMount) : OneLine m.line := by
  have honeLine : ∀ {s : String}, IsField s → OneLine s :=
    fun h hmem => h.unbroken _ hmem (by decide)
  refine oneLine_intercalate ?_
  simp only [List.forall_mem_cons]
  exact ⟨honeLine m.source_isField, honeLine m.isField_writtenPath, honeLine m.fsType_isField,
    honeLine m.options_isField, by decide, by decide, by simp⟩

end ActiveMount

/-- **The mount table that the kernel writes**, one line for each mount. -/
def mountTable (mounts : List ActiveMount) : Octets :=
  encode (linesText (mounts.map ActiveMount.line)).toList

/-- The lines of the table are those of the mounts. -/
theorem mountLines_mountTable (mounts : List ActiveMount) :
    mountLines (mountTable mounts) = mounts.map fun m => encode m.line.toList := by
  have honeLine : ∀ line ∈ mounts.map ActiveMount.line, OneLine line := by
    intro line hline
    obtain ⟨m, -, rfl⟩ := List.mem_map.mp hline
    exact m.oneLine_line
  have hpieces : (mountTable mounts).splitOn 0x0A =
      (mounts.map fun m => encode m.line.toList) ++ [[]] := by
    rw [mountTable,
      Path.splitOn_encode (by decide) (show String.utf8EncodeChar '\n' = [0x0A] from rfl),
      splitOn_linesText honeLine, List.map_append, List.map_map, List.map_map,
      List.map_singleton]
    simp only [Function.comp_def, encode, List.flatMap_nil]
  simp [mountLines, hpieces]

namespace MountTable

/-- **A reader that understands what the kernel writes**, and takes the paths of mounts in one
way. -/
def Reader.TakesPaths (read : Reader) (reading : PathReading) : Prop :=
  ∃ line, read.IsLinewise line ∧
    ∀ m : ActiveMount, line (encode m.line.toList) = some (reading.path m)

/-- **The reader of lines takes paths as they are written.** -/
theorem readLines_takesPaths : Reader.TakesPaths readLines .asWritten :=
  ⟨mountOfOctets?, readLines_isLinewise, fun m =>
    mountOfOctets?_eq_some_iff.mpr ⟨m.line.toList, decode?_encode _, m.tellsMount_line⟩⟩

variable {read : Reader} {reading : PathReading} {content : Content}

/-- What the kernel writes is read as the mounts that there are. -/
theorem Reader.TakesPaths.read_mountTable (h : read.TakesPaths reading) {mounts : List ActiveMount}
    (hcontent : content.all = mountTable mounts) :
    read (.ok (.ok content)) = .ok ((mounts.map reading.path).map .ok) := by
  obtain ⟨line, hlines, hline⟩ := h
  refine hlines.read_of_forall₂ ?_
  rw [hcontent, mountLines_mountTable, List.forall₂_map_left_iff, List.forall₂_map_right_iff,
    List.forall₂_same]
  exact fun m _ => hline m

end MountTable

/-- **A path of names that say something is found** if it is taken for the one of a mount. -/
theorem findMount_mountTable (hproper : l.IsProper) (reading : PathReading)
    (mounts : List ActiveMount) : findMount l.path ((mounts.map reading.path).map .ok) =
      .ok (decide (∃ m ∈ mounts, l.path = reading.path m)) := by
  rw [findMount_of_read, List.any_map]
  congr 1
  rw [Bool.eq_iff_iff, List.any_eq_true, decide_eq_true_iff]
  refine exists_congr fun m => and_congr_right fun _ => ?_
  rw [Function.comp_apply, decide_eq_true_iff, reading.path_eq,
    Location.sameAs_path_iff (reading.isProper_location m) hproper]
  exact eq_comm

/-! ## Paths that are written as they are -/

namespace ActiveMount

/-- The path as it is written has no separators. -/
theorem separators_notMem_writtenPath (m : ActiveMount) {octet : UInt8}
    (h : octet ∈ encode MountTable.separators) : octet ∉ (Path.ofText m.writtenPath).octets := by
  have hascii : ∀ c ∈ MountTable.separators, ∀ octet ∈ String.utf8EncodeChar c,
      octet.toNat < 0x80 ∧ String.utf8EncodeChar c = [octet] := by
    simp [MountTable.separators, String.utf8EncodeChar]
  obtain ⟨c, hc, hoctet⟩ := List.mem_flatMap.mp h
  obtain ⟨hlow, honly⟩ := hascii c hc octet hoctet
  rw [Path.octets_ofText, Path.mem_encode_iff hlow honly]
  exact fun hmem => m.isField_writtenPath.unbroken c hmem hc

/-- **A path without special characters is written as it is**, and no other path is written like
it. -/
theorem eq_ofText_writtenPath_iff (m : ActiveMount)
    (hplain : ∀ octet ∈ c.octets, octet ∉ encode MountTable.special) :
    c = Path.ofText m.writtenPath ↔ c = Path.ofText m.path := by
  constructor
  · rintro rfl
    have hbackslash : '\\' ∉ MountTable.escape m.path.toList := by
      intro hmem
      refine hplain 0x5C ?_ (by decide)
      rw [Path.octets_ofText, writtenPath, String.toList_ofList]
      exact (Path.mem_encode_iff (by decide) rfl).mpr hmem
    rw [writtenPath, MountTable.escape_eq_self_of_backslash_notMem hbackslash, String.ofList_toList]
  · rintro rfl
    have hspecial : ∀ c ∈ m.path.toList, c ∉ MountTable.special := by
      intro c hc hspecial
      obtain ⟨octet, octets, hoctets⟩ := List.exists_cons_of_ne_nil
        (show String.utf8EncodeChar c ≠ [] from String.utf8EncodeChar_ne_nil)
      have hmem : octet ∈ String.utf8EncodeChar c := hoctets ▸ List.mem_cons_self
      exact hplain octet (List.mem_flatMap.mpr ⟨c, hc, hmem⟩)
        (List.mem_flatMap.mpr ⟨c, hspecial, hmem⟩)
    rw [writtenPath, MountTable.escape_eq_self hspecial, String.ofList_toList]

end ActiveMount

/-! ## What is told of a path -/

/-- The path without links leads through names that say something. -/
theorem Tree.isProper_of_locate (h : t.locate true p = .ok l) : l.IsProper :=
  (locate_eq_ok_iff.mp h).2.isProper p.isStep_of_mem_steps fun _ hname =>
    absurd hname List.not_mem_nil

namespace World

section

variable {reading : PathReading} {mounts : List ActiveMount} {table : Content} {e : Entry}
  (hreader : w.readers.mounts.TakesPaths reading)
  (htable : w.opened mountTableFile = .ok (.ok table)) (hmounts : table.all = mountTable mounts)
  (hthere : w.tree.find true p = .ok e) (hresolved : w.resolve p = .ok c)
include hreader htable hmounts hthere hresolved

/-- A path that leads to something is told to be a mount point if its path without links is taken
for the one of a mount. -/
theorem mountPointState_eq_of_mountTable : w.mountPointState p = .ok
    (if ∃ m ∈ mounts, c = reading.path m then .mountPoint else .notMountPoint) := by
  obtain ⟨hrefusal, l, hlocate, rfl⟩ := resolve_eq_ok_iff.mp hresolved
  obtain ⟨e', hfind⟩ := exists_find_false hthere
  have hstatus : w.status p = .ok e' := Refusals.answer_eq_ok_iff.mpr
    ⟨Refusals.status_of_resolution hrefusal, hfind⟩
  have hread : w.readers.mounts (w.opened mountTableFile) =
      .ok ((mounts.map reading.path).map .ok) := by
    rw [htable]
    exact hreader.read_mountTable hmounts
  refine mountPointState_eq_ok_iff.mpr (Or.inr ⟨e', l.path, _, hstatus, hresolved,
    ⟨_, hread, findMount_mountTable (isProper_of_locate hlocate) reading mounts⟩, ?_⟩)
  by_cases hmount : ∃ m ∈ mounts, l.path = reading.path m <;> simp [hmount]

/-- **Mount points are recognised by what is taken for their paths.**  Of a path that leads to
something, told is that it is a mount point just if its path without links is taken for the one of a
mount, and that it is none otherwise.  So the mount points are told from other paths if paths are
decoded, and also if there is no special character in the path without links; but if paths are taken
as they are written, a path with a separator is never recognised. -/
theorem mountPointState_of_mountTable :
    (w.mountPointState p = .ok .mountPoint ↔ ∃ m ∈ mounts, c = reading.path m) ∧
    (w.mountPointState p = .ok .notMountPoint ↔ ¬ ∃ m ∈ mounts, c = reading.path m) ∧
    ((reading = .decoded ∨ ∀ octet ∈ c.octets, octet ∉ encode MountTable.special) →
      (w.mountPointState p = .ok .mountPoint ↔ ∃ m ∈ mounts, c = Path.ofText m.path) ∧
      (w.mountPointState p = .ok .notMountPoint ↔ ¬ ∃ m ∈ mounts, c = Path.ofText m.path)) ∧
    (reading = .asWritten → (∃ octet ∈ c.octets, octet ∈ encode MountTable.separators) →
      w.mountPointState p = .ok .notMountPoint) := by
  have hstate := mountPointState_eq_of_mountTable hreader htable hmounts hthere hresolved
  have hmounted : w.mountPointState p = .ok .mountPoint ↔ ∃ m ∈ mounts, c = reading.path m := by
    rw [hstate]
    by_cases hmount : ∃ m ∈ mounts, c = reading.path m <;> simp [hmount]
  have hnone : w.mountPointState p = .ok .notMountPoint ↔
      ¬ ∃ m ∈ mounts, c = reading.path m := by
    rw [hstate]
    by_cases hmount : ∃ m ∈ mounts, c = reading.path m <;> simp [hmount]
  refine ⟨hmounted, hnone, fun hplain => ?_, ?_⟩
  · have htaken : (∃ m ∈ mounts, c = reading.path m) ↔ ∃ m ∈ mounts, c = Path.ofText m.path := by
      refine exists_congr fun m => and_congr_right fun _ => ?_
      cases reading with
      | asWritten =>
          exact m.eq_ofText_writtenPath_iff (hplain.resolve_left fun h => nomatch h)
      | decoded => exact Iff.rfl
    rw [hmounted, hnone, htaken]
    exact ⟨Iff.rfl, Iff.rfl⟩
  · rintro rfl ⟨octet, hoctet, hseparator⟩
    refine hnone.mpr ?_
    rintro ⟨m, -, rfl⟩
    exact m.separators_notMem_writtenPath hseparator hoctet

end

/-- A partition that is mounted below `/mnt`. -/
def mountedShare (name : String) (h : IsPathName name) : ActiveMount where
  source := "/dev/sda3"
  names := ["mnt", name]
  fsType := "ext4"
  options := "rw,relatime"
  source_isField := by decide
  source_visible := ⟨'/', by decide, by decide⟩
  names_isPathName := List.forall_mem_cons.mpr ⟨by decide, List.forall_mem_singleton.mpr h⟩
  fsType_isField := by decide
  options_isField := by decide

/-- Two mounts, one of them at a path with a blank in it. -/
def shares : List ActiveMount :=
  [mountedShare "share" (by decide), mountedShare "my share" (by decide)]

/-- A world in which these are mounted, with a link to the first one. -/
def withShares : World :=
  { tree := ⟨[([encode "link".toList], .link (encode "mnt/share".toList)),
      ([encode "mnt".toList], .directory directoryMode),
      ([encode "mnt".toList, encode "share".toList], .directory directoryMode),
      ([encode "mnt".toList, encode "my share".toList], .directory directoryMode),
      ([encode "proc".toList], .directory directoryMode),
      ([encode "proc".toList, encode "mounts".toList],
        .file fileMode (.octets (mountTable shares)))]⟩ }

/-- The mount is found through the link, by the reader of lines. -/
theorem withShares_recognised :
    withShares.readers.mounts.TakesPaths .asWritten ∧
      withShares.opened mountTableFile = .ok (.ok (.octets (mountTable shares))) ∧
      (Content.octets (mountTable shares)).all = mountTable shares ∧
      withShares.tree.find true (Path.ofText "/link") = .ok (.directory directoryMode) ∧
      withShares.resolve (Path.ofText "/link") = .ok (Path.ofText "/mnt/share") ∧
      withShares.mountPointState (Path.ofText "/link") = .ok .mountPoint := by
  have hreader : withShares.readers.mounts.TakesPaths .asWritten := MountTable.readLines_takesPaths
  have htable : withShares.opened mountTableFile = .ok (.ok (.octets (mountTable shares))) := by
    decide +kernel
  have hmounts : (Content.octets (mountTable shares)).all = mountTable shares := rfl
  have hthere : withShares.tree.find true (Path.ofText "/link") =
      .ok (.directory directoryMode) := by
    decide +kernel
  have hresolved : withShares.resolve (Path.ofText "/link") = .ok (Path.ofText "/mnt/share") := by
    decide +kernel
  have hplain : ∀ octet ∈ (Path.ofText "/mnt/share").octets, octet ∉ encode MountTable.special := by
    decide +kernel
  have hmount : ∃ m ∈ shares, Path.ofText "/mnt/share" = Path.ofText m.path := by decide +kernel
  obtain ⟨-, -, hpaths, -⟩ :=
    mountPointState_of_mountTable hreader htable hmounts hthere hresolved
  exact ⟨hreader, htable, hmounts, hthere, hresolved, (hpaths (Or.inr hplain)).1.mpr hmount⟩

/-- **A mount at a path with a blank in it is not recognised** if paths are taken as they are
written, though the table tells of it. -/
theorem withShares_unrecognised :
    withShares.readers.mounts.TakesPaths .asWritten ∧
      withShares.opened mountTableFile = .ok (.ok (.octets (mountTable shares))) ∧
      withShares.tree.find true (Path.ofText "/mnt/my share") = .ok (.directory directoryMode) ∧
      withShares.resolve (Path.ofText "/mnt/my share") = .ok (Path.ofText "/mnt/my share") ∧
      (∃ m ∈ shares, Path.ofText "/mnt/my share" = Path.ofText m.path) ∧
      withShares.mountPointState (Path.ofText "/mnt/my share") = .ok .notMountPoint := by
  refine ⟨MountTable.readLines_takesPaths, ?_⟩
  decide +kernel

end World

end PartitionUnits
