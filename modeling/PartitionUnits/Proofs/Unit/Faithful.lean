import PartitionUnits.Proofs.Text.Utf8
import PartitionUnits.Proofs.Unit.Escape

/-!
# Escaping is a faithful encoding

Nothing is lost when a text becomes part of a unit name, and nothing but the way a path is written
is lost when the path does.

## Main Definitions

* `UnitName.recover?` — the text that an escaped one stands for
* `UnitName.IsUnitChar` — the characters that unit names are made of
* `UnitName.Spells` — a text that has given names between its slashes, however many of these it has
* `UnitName.escapePath_eq_ok_iff` — which paths are escaped, and to what
* `UnitName.escape_faithful` — what escaping keeps apart and what it does not

## Design Notes

`Spells` says what the names in a path are without cutting the path: a name ends where the path
does, or at a slash, and slashes that follow no name count for nothing.  The root directory has no
names.  It is escaped to what a lone slash is escaped to, which is a text that has no names either,
so every path that is escaped is escaped like one text that spells the same names
(`segments_spelling`), and the root directory needs no case of its own.
-/

namespace PartitionUnits

namespace UnitName

/-! ## Back to the text -/

/-- **The text that an escaped one stands for**, if its octets are those of a text. -/
def recover? (name : String) : Option String :=
  (Text.decode? (unescape name.toList)).map String.ofList

theorem recover?_escape (s : String) : recover? (escape s) = some s := by
  rw [recover?, escape, String.toList_ofList, unescape_escapeOctets, Text.decode?_encode,
    Option.map_some, String.ofList_toList]

/-! ## The characters of an escaped text -/

/-- A letter or a digit of ASCII, or one of five other characters. -/
def IsUnitChar (c : Char) : Prop := c.isAlphanum = true ∨ c ∈ [':', '_', '.', '-', '\\']

instance (c : Char) : Decidable (IsUnitChar c) := inferInstanceAs (Decidable (_ ∨ _))

theorem isUnitChar_of_mem_octet (b : UInt8) :
    (∀ c ∈ escapeFirst b, IsUnitChar c) ∧ (∀ c ∈ escapeOctet b, IsUnitChar c) := by
  have hall : (escapeFirst b).all (IsUnitChar ·) = true ∧
      (escapeOctet b).all (IsUnitChar ·) = true := by
    revert b
    exact octet_all (by decide +kernel)
  simpa only [List.all_eq_true, decide_eq_true_eq] using hall

theorem isUnitChar_of_mem_escape {s : String} {c : Char} (h : c ∈ (escape s).toList) :
    IsUnitChar c := by
  obtain ⟨b, hfirst | hrest⟩ := exists_of_mem_escape h
  · exact (isUnitChar_of_mem_octet b).1 c hfirst
  · exact (isUnitChar_of_mem_octet b).2 c hrest

/-- The first octet becomes something, and this does not start with a dot. -/
theorem exists_head_escapeFirst (b : UInt8) : ∃ c ≠ '.', (escapeFirst b).head? = some c := by
  have hany : (escapeFirst b).head?.any (· ≠ '.') = true := by
    revert b
    exact octet_all (by decide +kernel)
  obtain ⟨c, hhead, hne⟩ := (Option.any_eq_true ..).mp hany
  exact ⟨c, by simpa using hne, hhead⟩

theorem head?_escape_ne_dot (s : String) : (escape s).toList.head? ≠ some '.' := by
  rw [escape, String.toList_ofList]
  cases Text.encode s.toList with
  | nil => simp [escapeOctets]
  | cons b rest =>
      obtain ⟨c, hne, hhead⟩ := exists_head_escapeFirst b
      rw [escapeOctets, List.head?_append, hhead, Option.some_or]
      exact fun h => hne (Option.some.inj h)

theorem escape_eq_empty_iff (s : String) : escape s = "" ↔ s = "" := by
  have hempty : escape "" = "" := rfl
  constructor
  · exact fun h => escape_injective (h.trans hempty.symm)
  · rintro rfl
    exact hempty

/-! ## The names in a path -/

/-- **A text has these names between its slashes**, one after the other. -/
inductive Spells : List Char → List (List Char) → Prop where
  | nil : Spells [] []
  | slash {rest : List Char} {names : List (List Char)} (h : Spells rest names) :
      Spells ('/' :: rest) names
  | last {name : List Char} (hne : name ≠ []) (hslash : '/' ∉ name) : Spells name [name]
  | name {name rest : List Char} {names : List (List Char)} (hne : name ≠ [])
      (hslash : '/' ∉ name) (h : Spells rest names) : Spells (name ++ '/' :: rest) (name :: names)

namespace Spells

variable {cs : List Char} {names : List (List Char)}

theorem eq_filter_splitOn (h : Spells cs names) : names = (cs.splitOn '/').filter (· ≠ []) := by
  induction h with
  | nil => rfl
  | slash _ ih =>
      rw [← List.nil_append ('/' :: _), List.splitOn_append_cons_self, List.filter_append, ← ih]
      rfl
  | last hne hslash => simp [List.splitOn_eq_singleton hslash, hne]
  | name hne hslash _ ih =>
      rw [List.splitOn_append_cons_self, List.filter_append, ← ih,
        List.splitOn_eq_singleton hslash]
      simp [hne]

theorem splitOn (cs : List Char) : Spells cs ((cs.splitOn '/').filter (· ≠ [])) := by
  by_cases hslash : '/' ∈ cs
  · obtain ⟨before, after, rfl, hbefore⟩ := List.eq_append_cons_of_mem hslash
    have hafter := splitOn after
    rw [List.splitOn_append_cons_self, List.filter_append, List.splitOn_eq_singleton hbefore]
    by_cases hnil : before = []
    · subst hnil
      exact hafter.slash
    · simpa [hnil] using Spells.name hnil hbefore hafter
  · rw [List.splitOn_eq_singleton hslash]
    by_cases hnil : cs = []
    · subst hnil
      exact Spells.nil
    · simpa [hnil] using Spells.last hnil hslash
termination_by cs.length

/-- A name in a path says something and has no slash. -/
theorem ne_nil_and_slash_notMem (h : Spells cs names) :
    ∀ name ∈ names, name ≠ [] ∧ '/' ∉ name := by
  induction h with
  | nil => simp
  | slash _ ih => exact ih
  | last hne hslash => simpa using ⟨hne, hslash⟩
  | name hne hslash _ ih => simpa using ⟨⟨hne, hslash⟩, ih⟩

end Spells

/-- **The pieces that are escaped are the names in the path**, and there is one way to have them. -/
theorem spells_iff {path : String} {names : List (List Char)} :
    Spells path.toList names ↔ segments path = names := by
  constructor
  · exact fun h => h.eq_filter_splitOn.symm
  · rintro rfl
    exact Spells.splitOn path.toList

/-! ## Paths -/

/-- The shortest text with given names that is not empty. -/
def spelling (names : List (List Char)) : String :=
  if names = [] then "/" else String.ofList (['/'].intercalate names)

/-- A path's names are those of the text that is escaped for it. -/
theorem segments_spelling (path : String) :
    segments (spelling (segments path)) = segments path := by
  have hnames := (spells_iff.mpr (Eq.refl (segments path))).ne_nil_and_slash_notMem
  generalize segments path = names at hnames
  unfold spelling
  split
  · next hnil => rw [hnil, ← spells_iff]; exact Spells.nil.slash
  · next hnil =>
      rw [segments, String.toList_ofList,
        List.splitOn_intercalate '/' (fun name h => (hnames name h).2) hnil, List.filter_eq_self]
      exact fun name h => by simpa using (hnames name h).1

/-- **Which paths are escaped, and to what.** -/
theorem escapePath_eq_ok_iff {path name : String} : escapePath path = .ok name ↔
    path.toList.head? = some '/' ∧ ['.', '.'] ∉ segments path ∧
      name = escape (spelling (segments path)) := by
  unfold escapePath
  split
  · next hhead => simp [hhead]
  next hhead =>
  split
  · next hup => simp [hup]
  next hup =>
  have hroot : escape "/" = "-" := rfl
  unfold spelling
  split
  · next hnil => simp [not_not.mp hhead, hup, hroot, eq_comm]
  · next hnil => simp [not_not.mp hhead, hup, eq_comm]

/-- **Escaping is a faithful encoding.**  A text can be read back from what it is escaped to, which
is made of a few characters, has no slash, does not start with a dot and is empty for the empty
text alone.  A path is escaped just if it is absolute and no name in it is two dots, and two paths
are escaped to the same just if they have the same names. -/
theorem escape_faithful (s p q : String) :
    recover? (escape s) = some s ∧
      (∀ c ∈ (escape s).toList, IsUnitChar c) ∧
      '/' ∉ (escape s).toList ∧
      (escape s).toList.head? ≠ some '.' ∧
      (escape s = "" ↔ s = "") ∧
      ((∃ name, escapePath p = .ok name) ↔
        p.toList.head? = some '/' ∧ ∀ names, Spells p.toList names → ['.', '.'] ∉ names) ∧
      ∀ name name', escapePath p = .ok name → escapePath q = .ok name' →
        (name = name' ↔ ∃ names, Spells p.toList names ∧ Spells q.toList names) := by
  refine ⟨recover?_escape s, fun c hc => isUnitChar_of_mem_escape hc, slash_notMem_escape s,
    head?_escape_ne_dot s, escape_eq_empty_iff s, ?_, ?_⟩
  · simp only [escapePath_eq_ok_iff, spells_iff, exists_and_left, exists_eq, and_true, forall_eq']
  · intro name name' hname hname'
    obtain ⟨-, -, rfl⟩ := escapePath_eq_ok_iff.mp hname
    obtain ⟨-, -, rfl⟩ := escapePath_eq_ok_iff.mp hname'
    simp only [spells_iff]
    constructor
    · intro h
      have hnames := congrArg segments (escape_injective h)
      rw [segments_spelling, segments_spelling] at hnames
      exact ⟨_, rfl, hnames.symm⟩
    · rintro ⟨names, hp, hq⟩
      rw [hp, hq]

theorem escape_faithful_doubled_slash :
    escapePath "//dev/sda3/" = .ok "dev-sda3" ∧ escapePath "/dev/sda3" = .ok "dev-sda3" ∧
      ∃ names, Spells "//dev/sda3/".toList names ∧ Spells "/dev/sda3".toList names :=
  ⟨by decide, by decide, ((escape_faithful "" "//dev/sda3/" "/dev/sda3").2.2.2.2.2.2
    "dev-sda3" "dev-sda3" (by decide) (by decide)).mp rfl⟩

end UnitName

end PartitionUnits
