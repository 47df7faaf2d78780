import Mathlib.Data.List.TakeWhile
import PartitionUnits.FileSystem.Lookup
import PartitionUnits.Proofs.Text.Lines

/-!
# Paths put together from names

What joining a path and a name does to the names of the path, to its components and to its parent.

## Main Definitions

* `Path.IsName` — a text of octets that stands for one step of a path
* `Path.names_join` — the names of a path below another one
* `Path.parent?_join` — the parent of a path that ends in a name
* `Path.IsName.components_join` — the components of a name below a path
-/

namespace PartitionUnits

namespace Path

variable {p q : Path} {name : Octets}

/-! ## Octets of texts -/

/-- No octet of a character that takes several is one of ASCII. -/
theorem ofNat_ne_ascii {n : Nat} {b : UInt8} (hb : b.toNat < 0x80) (hlow : 0x80 ≤ n)
    (hhigh : n < UInt8.size) : UInt8.ofNat n ≠ b := by
  intro h
  have hval := congrArg UInt8.toNat h
  rw [UInt8.toNat_ofNat_of_lt' hhigh] at hval
  omega

/-- Only a character of ASCII has an octet of ASCII. -/
theorem toNat_of_ascii_mem_utf8EncodeChar {c : Char} {b : UInt8} (hb : b.toNat < 0x80)
    (h : b ∈ String.utf8EncodeChar c) : c.toNat = b.toNat := by
  unfold String.utf8EncodeChar at h
  simp only at h
  split at h
  · next hv =>
      have hval := congrArg UInt8.toNat (List.mem_singleton.mp h)
      rw [UInt8.toNat_ofNat_of_lt' (Nat.lt_of_le_of_lt hv (by decide))] at hval
      exact hval.symm
  split at h
  · simp only [List.mem_cons, List.not_mem_nil, or_false] at h
    rcases h with h | h <;>
      exact absurd h.symm (ofNat_ne_ascii hb (by omega) (by simp only [UInt8.size]; omega))
  split at h
  · simp only [List.mem_cons, List.not_mem_nil, or_false] at h
    rcases h with h | h | h <;>
      exact absurd h.symm (ofNat_ne_ascii hb (by omega) (by simp only [UInt8.size]; omega))
  · simp only [List.mem_cons, List.not_mem_nil, or_false] at h
    rcases h with h | h | h | h <;>
      exact absurd h.symm (ofNat_ne_ascii hb (by omega) (by simp only [UInt8.size]; omega))

section

variable {c : Char} {b : UInt8} (hb : b.toNat < 0x80) (hc : String.utf8EncodeChar c = [b])
include hb hc

/-- Only one character has an octet of ASCII. -/
theorem eq_of_mem_utf8EncodeChar {d : Char} (h : b ∈ String.utf8EncodeChar d) : d = c := by
  have hmem : b ∈ String.utf8EncodeChar c := hc ▸ List.mem_singleton_self b
  exact Char.toNat_inj.mp ((toNat_of_ascii_mem_utf8EncodeChar hb h).trans
    (toNat_of_ascii_mem_utf8EncodeChar hb hmem).symm)

/-- A character of ASCII is in a text just if its octet is among those of the text. -/
theorem mem_encode_iff {cs : List Char} : b ∈ Text.encode cs ↔ c ∈ cs := by
  constructor
  · intro hmem
    obtain ⟨d, hd, hoctet⟩ := List.mem_flatMap.mp hmem
    exact eq_of_mem_utf8EncodeChar hb hc hoctet ▸ hd
  · intro hmem
    exact List.mem_flatMap.mpr ⟨c, hmem, hc ▸ List.mem_singleton_self b⟩

/-- A text starts with a character of ASCII just if its octets start with that of the character. -/
theorem head?_encode_iff {cs : List Char} :
    (Text.encode cs).head? = some b ↔ cs.head? = some c := by
  cases cs with
  | nil => simp [Text.encode]
  | cons d rest =>
      obtain ⟨octet, octets, hoctets⟩ := List.exists_cons_of_ne_nil
        (show String.utf8EncodeChar d ≠ [] from String.utf8EncodeChar_ne_nil)
      rw [Text.encode, List.flatMap_cons, hoctets, List.cons_append, List.head?_cons,
        List.head?_cons, Option.some.injEq, Option.some.injEq]
      constructor
      · rintro rfl
        exact eq_of_mem_utf8EncodeChar hb hc (hoctets ▸ List.mem_cons_self)
      · rintro rfl
        exact (List.cons.inj (hoctets.symm.trans hc)).1

/-- **The pieces of a text between characters of ASCII** are those of its octets. -/
theorem splitOn_encode (cs : List Char) :
    (Text.encode cs).splitOn b = (cs.splitOn c).map Text.encode := by
  by_cases hmem : c ∈ cs
  · obtain ⟨before, after, rfl, -⟩ := List.eq_append_cons_of_mem hmem
    have hoctets :
        Text.encode (before ++ c :: after) = Text.encode before ++ b :: Text.encode after := by
      rw [Text.encode, List.flatMap_append, List.flatMap_cons, hc]
      rfl
    rw [hoctets, List.splitOn_append_cons_self, List.splitOn_append_cons_self, List.map_append,
      splitOn_encode before, splitOn_encode after]
  · have hoctets : b ∉ Text.encode cs := mt (mem_encode_iff hb hc).mp hmem
    rw [List.splitOn_eq_singleton hmem, List.splitOn_eq_singleton hoctets]
    rfl
termination_by cs.length

end

theorem octets_ofText (s : String) : (ofText s).octets = Text.encode s.toList := rfl

/-- A text without the character `/` has no slash among its octets. -/
theorem slash_notMem_ofText {s : String} (h : '/' ∉ s.toList) : slash ∉ (ofText s).octets :=
  mt (mem_encode_iff (by decide) rfl).mp h

theorem ofText_append (s s' : String) :
    (ofText (s ++ s')).octets = (ofText s).octets ++ (ofText s').octets := by
  simp [ofText, Text.encode]

/-! ## Names -/

/-- The names of a path are its pieces between slashes that are not empty. -/
theorem names_eq : p.names = (p.octets.splitOn slash).filter (· ≠ []) := by
  unfold names segments isAbsolute
  cases hp : p.octets with
  | nil => simp
  | cons b rest =>
      by_cases hb : b = slash
      · simp [hb, List.splitOn_cons_eq_if_modifyHead]
      · simp [hb]

theorem names_append_slash (xs ys : Octets) :
    (⟨xs ++ slash :: ys⟩ : Path).names = (⟨xs⟩ : Path).names ++ (⟨ys⟩ : Path).names := by
  simp only [names_eq, List.splitOn_append_cons_self, List.filter_append]

/-- How a path that is not absolute follows another one. -/
theorem join_eq (hq : q.isAbsolute = false) :
    p.octets = [] ∧ p.join q = q ∨
      (∃ before, p.octets = before ++ [slash] ∧ p.join q = ⟨before ++ slash :: q.octets⟩) ∨
      p.octets.getLast? ≠ some slash ∧ p.join q = ⟨p.octets ++ slash :: q.octets⟩ := by
  unfold join
  rw [if_neg (by simp [hq])]
  by_cases hnil : p.octets = []
  · exact Or.inl ⟨hnil, by simp [hnil]⟩
  · by_cases hlast : p.octets.getLast? = some slash
    · obtain ⟨before, hbefore⟩ := List.getLast?_eq_some_iff.mp hlast
      exact Or.inr (Or.inl ⟨before, hbefore, by simp [hbefore]⟩)
    · exact Or.inr (Or.inr ⟨hlast, by simp [hnil, hlast]⟩)

/-- **The names of a path below another one** are the names of both. -/
theorem names_join (hq : q.isAbsolute = false) : (p.join q).names = p.names ++ q.names := by
  rcases join_eq (p := p) hq with ⟨hnil, hjoin⟩ | ⟨before, hbefore, hjoin⟩ | ⟨-, hjoin⟩
  · have hp : p.names = [] := by simp [names_eq, hnil]
    rw [hjoin, hp, List.nil_append]
  · -- The slash at the end of `p` says nothing.
    have hp : p.names = (⟨before⟩ : Path).names := by
      have := names_append_slash before []
      simpa [names_eq, hbefore] using this
    rw [hjoin, names_append_slash, hp]
  · rw [hjoin, names_append_slash]

/-- A text of octets that stands for one step of a path: it says something and has no slash. -/
structure IsName (name : Octets) : Prop where
  ne_nil : name ≠ []
  ne_dot : name ≠ [dot]
  slash_notMem : slash ∉ name

theorem isAbsolute_of_slash_notMem (h : slash ∉ name) : (⟨name⟩ : Path).isAbsolute = false := by
  cases name with
  | nil => rfl
  | cons b rest =>
      have hb : b ≠ slash := by
        rintro rfl
        exact h List.mem_cons_self
      simpa [isAbsolute] using hb

namespace IsName

theorem isAbsolute (h : IsName name) : (⟨name⟩ : Path).isAbsolute = false :=
  isAbsolute_of_slash_notMem h.slash_notMem

theorem names (h : IsName name) : (⟨name⟩ : Path).names = [name] := by
  rw [names_eq, List.splitOn_eq_singleton h.slash_notMem]
  simp [h.ne_nil]

theorem names_join (h : IsName name) : (p.join ⟨name⟩).names = p.names ++ [name] := by
  rw [Path.names_join h.isAbsolute, h.names]

/-- The octets of a path that ends in a name: what comes before is nothing or ends in a slash. -/
theorem octets_join (h : IsName name) :
    ∃ before, (p.join ⟨name⟩).octets = before ++ name ∧
      (before = [] ∨ ∃ start, before = start ++ [slash]) := by
  rcases join_eq (p := p) h.isAbsolute with ⟨-, hjoin⟩ | ⟨before, -, hjoin⟩ | ⟨-, hjoin⟩
  · exact ⟨[], by simp [hjoin], Or.inl rfl⟩
  · exact ⟨before ++ [slash], by simp [hjoin], Or.inr ⟨before, rfl⟩⟩
  · exact ⟨p.octets ++ [slash], by simp [hjoin], Or.inr ⟨p.octets, rfl⟩⟩

theorem getLast?_ne_slash (h : IsName name) {before : Octets} :
    (before ++ name).getLast? ≠ some slash := by
  intro hlast
  obtain ⟨last, hname⟩ := Option.ne_none_iff_exists'.mp (mt List.getLast?_eq_none_iff.mp h.ne_nil)
  rw [List.getLast?_append, hname] at hlast
  cases hlast
  exact h.slash_notMem (List.mem_of_getLast? hname)

/-- A path that ends in a name does not ask for a directory. -/
theorem asksForDirectory_join (h : IsName name) : (p.join ⟨name⟩).asksForDirectory = false := by
  obtain ⟨before, hoctets, -⟩ := h.octets_join (p := p)
  have hlast : (p.join ⟨name⟩).octets.getLast? ≠ some slash := by
    rw [hoctets]
    exact h.getLast?_ne_slash
  simp [asksForDirectory, hlast]

theorem getLast?_names_join (h : IsName name) : (p.join ⟨name⟩).names.getLast? = some name := by
  rw [h.names_join, List.getLast?_concat]

/-- A name below a path that says something and ends in no slash. -/
theorem join_eq (h : IsName name) (hnil : p.octets ≠ []) (hlast : p.octets.getLast? ≠ some slash) :
    p.join ⟨name⟩ = ⟨p.octets ++ slash :: name⟩ := by
  simp [join, h.isAbsolute, hnil, hlast]

/-- A path that ends in a name can be walked if the path before it can and it is not too long. -/
theorem fault?_join (h : IsName name) (hp : p.fault? = none) (hnul : 0 ∉ name)
    (hlength : (p.join ⟨name⟩).octets.length ≤ maxLength) : (p.join ⟨name⟩).fault? = none := by
  have hbefore : 0 ∉ p.octets := by
    intro hmem
    simp [fault?, hmem] at hp
  have hzero : 0 ∉ (p.join ⟨name⟩).octets := by
    rcases Path.join_eq (p := p) h.isAbsolute with ⟨-, hjoin⟩ | ⟨before, hp', hjoin⟩ | ⟨-, hjoin⟩
    · rw [hjoin]
      exact hnul
    · rw [hp'] at hbefore
      rw [hjoin]
      simp_all [slash]
    · rw [hjoin]
      simp [hbefore, hnul, slash]
  have hnil : (p.join ⟨name⟩).octets ≠ [] := by
    obtain ⟨before, hoctets, -⟩ := h.octets_join (p := p)
    rw [hoctets]
    simp [h.ne_nil]
  have hlong : ¬ maxLength < (p.join ⟨name⟩).octets.length := by omega
  simp [fault?, hzero, hnil, hlong]

/-- A name that was put after a text without slashes. -/
theorem ofText_append {s suffix : String} (hs : '/' ∉ s.toList) (hsuffix : '/' ∉ suffix.toList)
    (hlength : 2 ≤ (ofText suffix).octets.length) : IsName (ofText (s ++ suffix)).octets where
  ne_nil := by
    intro h
    have hlen := congrArg List.length h
    rw [Path.ofText_append, List.length_append, List.length_nil] at hlen
    omega
  ne_dot := by
    intro h
    have hlen := congrArg List.length h
    rw [Path.ofText_append, List.length_append, List.length_singleton] at hlen
    omega
  slash_notMem := by
    rw [Path.ofText_append, List.mem_append]
    rintro (hmem | hmem)
    · exact slash_notMem_ofText hs hmem
    · exact slash_notMem_ofText hsuffix hmem

end IsName

/-- Two names below a path, put together first or one after the other. -/
theorem join_join {first last : Octets} (hfirst : IsName first) (hlast : IsName last) :
    p.join ((⟨first⟩ : Path).join ⟨last⟩) = (p.join ⟨first⟩).join ⟨last⟩ := by
  have hend : ∀ before : Octets, (before ++ first).getLast? ≠ some slash :=
    fun before => hfirst.getLast?_ne_slash
  have hinner : (⟨first⟩ : Path).join ⟨last⟩ = ⟨first ++ slash :: last⟩ :=
    hlast.join_eq hfirst.ne_nil (hend [])
  have habs : (⟨first ++ slash :: last⟩ : Path).isAbsolute = false := by
    obtain ⟨b, rest, rfl⟩ := List.exists_cons_of_ne_nil hfirst.ne_nil
    exact hfirst.isAbsolute
  rw [hinner]
  -- Joining the first name leaves a path that ends in a name, so the second follows a slash.
  rcases join_eq (p := p) hfirst.isAbsolute with
    ⟨hnil, hjoin⟩ | ⟨before, hbefore, hjoin⟩ | ⟨hp, hjoin⟩
  · rw [hjoin, hinner]
    simp [join, habs, hnil]
  · rw [hjoin, hlast.join_eq (by simp) (by simpa using hend (before ++ [slash]))]
    simp [join, habs, hbefore]
  · rw [hjoin, hlast.join_eq (by simp) (by simpa using hend (p.octets ++ [slash]))]
    by_cases hnil : p.octets = []
    · simp_all [join]
    · simp [join, habs, hnil, hp]

/-! ## Parents -/

theorem isFiller_eq_false (h : IsName name) : isFiller name = false := by
  simp [isFiller, h.ne_nil, h.ne_dot]

/-- Nothing is dropped from the end of pieces that end in a name. -/
theorem dropFillers_concat (segments : List Octets) (h : IsName name) :
    dropFillers (segments ++ [name]) = segments ++ [name] := by
  simp [dropFillers, isFiller_eq_false h]

theorem segments_append_slash {xs : Octets} (hxs : xs ≠ []) (h : IsName name) :
    (⟨xs ++ slash :: name⟩ : Path).segments = (⟨xs⟩ : Path).segments ++ [name] := by
  obtain ⟨x, rest, rfl⟩ := List.exists_cons_of_ne_nil hxs
  have hname : name.splitOn slash = [name] := List.splitOn_eq_singleton h.slash_notMem
  by_cases hx : x = slash
  · simp [segments, isAbsolute, hx, List.splitOn_append_cons_self, hname]
  · simp only [segments, isAbsolute, List.cons_append, List.head?_cons, Option.some.injEq, hx,
      decide_false, Bool.false_eq_true, if_false]
    rw [← List.cons_append, List.splitOn_append_cons_self, hname]

/-- The last piece of a path that ends in a name. -/
theorem segments_join (h : IsName name) :
    ∃ before, (p.join ⟨name⟩).segments = before ++ [name] := by
  have hname : name.splitOn slash = [name] := List.splitOn_eq_singleton h.slash_notMem
  obtain ⟨before, hoctets, rfl | ⟨start, rfl⟩⟩ := h.octets_join (p := p)
  · refine ⟨[], ?_⟩
    have habs := h.isAbsolute
    simp only [isAbsolute] at habs
    simp [segments, isAbsolute, hoctets, habs, hname]
  · have hjoin : p.join ⟨name⟩ = ⟨start ++ slash :: name⟩ := by
      cases hp : p.join ⟨name⟩
      simpa [hp] using hoctets
    rw [hjoin]
    by_cases hstart : start = []
    · exact ⟨[], by simp [segments, isAbsolute, hstart, hname]⟩
    · exact ⟨_, segments_append_slash hstart h⟩

/-- A path is its pieces between slashes, after the slash that it starts with. -/
theorem octets_eq_intercalate :
    (if p.isAbsolute then [slash] else []) ++ [slash].intercalate p.segments = p.octets := by
  unfold segments
  by_cases habs : p.isAbsolute = true
  · obtain ⟨rest, hrest⟩ := List.head?_eq_some_iff.mp (of_decide_eq_true habs)
    simp [habs, hrest]
  · simp [habs]

theorem dropFillers_append_fillers (segments : List Octets) :
    ∃ fillers, segments = dropFillers segments ++ fillers ∧ ∀ x ∈ fillers, isFiller x = true := by
  refine ⟨(segments.reverse.takeWhile isFiller).reverse, ?_, fun x hx => ?_⟩
  · rw [dropFillers, ← List.reverse_append, List.takeWhile_append_dropWhile, List.reverse_reverse]
  · exact List.mem_takeWhile_imp (List.mem_reverse.mp hx)

/-- The parent of a path is what its pieces are without the last one that says something. -/
theorem parent?_eq_some {kept : List Octets} {last : Octets}
    (hsegments : dropFillers p.segments = kept ++ [last]) (hkept : dropFillers kept = kept)
    (hnil : kept ≠ []) :
    p.parent? = some ⟨(if p.isAbsolute then [slash] else []) ++ [slash].intercalate kept⟩ := by
  unfold parent?
  simp only
  split
  · next hempty =>
      rw [hsegments] at hempty
      simp at hempty
  rw [hsegments, List.dropLast_concat, hkept]
  split
  · exact absurd rfl hnil
  · rfl

/-- **The parent of a name in a directory is the directory**, as it was written. -/
theorem parent?_join {first last : Octets} (hfirst : IsName first) (hlast : IsName last) :
    ((p.join ⟨first⟩).join ⟨last⟩).parent? = some (p.join ⟨first⟩) := by
  -- The directory says something and ends in no slash, so its pieces are kept as they are.
  generalize hdir : p.join ⟨first⟩ = directory
  obtain ⟨before, hsegments⟩ := segments_join (p := p) hfirst
  rw [hdir] at hsegments
  have hnil : directory.octets ≠ [] := by
    obtain ⟨start, hoctets, -⟩ := hfirst.octets_join (p := p)
    rw [← hdir, hoctets]
    simp [hfirst.ne_nil]
  have hslash : directory.octets.getLast? ≠ some slash := by
    obtain ⟨start, hoctets, -⟩ := hfirst.octets_join (p := p)
    rw [← hdir, hoctets]
    exact hfirst.getLast?_ne_slash
  have hjoin : directory.join ⟨last⟩ = ⟨directory.octets ++ slash :: last⟩ :=
    hlast.join_eq hnil hslash
  have habs : (⟨directory.octets ++ slash :: last⟩ : Path).isAbsolute = directory.isAbsolute := by
    obtain ⟨b, rest, hb⟩ := List.exists_cons_of_ne_nil hnil
    simp [isAbsolute, hb]
  have hall : dropFillers (⟨directory.octets ++ slash :: last⟩ : Path).segments =
      directory.segments ++ [last] := by
    rw [segments_append_slash hnil hlast, dropFillers_concat _ hlast]
  have hkept : dropFillers directory.segments = directory.segments := by
    rw [hsegments, dropFillers_concat _ hfirst]
  rw [hjoin, parent?_eq_some hall hkept (by simp [hsegments]), habs, octets_eq_intercalate]

theorem slash_notMem_segments {x : Octets} (h : x ∈ p.segments) : slash ∉ x :=
  Text.notMem_of_mem_splitOn h

/-- The names of a path that is put together from pieces. -/
theorem names_intercalate (lead : Bool) {pieces : List Octets} (hpieces : ∀ x ∈ pieces, slash ∉ x)
    (hnil : pieces ≠ []) :
    (⟨(if lead then [slash] else []) ++ [slash].intercalate pieces⟩ : Path).names =
      pieces.filter (· ≠ []) := by
  have hsplit : ([slash].intercalate pieces).splitOn slash = pieces :=
    List.splitOn_intercalate slash hpieces hnil
  rw [names_eq]
  cases lead with
  | false => simpa using congrArg _ hsplit
  | true => simp [List.splitOn_cons_eq_if_modifyHead, hsplit]

/-- A filler that is not empty is a lone dot. -/
theorem eq_dot_of_isFiller {x : Octets} (hx : isFiller x = true) (hne : x ≠ []) : x = [dot] := by
  simp only [isFiller, Bool.or_eq_true, decide_eq_true_eq] at hx
  exact hx.resolve_left hne

/-- The lone dot that a path starts with stands before its last name. -/
theorem exists_dot_of_startsHere {before : List Octets} (h : IsName name)
    (hsegments : p.segments = before ++ [name]) (hhere : p.startsHere = true) :
    ∃ rest, before.filter (· ≠ []) = [dot] :: rest := by
  simp only [startsHere, hsegments, Bool.and_eq_true, decide_eq_true_eq] at hhere
  cases before with
  | nil => exact absurd (by simpa using hhere.2) h.ne_dot
  | cons x rest =>
      have hx : x = [dot] := by simpa using hhere.2
      exact ⟨rest.filter (· ≠ []), by simp [hx]⟩

/-- **The parent of a name below a path has the names of that path**, but for lone dots at its
end. -/
theorem exists_parent?_join (h : IsName name) :
    ∃ parent dots, (p.join ⟨name⟩).parent? = some parent ∧ p.names = parent.names ++ dots ∧
      ∀ x ∈ dots, x = [dot] := by
  obtain ⟨before, hsegments⟩ := segments_join (p := p) h
  have hnames : p.names = before.filter (· ≠ []) := by
    have hjoin := h.names_join (p := p)
    rw [names, hsegments, List.filter_append] at hjoin
    simpa [h.ne_nil] using hjoin.symm
  obtain ⟨fillers, hbefore, hfillers⟩ := dropFillers_append_fillers before
  have hdots : ∀ x ∈ fillers.filter (· ≠ []), x = [dot] := by
    intro x hx
    obtain ⟨hx, hne⟩ := List.mem_filter.mp hx
    exact eq_dot_of_isFiller (hfillers x hx) (by simpa using hne)
  unfold parent?
  simp only
  rw [hsegments, dropFillers_concat _ h]
  split
  · next hempty => simp at hempty
  rw [List.dropLast_concat]
  split
  · next hnil =>
      rw [hnil, List.nil_append] at hbefore
      rw [← hbefore] at hdots
      by_cases hhere : (p.join ⟨name⟩).startsHere = true
      · -- The path is below the lone dot that it starts with.
        obtain ⟨rest, hrest⟩ := exists_dot_of_startsHere h hsegments hhere
        rw [if_pos hhere]
        refine ⟨_, rest, rfl, hnames.trans hrest, fun x hx => ?_⟩
        exact hdots x (hrest ▸ List.mem_cons_of_mem _ hx)
      · rw [if_neg hhere]
        refine ⟨_, before.filter (· ≠ []), rfl, ?_, hdots⟩
        rw [hnames]
        cases (p.join ⟨name⟩).isAbsolute <;> rfl
  · next hkept =>
      refine ⟨_, fillers.filter (· ≠ []), rfl, ?_, hdots⟩
      rw [hnames, names_intercalate _ (fun x hx => ?_) hkept, ← List.filter_append, ← hbefore]
      have hmem : x ∈ (p.join ⟨name⟩).segments := by
        rw [hsegments, hbefore]
        exact List.mem_append_left _ (List.mem_append_left _ hx)
      exact slash_notMem_segments hmem

/-! ## Components -/

/-- The empty piece in front of the first slash says nothing. -/
theorem filter_segments (p : Path) :
    p.segments.filter (!isFiller ·) = (p.octets.splitOn slash).filter (!isFiller ·) := by
  unfold segments isAbsolute
  cases hp : p.octets with
  | nil => simp
  | cons b rest =>
      by_cases hb : b = slash
      · simp [hb, List.splitOn_cons_eq_if_modifyHead, isFiller]
      · simp [hb]

/-- A path that starts with a slash starts at the root directory. -/
theorem components_slash (xs : Octets) :
    (⟨slash :: xs⟩ : Path).components =
      .root :: ((xs.splitOn slash).filter (!isFiller ·)).map componentOf := by
  simp [components, isAbsolute, segments]

/-- What a path says after a slash comes after what it says before. -/
theorem components_append_slash {xs : Octets} (hxs : xs ≠ []) (ys : Octets) :
    (⟨xs ++ slash :: ys⟩ : Path).components =
      (⟨xs⟩ : Path).components ++ ((ys.splitOn slash).filter (!isFiller ·)).map componentOf := by
  have hsplit : (xs ++ slash :: ys).splitOn slash = xs.splitOn slash ++ ys.splitOn slash :=
    List.splitOn_append_cons_self ..
  have habs : (⟨xs ++ slash :: ys⟩ : Path).isAbsolute = (⟨xs⟩ : Path).isAbsolute := by
    obtain ⟨x, rest, rfl⟩ := List.exists_cons_of_ne_nil hxs
    rfl
  have hhere : (⟨xs ++ slash :: ys⟩ : Path).startsHere = (⟨xs⟩ : Path).startsHere := by
    unfold startsHere segments
    rw [habs]
    cases (⟨xs⟩ : Path).isAbsolute with
    | true => rfl
    | false =>
        obtain ⟨first, pieces, hpieces⟩ :=
          List.exists_cons_of_ne_nil (List.splitOn_ne_nil slash xs)
        simp only [Bool.false_eq_true, if_false, hsplit, hpieces, List.cons_append,
          List.head?_cons]
  unfold components
  rw [habs, hhere, filter_segments, filter_segments, hsplit, List.filter_append, List.map_append,
    List.append_assoc]

/-- **The components of a name below a path** are those of the path and the name. -/
theorem IsName.components_join (h : IsName name) (hdots : name ≠ [dot, dot]) :
    (p.join ⟨name⟩).components = p.components ++ [.name name] := by
  have hname : ((name.splitOn slash).filter (!isFiller ·)).map componentOf = [.name name] := by
    rw [List.splitOn_eq_singleton h.slash_notMem]
    simp [isFiller_eq_false h, componentOf, hdots]
  have hnothing : ((([] : Octets).splitOn slash).filter (!isFiller ·)).map componentOf = [] := by
    simp [isFiller]
  obtain ⟨octets⟩ := p
  unfold join
  rw [if_neg (by simp [h.isAbsolute])]
  by_cases hnil : octets = []
  · subst hnil
    have hhere : (⟨name⟩ : Path).startsHere = false := by
      simp [startsHere, segments, h.isAbsolute, List.splitOn_eq_singleton h.slash_notMem, h.ne_dot]
    rw [if_pos (Or.inl rfl), List.nil_append, components, h.isAbsolute, hhere, filter_segments,
      hname]
    rfl
  by_cases hlast : octets.getLast? = some slash
  · rw [if_pos (Or.inr hlast)]
    obtain ⟨before, rfl⟩ := List.getLast?_eq_some_iff.mp hlast
    rw [List.append_assoc, List.singleton_append]
    by_cases hbefore : before = []
    · rw [hbefore, List.nil_append, List.nil_append, components_slash, components_slash, hname,
        hnothing]
      rfl
    · rw [components_append_slash hbefore, components_append_slash hbefore, hname, hnothing,
        List.append_nil]
  · rw [if_neg (by simp [hnil, hlast]), components_append_slash hnil, hname]

end Path

end PartitionUnits
