import Mathlib.Data.List.Forall2
import PartitionUnits.MountTable

/-!
# What a mount table tells

What looking for a mount point among the mounts of a table comes to, what is asked of a reader of
the table, and what the reader of lines makes of one.

## Main Definitions

* `findMount_eq_false_iff` — when nothing is mounted at a path, for sure
* `MountTable.Reader.IsLinewise` — a reader that goes through the table line by line
* `MountTable.Reader.IsLinewise.read_and_findMount_iff` — when it tells that nothing is mounted
* `TellsMount`, `LineTells` — a line tells of a mount at a path
* `MountTable.readLines_isLinewise` — the reader of lines

## Design Notes

Mounts are gone through up to the first one that is at the path or is not understood.  So it takes
all of them to say that nothing is mounted at a path, but for the opposite what comes after the one
that is there can be anything.
-/

namespace PartitionUnits

open Text

variable {p q : Path} {line : List Char} {items : List (Except Failure Path)}

/-! ## Looking for a mount point -/

/-- **Nothing is found if all mounts are understood and at other paths**, and for no other
reason. -/
theorem findMount_eq_false_iff :
    findMount p items = .ok false ↔ ∀ item ∈ items, ∃ q, item = .ok q ∧ ¬ q.SameAs p := by
  induction items with
  | nil => simp [findMount]
  | cons item rest ih =>
      rw [List.forall_mem_cons]
      cases item with
      | error f => simp [findMount]
      | ok q =>
          rw [findMount]
          split
          · next hsame => simp [hsame]
          · next hdiffers => simp [hdiffers, ih]

/-- **What is looked for among mounts that are all understood** is found if one of these is at the
path. -/
theorem findMount_of_read (mounts : List Path) :
    findMount p (mounts.map .ok) = .ok (mounts.any fun q => q.SameAs p) := by
  induction mounts with
  | nil => rfl
  | cons q rest ih =>
      rw [List.map_cons, findMount, List.any_cons]
      split
      · next hsame => simp [hsame]
      · next hdiffers => simp [hdiffers, ih]

/-! ## Readers -/

/-- **A reader that goes through the table line by line**: a table that cannot be opened has no
mounts to go through, one that cannot be read has a mount that is not understood, and else there is
one mount for each line, which is understood just if `line` makes a path of the line. -/
structure MountTable.Reader.IsLinewise (read : MountTable.Reader) (line : Octets → Option Path) :
    Prop where
  unopened : ∀ e, ∃ f, read (.error e) = .error f
  unread : ∀ e, ∃ f, read (.ok (.error e)) = .ok [.error f]
  lines : ∀ content : Content, ∃ items, read (.ok (.ok content)) = .ok items ∧
    List.Forall₂ (fun octets item => item.toOption = line octets) (mountLines content.all) items

namespace MountTable.Reader.IsLinewise

variable {read : MountTable.Reader} {line : Octets → Option Path} {content : Content}

/-- **Lines that are all understood** give their mounts. -/
theorem read_of_forall₂ (h : read.IsLinewise line) {mounts : List Path}
    (hlines : List.Forall₂ (fun octets q => line octets = some q) (mountLines content.all) mounts) :
    read (.ok (.ok content)) = .ok (mounts.map .ok) := by
  obtain ⟨items, hread, hitems⟩ := h.lines content
  rw [hread]
  clear hread
  congr 1
  generalize mountLines content.all = table at hlines hitems
  induction hitems generalizing mounts with
  | nil =>
      cases hlines
      rfl
  | @cons octets item _ _ hitem _ ih =>
      obtain _ | ⟨hq, hrest⟩ := hlines
      rw [List.map_cons, ih hrest]
      rw [hq] at hitem
      cases item with
      | error f => cases hitem
      | ok q =>
          cases hitem
          rfl

/-- **That nothing is mounted at a path is told** just if the table is opened and read, all its
lines are understood, and they tell of other paths. -/
theorem read_and_findMount_iff (h : read.IsLinewise line)
    {told : Except FileError (Except FileError Content)} :
    (∃ items, read told = .ok items ∧ findMount p items = .ok false) ↔
      ∃ content, told = .ok (.ok content) ∧
        ∀ octets ∈ mountLines content.all, ∃ q, line octets = some q ∧ ¬ q.SameAs p := by
  match told with
  | .error e =>
      obtain ⟨f, hread⟩ := h.unopened e
      simp [hread]
  | .ok (.error e) =>
      obtain ⟨f, hread⟩ := h.unread e
      simp [hread, findMount]
  | .ok (.ok content) =>
      obtain ⟨items, hread, hitems⟩ := h.lines content
      simp only [hread, Except.ok.injEq, exists_eq_left', findMount_eq_false_iff]
      clear hread
      generalize mountLines content.all = table at hitems
      induction hitems with
      | nil => simp
      | @cons octets item _ _ hitem _ ih =>
          rw [List.forall_mem_cons, List.forall_mem_cons]
          refine and_congr ?_ ih
          rw [← hitem]
          cases item <;> simp [Except.toOption]

end MountTable.Reader.IsLinewise

/-! ## The reader of lines -/

/-- **A line tells of a mount at a path**: it has six fields, of which the second is the path, which
is absolute, the fifth is zero or one, and the sixth is a number that is not negative. -/
def TellsMount (line : List Char) (q : Path) : Prop :=
  ∃ (spec file fsType options dump pass : List Char) (rest : List (List Char)) (n : Int),
    words (fun c => c = ' ' || c = '\t') (trim line) =
      spec :: file :: fsType :: options :: dump :: pass :: rest ∧
    q = Path.ofText (String.ofList file) ∧ q.isAbsolute = true ∧
    parseSigned? signedBound32 dump ∈ [some 0, some 1] ∧
    parseSigned? signedBound32 pass = some n ∧ 0 ≤ n

/-- What a line with six fields comes to. -/
theorem mountPathOf_eq_ok_iff_of_fields {spec file fsType options dump pass : List Char}
    {rest : List (List Char)} (h : words (fun c => c = ' ' || c = '\t') (trim line) =
      spec :: file :: fsType :: options :: dump :: pass :: rest) :
    mountPathOf line = .ok q ↔ q = Path.ofText (String.ofList file) ∧ q.isAbsolute = true ∧
      parseSigned? signedBound32 dump ∈ [some 0, some 1] ∧
      ∃ n, parseSigned? signedBound32 pass = some n ∧ 0 ≤ n := by
  unfold mountPathOf
  simp only [h, mountField, bind, Except.bind, List.getElem?_cons_succ, List.getElem?_cons_zero,
    String.toList_ofList, Nat.reduceSub]
  constructor
  · intro hok
    split at hok
    · cases hok
    next habsolute =>
    split at hok
    · cases hok
    next hdump =>
    split at hok
    · cases hok
    next n hpass =>
    split at hok
    · cases hok
    next hsign =>
    cases hok
    exact ⟨rfl, by simpa using habsolute, Decidable.not_not.mp hdump, n, hpass,
      Int.not_lt.mp hsign⟩
  · rintro ⟨rfl, habsolute, hdump, n, hpass, hsign⟩
    rw [if_neg (by simpa using habsolute), if_neg (Decidable.not_not.mpr hdump), hpass]
    exact if_neg (Int.not_lt.mpr hsign)

/-- A line that is read has six fields. -/
theorem exists_fields_of_mountPathOf (h : mountPathOf line = .ok q) :
    ∃ (spec file fsType options dump pass : List Char) (rest : List (List Char)),
      words (fun c => c = ' ' || c = '\t') (trim line) =
        spec :: file :: fsType :: options :: dump :: pass :: rest := by
  unfold mountPathOf at h
  generalize words (fun c => c = ' ' || c = '\t') (trim line) = fields at h ⊢
  match fields with
  | [] | [_] => cases h
  | [_, file] | [_, file, _] | [_, file, _, _] =>
      by_cases habsolute : (Path.ofText (String.ofList file)).isAbsolute = true <;>
        simp [mountField, bind, Except.bind, habsolute] at h
  | [_, file, _, _, dump] =>
      by_cases habsolute : (Path.ofText (String.ofList file)).isAbsolute = true <;>
        by_cases hdump : parseSigned? signedBound32 dump ∈ [some 0, some 1] <;>
          simp [mountField, bind, Except.bind, habsolute, hdump] at h
  | spec :: file :: fsType :: options :: dump :: pass :: rest =>
      exact ⟨spec, file, fsType, options, dump, pass, rest, rfl⟩

/-- **The lines that are read are those that tell of a mount.** -/
theorem mountPathOf_eq_ok_iff : mountPathOf line = .ok q ↔ TellsMount line q := by
  constructor
  · intro h
    obtain ⟨spec, file, fsType, options, dump, pass, rest, hfields⟩ :=
      exists_fields_of_mountPathOf h
    obtain ⟨hq, habsolute, hdump, n, hpass, hsign⟩ :=
      (mountPathOf_eq_ok_iff_of_fields hfields).mp h
    exact ⟨spec, file, fsType, options, dump, pass, rest, n, hfields, hq, habsolute, hdump, hpass,
      hsign⟩
  · rintro ⟨spec, file, fsType, options, dump, pass, rest, n, hfields, hq, habsolute, hdump, hpass,
      hsign⟩
    exact (mountPathOf_eq_ok_iff_of_fields hfields).mpr ⟨hq, habsolute, hdump, n, hpass, hsign⟩

/-- A line of octets tells of a mount if it is text that does. -/
def LineTells (octets : Octets) (q : Path) : Prop :=
  ∃ cs, decode? octets = some cs ∧ TellsMount cs q

/-- The mount on a line. -/
def mountOfOctets? (octets : Octets) : Option Path :=
  (decode? octets).bind fun cs => (mountPathOf cs).toOption

theorem mountOfOctets?_eq_some_iff {octets : Octets} :
    mountOfOctets? octets = some q ↔ LineTells octets q := by
  unfold mountOfOctets? LineTells
  simp only [Option.bind_eq_some_iff, ← mountPathOf_eq_ok_iff]
  refine exists_congr fun cs => and_congr_right fun _ => ?_
  cases mountPathOf cs <;> simp [Except.toOption]

/-- Numbering a line does not change what it tells. -/
theorem toOption_mountOfLine (octets : Octets) (number : Nat) :
    ((mountOfLine number octets).mapError MountTableError.failure).toOption =
      mountOfOctets? octets := by
  unfold mountOfLine mountOfOctets?
  cases decode? octets with
  | none => rfl
  | some cs => cases h : mountPathOf cs <;> simp [h, Except.mapError, Except.toOption]

/-- **The reader of lines goes through the table line by line.** -/
theorem MountTable.readLines_isLinewise : MountTable.readLines.IsLinewise mountOfOctets? where
  unopened := fun _ => ⟨_, rfl⟩
  unread := fun _ => ⟨_, rfl⟩
  lines := fun content => by
    refine ⟨_, rfl, ?_⟩
    generalize 0 = number
    induction mountLines content.all generalizing number with
    | nil => exact .nil
    | cons octets rest ih =>
        rw [List.zipIdx_cons, List.map_cons]
        exact .cons (toOption_mountOfLine octets number) (ih (number + 1))

end PartitionUnits
