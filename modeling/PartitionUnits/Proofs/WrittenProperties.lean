import Mathlib.Data.List.Forall2
import Mathlib.Data.List.ReduceOption
import PartitionUnits.Proofs.LastTold
import PartitionUnits.Proofs.Text.Lines
import PartitionUnits.Proofs.Text.Words
import PartitionUnits.Signature

/-!
# Properties as they are written

Keys and values are told line by line, with backslashes in a value wherever the one who writes it
sees fit, and with lines in between that are about something else.  All ways to write them are read
as the same keys and values.

## Main Definitions

* `Properties.Escapes` — a value with backslashes, and the value it stands for
* `Properties.IsWritable` — a pair that a line can tell
* `Properties.IsWrittenAs` — pairs as a whole text
* `Properties.parse_eq_of_isWrittenAs` — such a text is read as its pairs, in order
* `Properties.written_read_back` — pairs can be written, and for each key the last one is read

## Design Notes

A value is cut from its key at the first equals sign, so a value may have more of them and a key
none.  A line feed ends the line even behind a backslash, and a carriage return in front of it is
lost: neither can be told at the end of a value.  A backslash leaves the last character of a value
the last one, which is all that has to be known about it there (`Escapes.getLast?_eq`).
-/

namespace PartitionUnits

open Text

namespace Properties

variable {written value line : List Char} {said : Option (String × String)}
  {pairs : List (String × String)} {output : List Char}

/-! ## Values -/

/-- **A value as it is written**: any character may have a backslash in front of it, and a backslash
has to. -/
inductive Escapes : List Char → List Char → Prop where
  | nil : Escapes [] []
  | plain {c : Char} {written value : List Char} (hc : c ≠ '\\') (h : Escapes written value) :
      Escapes (c :: written) (c :: value)
  | escaped {c : Char} {written value : List Char} (h : Escapes written value) :
      Escapes ('\\' :: c :: written) (c :: value)

/-- A character other than a backslash stands for itself. -/
theorem unescape_cons {c : Char} (hc : c ≠ '\\') (rest : List Char) :
    unescape (c :: rest) = c :: unescape rest := by
  rw [unescape]
  · exact fun hbackslash _ => hc hbackslash
  · exact fun _ _ hbackslash _ => hc hbackslash

namespace Escapes

/-- **The backslashes in a value are undone.** -/
theorem unescape_eq (h : Escapes written value) : unescape written = value := by
  induction h with
  | nil => rfl
  | plain hc _ ih => rw [unescape_cons hc, ih]
  | escaped _ ih => rw [unescape, ih]

/-- Backslashes come in front of characters, so the last character stays the last one. -/
theorem getLast?_eq (h : Escapes written value) : written.getLast? = value.getLast? := by
  induction h with
  | nil => rfl
  | plain _ _ ih => rw [List.getLast?_cons, ih, ← List.getLast?_cons]
  | escaped _ ih => rw [List.getLast?_cons_cons, List.getLast?_cons, ih, ← List.getLast?_cons]

/-- Nothing but backslashes is added to a value. -/
theorem mem_or_eq (h : Escapes written value) {c : Char} (hc : c ∈ written) :
    c ∈ value ∨ c = '\\' := by
  induction h with
  | nil => cases hc
  | plain _ _ ih =>
      rcases List.mem_cons.mp hc with rfl | hc
      · exact Or.inl List.mem_cons_self
      · exact (ih hc).imp_left (List.mem_cons_of_mem _)
  | escaped _ ih =>
      rcases List.mem_cons.mp hc with rfl | hc
      · exact Or.inr rfl
      rcases List.mem_cons.mp hc with rfl | hc
      · exact Or.inl List.mem_cons_self
      · exact (ih hc).imp_left (List.mem_cons_of_mem _)

end Escapes

/-- Any value can be written with backslashes in front of all its characters. -/
theorem escapes_all (value : List Char) : Escapes (value.flatMap fun c => ['\\', c]) value := by
  induction value with
  | nil => exact .nil
  | cons c value ih => exact .escaped ih

/-! ## Lines -/

/-- **A pair that a line can tell.**  Blanks around a key, and what ends a line, would be lost. -/
structure IsWritable (pair : String × String) : Prop where
  equals_notMem : '=' ∉ pair.1.toList
  feed_notMem_key : '\n' ∉ pair.1.toList
  trimmed : IsTrimmed pair.1.toList
  feed_notMem_value : '\n' ∉ pair.2.toList
  getLast?_ne_return : pair.2.toList.getLast? ≠ some '\r'

instance (pair : String × String) : Decidable (IsWritable pair) :=
  decidable_of_iff ('=' ∉ pair.1.toList ∧ '\n' ∉ pair.1.toList ∧ IsTrimmed pair.1.toList ∧
      '\n' ∉ pair.2.toList ∧ pair.2.toList.getLast? ≠ some '\r')
    ⟨fun ⟨h₁, h₂, h₃, h₄, h₅⟩ => ⟨h₁, h₂, h₃, h₄, h₅⟩,
      fun ⟨h₁, h₂, h₃, h₄, h₅⟩ => ⟨h₁, h₂, h₃, h₄, h₅⟩⟩

/-- **A line and what it tells**: a pair, or nothing if it has no equals sign. -/
inductive WritesLine : List Char → Option (String × String) → Prop where
  | silent {line : List Char} (hequals : '=' ∉ line) (hfeed : '\n' ∉ line) : WritesLine line none
  | pair {key value : String} {written : List Char} (hpair : IsWritable (key, value))
      (h : Escapes written value.toList) :
      WritesLine (key.toList ++ '=' :: written) (some (key, value))

theorem ofLine?_of_equals_notMem (h : '=' ∉ line) : ofLine? line = none := by
  rw [ofLine?, cut?_eq_none h, Option.map_none]

theorem dropReturn_subset (line : List Char) : dropReturn line ⊆ line := by
  unfold dropReturn
  split
  · exact List.dropLast_subset line
  · exact List.Subset.refl line

namespace WritesLine

/-- **A line is read as what it tells.** -/
theorem ofLine?_eq (h : WritesLine line said) : ofLine? line = said := by
  cases h with
  | silent hequals _ => exact ofLine?_of_equals_notMem hequals
  | @pair key value written hpair h =>
      have htrim : trim key.toList = key.toList :=
        IsPadded.trim_eq ⟨[], [], by simp [Blanks], by simp [Blanks], by simp⟩ hpair.trimmed
      rw [ofLine?, cut?_append hpair.equals_notMem, Option.map_some]
      simp only [htrim, h.unescape_eq, String.ofList_toList]

theorem feed_notMem (h : WritesLine line said) : '\n' ∉ line := by
  cases h with
  | silent _ hfeed => exact hfeed
  | pair hpair h =>
      intro hmem
      rcases List.mem_append.mp hmem with hmem | hmem
      · exact hpair.feed_notMem_key hmem
      rcases List.mem_cons.mp hmem with hmem | hmem
      · exact absurd hmem (by decide)
      rcases h.mem_or_eq hmem with hmem | hmem
      · exact hpair.feed_notMem_value hmem
      · exact absurd hmem (by decide)

/-- **A carriage return at the end of a line tells nothing**: it is not the end of a value. -/
theorem ofLine?_dropReturn (h : WritesLine line said) :
    ofLine? (dropReturn line) = ofLine? line := by
  cases h with
  | silent hequals _ =>
      rw [ofLine?_of_equals_notMem hequals,
        ofLine?_of_equals_notMem fun hmem => hequals (dropReturn_subset line hmem)]
  | @pair key value written hpair h =>
      -- the line ends as its value does, or in the equals sign
      have hlast : (key.toList ++ '=' :: written).getLast? ≠ some '\r' := by
        rw [List.getLast?_append_cons, List.getLast?_cons, h.getLast?_eq]
        cases hvalue : value.toList.getLast? with
        | none => decide
        | some c => exact hvalue ▸ hpair.getLast?_ne_return
      rw [dropReturn, if_neg hlast]

end WritesLine

/-! ## Texts -/

/-- **Pairs as a text**: one line for each of them, in order, with others in between, and with a
line feed after each line but the last.  That the text ends in a line feed is one more line, which
is empty. -/
def IsWrittenAs (pairs : List (String × String)) (output : List Char) : Prop :=
  ∃ ls row, List.Forall₂ WritesLine ls row ∧ row.reduceOption = pairs ∧
    output = ['\n'].intercalate ls

/-- Pairs can be written if each of them can. -/
theorem exists_isWrittenAs (hpairs : ∀ pair ∈ pairs, IsWritable pair) :
    ∃ output, IsWrittenAs pairs output := by
  -- with a backslash wherever there can be one
  let line (pair : String × String) : List Char :=
    pair.1.toList ++ '=' :: pair.2.toList.flatMap fun c => ['\\', c]
  refine ⟨_, pairs.map line, pairs.map some, ?_, by simp [List.reduceOption], rfl⟩
  rw [List.forall₂_map_left_iff, List.forall₂_map_right_iff, List.forall₂_same]
  exact fun pair hpair => .pair (hpairs pair hpair) (escapes_all pair.2.toList)

/-- **A text is read as the pairs that it tells**, in order. -/
theorem parse_eq_of_isWrittenAs (h : IsWrittenAs pairs output) : parse output = ⟨pairs⟩ := by
  obtain ⟨ls, row, hlines, rfl, rfl⟩ := h
  have hline : ∀ line ∈ ls, '\n' ∉ line ∧ ofLine? (dropReturn line) = ofLine? line :=
    ((List.forall₂_and_left ls row).mp (hlines.imp fun _ _ h =>
      ⟨⟨h.feed_notMem, h.ofLine?_dropReturn⟩, h⟩)).1
  have hrow : ls.map ofLine? = row := by
    have hread := hlines.imp fun _ _ h => h.ofLine?_eq
    rwa [← List.forall₂_map_left_iff (R := Eq), List.forall₂_eq_eq_eq] at hread
  rw [parse, filterMap_lines_intercalate (by decide) (fun line h => (hline line h).1)
    (fun line h => (hline line h).2), ← hrow, List.reduceOption, List.filterMap_map,
    Function.id_comp]

/-! ## Keys -/

/-- **The value for a key is that of the last pair with it.** -/
theorem get?_mk_eq_some_iff {key value : String} : (Properties.mk pairs).get? key = some value ↔
    LastTells (fun pair value => pair = (key, value)) pairs value := by
  have hlast : (pairs.filterMap some).reverse.lookup key = some value ↔
      LastTells (fun pair value => some pair = some (key, value)) pairs value :=
    lookup_reverse_filterMap_iff
  simp only [List.filterMap_some, Option.some.injEq] at hlast
  exact hlast

/-- There is no value for a key just if there is no pair with it. -/
theorem get?_mk_eq_none_iff {key : String} :
    (Properties.mk pairs).get? key = none ↔ ∀ value, (key, value) ∉ pairs := by
  rw [get?, List.lookup_eq_none_iff]
  constructor
  · intro h value hmem
    simpa using h (key, value) (List.mem_reverse.mpr hmem)
  · rintro h ⟨key', value⟩ hmem
    have hne : key ≠ key' := by
      rintro rfl
      exact h value (List.mem_reverse.mp hmem)
    simpa using hne

/-- **Pairs can be written, and however they are written, what is read for a key is the value of the
last pair with it**, and nothing if there is none. -/
theorem written_read_back (hpairs : ∀ pair ∈ pairs, IsWritable pair) :
    (∃ output, IsWrittenAs pairs output) ∧
      ∀ output, IsWrittenAs pairs output → ∀ key,
        (∀ value, (parse output).get? key = some value ↔
          LastTells (fun pair value => pair = (key, value)) pairs value) ∧
        ((parse output).get? key = none ↔ ∀ value, (key, value) ∉ pairs) := by
  refine ⟨exists_isWrittenAs hpairs, fun output houtput key => ?_⟩
  rw [parse_eq_of_isWrittenAs houtput]
  exact ⟨fun value => get?_mk_eq_some_iff, get?_mk_eq_none_iff⟩

/-- Two values for one key, the last one with an equals sign, a backslash and a carriage return in
it, and a value without a key. -/
def oddPairs : List (String × String) := [("LABEL", "a b"), ("", ""), ("LABEL", "=\\\r ")]

/-- A text that tells these, with lines that do not count. -/
def oddText : String := "blkid\r\nLABEL=a\\ b\n=\nLABEL=\\=\\\\\r \n"

theorem oddPairs_read_back : (∀ pair ∈ oddPairs, IsWritable pair) ∧
    IsWrittenAs oddPairs oddText.toList ∧
    (parse oddText.toList).get? "LABEL" = some "=\\\r " ∧
    (parse oddText.toList).get? "TYPE" = none := by
  have hpairs : ∀ pair ∈ oddPairs, IsWritable pair := by decide +kernel
  have hfirst : Escapes "a\\ b".toList "a b".toList :=
    .plain (by decide) <| .escaped <| .plain (by decide) .nil
  have hlast : Escapes "\\=\\\\\r ".toList "=\\\r ".toList :=
    .escaped <| .escaped <| .plain (by decide) <| .plain (by decide) .nil
  have htext : IsWrittenAs oddPairs oddText.toList :=
    ⟨["blkid\r".toList, _, _, _, []], none :: (oddPairs.map some ++ [none]),
      .cons (.silent (by decide) (by decide)) <| .cons (.pair (hpairs _ (by decide)) hfirst) <|
        .cons (.pair (hpairs _ (by decide)) .nil) <| .cons (.pair (hpairs _ (by decide)) hlast) <|
        .cons (.silent (by decide) (by decide)) .nil, by decide, by decide⟩
  obtain ⟨hsome, -⟩ := (written_read_back hpairs).2 oddText.toList htext "LABEL"
  obtain ⟨-, hnone⟩ := (written_read_back hpairs).2 oddText.toList htext "TYPE"
  refine ⟨hpairs, htext, (hsome _).mpr ⟨oddPairs.take 2, _, [], rfl, rfl, by simp⟩, hnone.mpr ?_⟩
  intro value hmem
  simp [oddPairs] at hmem

end Properties

end PartitionUnits
