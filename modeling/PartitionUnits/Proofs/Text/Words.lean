import Mathlib.Data.List.DropRight
import Mathlib.Data.List.Forall2
import Mathlib.Data.List.TakeWhile
import PartitionUnits.Text.Blank

/-!
# Words between blanks

Words that stand in a row are found again, however many blanks there are around and between them.

## Main Definitions

* `Text.words_append_cons` — a text is cut at a separator
* `Text.words_trim`, `Text.head?_trim`, `Text.trim_trim` — what is left of a text that is trimmed
* `Text.IsPadded` — a text with blanks around it
* `Text.IsPadded.trim_eq` — the blanks are what is taken off
* `Text.Spaced` — words in a row, with blanks around and between them
* `Text.Spaced.read_eq` — a reader that takes quotes apart finds them again
* `Text.Spaced.words_eq` — words without blanks are those that the row is cut into

## Design Notes

A row does not say of its words that they have no blanks, as a reader with quotes has words that do.
-/

namespace PartitionUnits.Text

variable {isSeparator : Char → Bool} {c : Char} {cs gap word : List Char} {row : List (List Char)}

/-! ## Separators -/

theorem words_append_cons (h : isSeparator c = true) (before after : List Char) :
    words isSeparator (before ++ c :: after) =
      words isSeparator before ++ words isSeparator after := by
  rw [words, List.splitOnP_append_cons _ _ h, List.filter_append]
  rfl

/-- A text without separators is one word, if it says something. -/
theorem words_unbroken (hne : cs ≠ []) (h : ∀ c ∈ cs, isSeparator c = false) :
    words isSeparator cs = [cs] := by
  rw [words, List.splitOnP_eq_singleton h]
  simp [hne]

/-- Separators in front of a text are not part of its words. -/
theorem words_separators_append (h : ∀ c ∈ gap, isSeparator c = true) (cs : List Char) :
    words isSeparator (gap ++ cs) = words isSeparator cs := by
  induction gap with
  | nil => rfl
  | cons c gap ih =>
      obtain ⟨hc, hgap⟩ := List.forall_mem_cons.mp h
      rw [List.cons_append, ← List.nil_append (c :: _), words_append_cons hc, ih hgap]
      rfl

/-- Nor are separators behind it. -/
theorem words_append_separators (h : ∀ c ∈ gap, isSeparator c = true) (cs : List Char) :
    words isSeparator (cs ++ gap) = words isSeparator cs := by
  cases gap with
  | nil => rw [List.append_nil]
  | cons c gap =>
      obtain ⟨hc, hgap⟩ := List.forall_mem_cons.mp h
      have hnil : words isSeparator gap = [] := by
        rw [← List.append_nil gap, words_separators_append hgap]
        rfl
      rw [words_append_cons hc, hnil, List.append_nil]

/-! ## Trimming -/

/-- Nothing but blanks. -/
def Blanks (gap : List Char) : Prop := ∀ c ∈ gap, isBlank c = true

instance (gap : List Char) : Decidable (Blanks gap) := List.decidableBAll (isBlank · = true) gap

theorem exists_trimStart (cs : List Char) : ∃ gap, Blanks gap ∧ cs = gap ++ trimStart cs :=
  ⟨cs.takeWhile isBlank, fun _ hc => List.mem_takeWhile_imp hc,
    List.takeWhile_append_dropWhile.symm⟩

theorem exists_trimEnd (cs : List Char) : ∃ gap, Blanks gap ∧ cs = trimEnd cs ++ gap := by
  obtain ⟨gap, hgap, hcs⟩ := exists_trimStart cs.reverse
  refine ⟨gap.reverse, fun c hc => hgap c (List.mem_reverse.mp hc), ?_⟩
  rw [trimEnd, ← List.reverse_append, ← trimStart, ← hcs, List.reverse_reverse]

/-- **Trimming a text leaves its words.** -/
theorem words_trim (cs : List Char) : words isBlank (trim cs) = words isBlank cs := by
  obtain ⟨before, hbefore, hcs⟩ := exists_trimStart cs
  obtain ⟨after, hafter, htrim⟩ := exists_trimEnd (trimStart cs)
  calc words isBlank (trim cs)
      = words isBlank (trimEnd (trimStart cs) ++ after) := (words_append_separators hafter _).symm
    _ = words isBlank (before ++ trimStart cs) := by
        rw [← htrim, words_separators_append hbefore]
    _ = words isBlank cs := by rw [← hcs]

/-- The first character of a text that is not blank. -/
def firstVisible? (cs : List Char) : Option Char := cs.find? (!isBlank ·)

theorem firstVisible?_of_blanks (h : Blanks gap) : firstVisible? gap = none := by
  rw [firstVisible?, List.find?_eq_none]
  exact fun c hc => by simp [h c hc]

theorem firstVisible?_append (cs cs' : List Char) :
    firstVisible? (cs ++ cs') = (firstVisible? cs).or (firstVisible? cs') :=
  List.find?_append

theorem firstVisible?_trim (cs : List Char) : firstVisible? (trim cs) = firstVisible? cs := by
  obtain ⟨before, hbefore, hcs⟩ := exists_trimStart cs
  obtain ⟨after, hafter, htrim⟩ := exists_trimEnd (trimStart cs)
  calc firstVisible? (trim cs)
      = firstVisible? (trimEnd (trimStart cs) ++ after) := by
        rw [firstVisible?_append, firstVisible?_of_blanks hafter, Option.or_none, trim]
    _ = firstVisible? (before ++ trimStart cs) := by
        rw [← htrim, firstVisible?_append, firstVisible?_of_blanks hbefore, Option.none_or]
    _ = firstVisible? cs := by rw [← hcs]

/-- **A trimmed text starts with the first character that is not blank.** -/
theorem head?_trim (cs : List Char) : (trim cs).head? = firstVisible? cs := by
  rw [← firstVisible?_trim]
  cases htrimmed : trim cs with
  | nil => rfl
  | cons c rest =>
      obtain ⟨after, -, htrim⟩ := exists_trimEnd (trimStart cs)
      have hstart : cs.dropWhile isBlank = c :: (rest ++ after) := by
        rw [← List.cons_append, ← htrimmed]
        exact htrim
      have hvisible := List.head?_dropWhile_not isBlank cs
      rw [hstart, List.head?_cons] at hvisible
      rw [firstVisible?, List.find?_cons_of_pos (by simp [hvisible])]
      rfl

/-- **A trimmed text is not trimmed any further.** -/
theorem trim_trim (cs : List Char) : trim (trim cs) = trim cs := by
  have hstart : trimStart (trim cs) = trim cs := by
    cases htrimmed : trim cs with
    | nil => rfl
    | cons c rest =>
        have hvisible : firstVisible? cs = some c := by rw [← head?_trim, htrimmed, List.head?_cons]
        have hc : isBlank c = false := by simpa using List.find?_some hvisible
        exact List.dropWhile_cons_of_neg (by simp [hc])
  rw [trim, hstart, trim, trimEnd, trimEnd, List.reverse_reverse, List.dropWhile_idempotent]

/-- **A text with blanks around it.** -/
def IsPadded (text cs : List Char) : Prop :=
  ∃ before after, Blanks before ∧ Blanks after ∧ cs = before ++ text ++ after

theorem isPadded_trim (cs : List Char) : IsPadded (trim cs) cs := by
  obtain ⟨before, hbefore, hcs⟩ := exists_trimStart cs
  obtain ⟨after, hafter, htrim⟩ := exists_trimEnd (trimStart cs)
  exact ⟨before, after, hbefore, hafter, by rw [List.append_assoc, trim, ← htrim, ← hcs]⟩

/-- A text with no blank at its start and none at its end. -/
structure IsTrimmed (cs : List Char) : Prop where
  first : ∀ c ∈ cs.head?, isBlank c = false
  last : ∀ c ∈ cs.getLast?, isBlank c = false

instance (cs : List Char) : Decidable (IsTrimmed cs) :=
  have hends (edge : Option Char) :
      edge.all (!isBlank ·) = true ↔ ∀ c ∈ edge, isBlank c = false := by
    simp [Option.all_eq_true]
  decidable_of_iff (cs.head?.all (!isBlank ·) = true ∧ cs.getLast?.all (!isBlank ·) = true)
    ⟨fun ⟨h, h'⟩ => ⟨(hends _).mp h, (hends _).mp h'⟩,
      fun h => ⟨(hends _).mpr h.first, (hends _).mpr h.last⟩⟩

theorem IsTrimmed.of_visible (h : ∀ c ∈ cs, isBlank c = false) : IsTrimmed cs where
  first := fun c hc => h c (List.mem_of_head? hc)
  last := fun c hc => h c (List.mem_of_getLast? hc)

theorem trimStart_append (hgap : Blanks gap) (hcs : ∀ c ∈ cs.head?, isBlank c = false) :
    trimStart (gap ++ cs) = cs := by
  rw [trimStart, List.dropWhile_append_of_pos hgap]
  cases cs with
  | nil => rfl
  | cons c cs => exact List.dropWhile_cons_of_neg (by simp [hcs c rfl])

theorem trimEnd_append (hgap : Blanks gap) (hcs : ∀ c ∈ cs.getLast?, isBlank c = false) :
    trimEnd (cs ++ gap) = cs := by
  have hreverse : trimStart (gap.reverse ++ cs.reverse) = cs.reverse :=
    trimStart_append (fun c hc => hgap c (List.mem_reverse.mp hc)) (by rwa [List.head?_reverse])
  rw [trimEnd, List.reverse_append, ← trimStart, hreverse, List.reverse_reverse]

/-- **The blanks around a text are what is taken off**, and nothing else is. -/
theorem IsPadded.trim_eq {text : List Char} (h : IsPadded text cs) (htext : IsTrimmed text) :
    trim cs = text := by
  obtain ⟨before, after, hbefore, hafter, rfl⟩ := h
  cases text with
  | nil =>
      -- There is nothing to tell the blanks in front of the text from those behind it.
      have hall : Blanks (before ++ after) := List.forall_mem_append.mpr ⟨hbefore, hafter⟩
      have hstart : trimStart (before ++ after ++ []) = [] := trimStart_append hall (by simp)
      rw [List.append_nil] at hstart
      rw [trim, List.append_nil, hstart]
      rfl
  | cons c text =>
      have hstart : trimStart (before ++ (c :: text ++ after)) = c :: text ++ after :=
        trimStart_append hbefore htext.first
      rw [trim, List.append_assoc, hstart, trimEnd_append hafter htext.last]

/-! ## Words in a row -/

/-- **Words in a row**, with blanks around and between them. -/
inductive Spaced : List (List Char) → List Char → Prop where
  | nil : Spaced [] []
  | blank {c : Char} {row : List (List Char)} {rest : List Char} (hc : isBlank c = true)
      (h : Spaced row rest) : Spaced row (c :: rest)
  | last (word : List Char) : Spaced [word] word
  | word (word : List Char) {c : Char} {row : List (List Char)} {rest : List Char}
      (hc : isBlank c = true) (h : Spaced row rest) : Spaced (word :: row) (word ++ c :: rest)

/-- A word that says something and has no blanks. -/
structure IsUnbroken (word : List Char) : Prop where
  ne_nil : word ≠ []
  visible : ∀ c ∈ word, isBlank c = false

instance (word : List Char) : Decidable (IsUnbroken word) :=
  have : Decidable (∀ c ∈ word, isBlank c = false) := List.decidableBAll (isBlank · = false) word
  decidable_of_iff (word ≠ [] ∧ ∀ c ∈ word, isBlank c = false)
    ⟨fun ⟨h, h'⟩ => ⟨h, h'⟩, fun ⟨h, h'⟩ => ⟨h, h'⟩⟩

theorem IsUnbroken.words_eq (h : IsUnbroken word) : words isBlank word = [word] :=
  words_unbroken h.ne_nil h.visible

/-- An unbroken word starts with something visible, whatever follows it. -/
theorem IsUnbroken.firstVisible?_append (h : IsUnbroken word) (rest : List Char) :
    firstVisible? (word ++ rest) = word.head? := by
  obtain ⟨c, word, rfl⟩ := List.exists_cons_of_ne_nil h.ne_nil
  exact List.find?_cons_of_pos (by simp [h.visible])

namespace Spaced

/-- Any words can stand in a row, with single blanks behind them. -/
theorem exists_of (row : List (List Char)) :
    ∃ cs, Spaced row cs ∧ ∀ c ∈ cs, c = ' ' ∨ ∃ word ∈ row, c ∈ word := by
  induction row with
  | nil => exact ⟨[], .nil, fun _ hc => absurd hc List.not_mem_nil⟩
  | cons word row ih =>
      obtain ⟨cs, hcs, hall⟩ := ih
      refine ⟨word ++ ' ' :: cs, .word word (by decide) hcs, fun c hc => ?_⟩
      rw [List.mem_append, List.mem_cons] at hc
      rcases hc with hword | rfl | hrest
      · exact Or.inr ⟨word, List.mem_cons_self, hword⟩
      · exact Or.inl rfl
      · exact (hall c hrest).imp_right fun ⟨other, hother, hmem⟩ =>
          ⟨other, List.mem_cons_of_mem word hother, hmem⟩

/-- So do words that were put together with single blanks between them. -/
theorem intercalate (ss : List String) :
    Spaced (ss.map String.toList) (" ".intercalate ss).toList := by
  induction ss with
  | nil => exact .nil
  | cons s rest ih =>
      cases rest with
      | nil => exact .last s.toList
      | cons s' others =>
          rw [String.intercalate_cons_cons, String.toList_append, String.toList_append,
            List.append_assoc]
          exact .word s.toList (by decide) ih

/-- **A reader finds the words of a row again** however they are written, if it goes on from a
word that has begun, ends it at a blank, and takes a word that is written for the one that has
begun. -/
theorem read_eq {read : Option (List Char) → List Char → List (List Char)}
    {writes : List Char → List Char → Prop} (hend : ∀ begun, read begun [] = begun.toList)
    (hblank : ∀ {c}, isBlank c = true → ∀ begun cs,
      read begun (c :: cs) = begun.toList ++ read none cs)
    (hword : ∀ {written word}, writes written word → ∀ rest,
      read none (written ++ rest) = read (some word) rest)
    {words : List (List Char)} (h : Spaced row cs) (hrow : List.Forall₂ writes row words) :
    read none cs = words := by
  induction h generalizing words with
  | nil =>
      cases hrow
      exact hend none
  | blank hc _ ih =>
      rw [hblank hc, ih hrow]
      rfl
  | last written =>
      cases hrow with
      | cons hfirst hnil =>
          cases hnil
          rw [← List.append_nil written, hword hfirst, hend]
          rfl
  | word written hc _ ih =>
      cases hrow with
      | cons hfirst hrest =>
          rw [hword hfirst, hblank hc, ih hrest]
          rfl

/-- **Words without blanks are found again.** -/
theorem words_eq (h : Spaced row cs) (hrow : ∀ word ∈ row, IsUnbroken word) :
    words isBlank cs = row := by
  induction h with
  | nil => rfl
  | @blank c _ rest hc _ ih =>
      rw [← List.nil_append (c :: rest), words_append_cons hc, ih hrow]
      rfl
  | last word => exact (hrow word List.mem_cons_self).words_eq
  | word word hc _ ih =>
      obtain ⟨hword, hrow⟩ := List.forall_mem_cons.mp hrow
      rw [words_append_cons hc, hword.words_eq, ih hrow]
      rfl

/-- What is first seen of a row is how its first word starts. -/
theorem firstVisible?_eq (h : Spaced row cs) (hrow : ∀ word ∈ row, IsUnbroken word) :
    firstVisible? cs = row.head?.bind List.head? := by
  induction h with
  | nil => rfl
  | blank hc _ ih => exact (List.find?_cons_of_neg (by simp [hc])).trans (ih hrow)
  | last word =>
      rw [← List.append_nil word, (hrow word List.mem_cons_self).firstVisible?_append]
      simp
  | word word _ _ _ => exact (hrow word List.mem_cons_self).firstVisible?_append _

end Spaced

end PartitionUnits.Text
