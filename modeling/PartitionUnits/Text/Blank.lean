/-!
# White space and words

Texts are read as lists of characters.  This module fixes which characters are blank and how a
text is trimmed, cut into words and cut at the first occurrence of a character.

## Main Definitions

* `isBlank` — the Unicode property `White_Space`
* `trim` — a text without the blanks around it
* `words` — the maximal runs of characters that are not separators
* `cut?` — the text before and after the first occurrence of a character

## Design Notes

`words` is a library split followed by a filter, so that a word is never empty by construction and
the number of separators between two words does not matter.
-/

namespace PartitionUnits.Text

/-- The characters with the Unicode property `White_Space`. -/
def isBlank (c : Char) : Bool :=
  let n := c.toNat
  (0x09 ≤ n && n ≤ 0x0D) || n == 0x20 || n == 0x85 || n == 0xA0 || n == 0x1680 ||
    (0x2000 ≤ n && n ≤ 0x200A) || n == 0x2028 || n == 0x2029 || n == 0x202F || n == 0x205F ||
    n == 0x3000

/-- The text without the blanks at its start. -/
def trimStart (cs : List Char) : List Char := cs.dropWhile isBlank

/-- The text without the blanks at its end. -/
def trimEnd (cs : List Char) : List Char := (cs.reverse.dropWhile isBlank).reverse

/-- The text without the blanks around it. -/
def trim (cs : List Char) : List Char := trimEnd (trimStart cs)

/-- The maximal runs of characters that are not separators, in order. -/
def words (isSeparator : Char → Bool) (cs : List Char) : List (List Char) :=
  (cs.splitOnP isSeparator).filter (· ≠ [])

/-- The text before and after the first occurrence of `c`; `none` if there is none. -/
def cut? (c : Char) : List Char → Option (List Char × List Char)
  | [] => none
  | d :: ds => if d = c then some ([], ds) else (cut? c ds).map fun (a, b) => (d :: a, b)

@[simp] theorem cut?_nil (c : Char) : cut? c [] = none := rfl

/-- A text that is cut is the two parts with the character between them. -/
theorem eq_append_of_cut? {c : Char} {cs a b : List Char} (h : cut? c cs = some (a, b)) :
    cs = a ++ c :: b ∧ c ∉ a := by
  induction cs generalizing a with
  | nil => simp at h
  | cons d ds ih =>
    by_cases hd : d = c
    · simp only [cut?, hd, if_true, Option.some.injEq, Prod.mk.injEq] at h
      obtain ⟨rfl, rfl⟩ := h
      simp [hd]
    · simp only [cut?, if_neg hd, Option.map_eq_some_iff, Prod.mk.injEq, Prod.exists] at h
      obtain ⟨a', b', h', rfl, rfl⟩ := h
      obtain ⟨rfl, hn⟩ := ih h'
      exact ⟨rfl, by simp [hn, Ne.symm hd]⟩

/-- The two parts around a character that the first part lacks are found again. -/
theorem cut?_append {c : Char} {a b : List Char} (h : c ∉ a) :
    cut? c (a ++ c :: b) = some (a, b) := by
  induction a with
  | nil => simp [cut?]
  | cons d ds ih =>
    simp only [List.mem_cons, not_or] at h
    simp [cut?, Ne.symm h.1, ih h.2]

/-- A text that lacks the character is not cut. -/
theorem cut?_eq_none {c : Char} {cs : List Char} (h : c ∉ cs) : cut? c cs = none := by
  induction cs with
  | nil => rfl
  | cons d ds ih =>
    rw [List.mem_cons, not_or] at h
    rw [cut?, if_neg (Ne.symm h.1), ih h.2, Option.map_none]

end PartitionUnits.Text
