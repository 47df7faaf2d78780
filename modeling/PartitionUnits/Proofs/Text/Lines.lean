import Mathlib.Data.List.Basic
import PartitionUnits.Text.Blank
import PartitionUnits.Text.Lines

/-!
# Lines have no line feeds

What a text is cut into lacks the character that it was cut at, and cutting off more does not bring
it back.

## Main Definitions

* `Text.notMem_of_mem_splitOn` — no piece has the separator
* `Text.lineFeed_notMem_lines` — no line has a line feed
* `Text.filterMap_lines` — lines are read like the pieces between line feeds
* `Text.filterMap_lines_intercalate` — and so lines that were put together are read one by one
-/

namespace PartitionUnits.Text

/-- **No piece of what was cut has the separator.** -/
theorem notMem_of_mem_splitOn {α : Type} [BEq α] [LawfulBEq α] {separator : α} {xs piece : List α}
    (h : piece ∈ xs.splitOn separator) : separator ∉ piece := by
  induction xs generalizing piece with
  | nil =>
      rw [List.mem_singleton.mp h]
      exact List.not_mem_nil
  | cons x rest ih =>
      rw [List.splitOn_cons_eq_if_modifyHead] at h
      split at h
      · rcases List.mem_cons.mp h with rfl | h
        · exact List.not_mem_nil
        · exact ih h
      · next hx =>
          obtain ⟨first, pieces, hpieces⟩ :=
            List.exists_cons_of_ne_nil (List.splitOn_ne_nil separator rest)
          rw [hpieces] at h ih
          rcases List.mem_cons.mp h with rfl | h
          · have hne : separator ≠ x := fun heq => hx (by simp [heq])
            exact List.not_mem_cons_of_ne_of_not_mem hne (ih List.mem_cons_self)
          · exact ih (List.mem_cons_of_mem _ h)

/-- **No line has a line feed.** -/
theorem lineFeed_notMem_lines {cs line : List Char} (h : line ∈ lines cs) : '\n' ∉ line := by
  unfold lines at h
  simp only at h
  rcases List.mem_append.mp h with h | h
  · obtain ⟨piece, hpiece, rfl⟩ := List.mem_map.mp h
    have hfree := notMem_of_mem_splitOn (List.dropLast_subset _ hpiece)
    unfold dropReturn
    split
    · exact fun hmem => hfree (List.dropLast_subset _ hmem)
    · exact hfree
  · split at h
    · cases h
    · cases h
    · next last _ hlast =>
        rw [List.mem_singleton.mp h]
        exact notMem_of_mem_splitOn (List.mem_of_getLast? hlast)

/-- **What is read of lines is read of the pieces between line feeds**, if an empty line and the
carriage return at the end of one say nothing. -/
theorem filterMap_lines {α : Type} {read : List Char → Option α} {cs : List Char}
    (hnil : read [] = none)
    (hreturn : ∀ line ∈ cs.splitOn '\n', read (dropReturn line) = read line) :
    (lines cs).filterMap read = (cs.splitOn '\n').filterMap read := by
  obtain ⟨pieces, last, hpieces⟩ : ∃ pieces last, cs.splitOn '\n' = pieces ++ [last] :=
    ⟨_, _, (List.dropLast_concat_getLast (List.splitOn_ne_nil '\n' cs)).symm⟩
  rw [hpieces] at hreturn
  have hread : pieces.filterMap (read ∘ dropReturn) = pieces.filterMap read :=
    List.filterMap_congr fun line hline => hreturn line (List.mem_append_left _ hline)
  unfold lines
  simp only [hpieces, List.dropLast_concat, List.getLast?_concat, List.filterMap_append,
    List.filterMap_map, hread]
  cases last with
  | nil => simp [hnil]
  | cons c cs => rfl

/-- **Lines with line feeds between them are read one by one**. -/
theorem filterMap_lines_intercalate {α : Type} {read : List Char → Option α}
    {ls : List (List Char)} (hnil : read [] = none) (hfeed : ∀ line ∈ ls, '\n' ∉ line)
    (hreturn : ∀ line ∈ ls, read (dropReturn line) = read line) :
    (lines (['\n'].intercalate ls)).filterMap read = ls.filterMap read := by
  cases ls with
  | nil => rfl
  | cons line rest =>
      have hsplit : (['\n'].intercalate (line :: rest)).splitOn '\n' = line :: rest :=
        List.splitOn_intercalate '\n' hfeed (List.cons_ne_nil line rest)
      rw [filterMap_lines hnil (by rwa [hsplit]), hsplit]

end PartitionUnits.Text
