import PartitionUnits.KernelArguments
import PartitionUnits.Proofs.Text.Words

/-!
# Kernel arguments as they are written

Quotes can stand anywhere in a command line, so there are many ways to write the same arguments.
All of them are split into these arguments.

## Main Definitions

* `WritesPiece`, `WritesWord` — a word, piece by piece, with quotes or without
* `KernelArgument.AreWrittenAs` — arguments as a command line
* `WritesWord.argumentWords_eq` — a word that is read is added to the one that has begun
* `KernelArgument.split_written` — arguments can be written, and are split as they were meant

## Design Notes

The reader goes on from a word that has begun or from none, and a piece has the same effect from
both, apart from that it begins the word.  So what is shown by induction is the effect of pieces
with any word before them and any text behind them; that a quote is open is a state within one
piece.  -/

namespace PartitionUnits

open Text

/-! ## Words -/

section

variable {c quote : Char} {piece part written word run : List Char}

/-- **A piece of a word as it is written**, and what it adds to the word: a character by itself, or
a run of characters between quotes of a kind that is not among them. -/
inductive WritesPiece : List Char → List Char → Prop where
  | bare {c : Char} (hquote : isQuote c = false) (hblank : isBlank c = false) : WritesPiece [c] [c]
  | quoted {quote : Char} {run : List Char} (hquote : isQuote quote = true) (hrun : quote ∉ run) :
      WritesPiece (quote :: (run ++ [quote])) run

/-- **A word as it is written**: one piece or more. -/
inductive WritesWord : List Char → List Char → Prop where
  | last {piece part : List Char} (h : WritesPiece piece part) : WritesWord piece part
  | more {piece part written word : List Char} (h : WritesPiece piece part)
      (hrest : WritesWord written word) : WritesWord (piece ++ written) (part ++ word)

/-- A blank is no quote. -/
theorem isQuote_eq_false_of_isBlank (h : isBlank c = true) : isQuote c = false := by
  rw [Bool.eq_false_iff]
  intro hquote
  simp only [isQuote, Bool.or_eq_true, decide_eq_true_eq] at hquote
  rcases hquote with rfl | rfl <;> exact absurd h (by decide)

/-- A blank ends the word that has begun. -/
theorem argumentWords_blank (h : isBlank c = true) (begun : Option (List Char)) (cs : List Char) :
    argumentWords none begun (c :: cs) = begun.toList ++ argumentWords none none cs := by
  rw [argumentWords, if_neg (by simp [isQuote_eq_false_of_isBlank h]), if_pos h]

/-- A run is added to the word up to the closing quote. -/
theorem argumentWords_run (h : quote ∉ run) (word rest : List Char) :
    argumentWords (some quote) (some word) (run ++ quote :: rest) =
      argumentWords none (some (word ++ run)) rest := by
  induction run generalizing word with
  | nil => rw [List.nil_append, argumentWords, if_pos rfl, List.append_nil]
  | cons c run ih =>
      rw [List.mem_cons, not_or] at h
      rw [List.cons_append, argumentWords, if_neg (Ne.symm h.1), ih h.2, Option.getD_some,
        List.append_assoc, List.singleton_append]

/-- **A piece is added to the word that has begun**, or begins one. -/
theorem WritesPiece.argumentWords_eq (h : WritesPiece piece part) (begun : Option (List Char))
    (rest : List Char) : argumentWords none begun (piece ++ rest) =
      argumentWords none (some (begun.getD [] ++ part)) rest := by
  cases h with
  | bare hquote hblank =>
      rw [List.singleton_append, argumentWords, if_neg (by simp [hquote]),
        if_neg (by simp [hblank])]
  | quoted hquote hrun =>
      rw [List.cons_append, List.append_assoc, List.singleton_append, argumentWords, if_pos hquote,
        argumentWords_run hrun]

/-- **So is a word**, piece by piece. -/
theorem WritesWord.argumentWords_eq (h : WritesWord written word) (begun : Option (List Char))
    (rest : List Char) : argumentWords none begun (written ++ rest) =
      argumentWords none (some (begun.getD [] ++ word)) rest := by
  induction h generalizing begun with
  | last h => exact h.argumentWords_eq begun rest
  | more h _ ih =>
      rw [List.append_assoc, h.argumentWords_eq, ih, Option.getD_some, List.append_assoc]

/-- **Words in a row are split as they were meant.** -/
theorem argumentWords_of_spaced {row words : List (List Char)} {cs : List Char}
    (h : Spaced row cs) (hrow : List.Forall₂ WritesWord row words) :
    argumentWords none none cs = words := by
  have hend : ∀ begun : Option (List Char), argumentWords none begun [] = begun.toList := by
    intro begun
    cases begun <;> rfl
  exact h.read_eq hend argumentWords_blank (fun hword => hword.argumentWords_eq none) hrow

/-- A character can be written between quotes of the kind that it is not. -/
theorem exists_writesPiece (c : Char) : ∃ piece, WritesPiece piece [c] := by
  by_cases hc : c = '"'
  · have hrun : Char.ofNat 0x27 ∉ [c] := by
      rw [hc]
      decide
    exact ⟨_, .quoted (by decide) hrun⟩
  · have hrun : '"' ∉ [c] := by simpa [eq_comm] using hc
    exact ⟨_, .quoted (by decide) hrun⟩

/-- Any text can be written as a word. -/
theorem exists_writesWord (word : List Char) : ∃ written, WritesWord written word := by
  induction word with
  | nil =>
      have hrun : '"' ∉ ([] : List Char) := List.not_mem_nil
      exact ⟨_, .last (.quoted (by decide) hrun)⟩
  | cons c word ih =>
      obtain ⟨piece, hpiece⟩ := exists_writesPiece c
      obtain ⟨written, hwritten⟩ := ih
      exact ⟨_, .more hpiece hwritten⟩

end

/-! ## Arguments -/

namespace KernelArgument

/-- An argument as a word: the key, and behind an equals sign the value if there is one. -/
def word (a : KernelArgument) : List Char :=
  match a.value with
  | none => a.key.toList
  | some value => a.key.toList ++ '=' :: value.toList

/-- **An argument is read from its word**, if its key has no equals sign. -/
theorem ofWord_word {a : KernelArgument} (h : '=' ∉ a.key.toList) : ofWord a.word = a := by
  obtain ⟨key, value⟩ := a
  cases value with
  | none => simp only [word, ofWord, cut?_eq_none h, String.ofList_toList]
  | some value => simp only [word, ofWord, cut?_append h, String.ofList_toList]

/-- **Arguments as a command line**: their words as they are written, in a row. -/
def AreWrittenAs (arguments : List KernelArgument) (line : String) : Prop :=
  ∃ row, List.Forall₂ (fun written a => WritesWord written a.word) row arguments ∧
    Spaced row line.toList

/-- Any arguments can be written. -/
theorem exists_areWrittenAs (arguments : List KernelArgument) :
    ∃ line, AreWrittenAs arguments line := by
  have hrow : ∃ row, List.Forall₂ (fun written a => WritesWord written a.word) row arguments := by
    induction arguments with
    | nil => exact ⟨[], .nil⟩
    | cons a arguments ih =>
        obtain ⟨written, hwritten⟩ := exists_writesWord a.word
        obtain ⟨row, hrow⟩ := ih
        exact ⟨written :: row, .cons hwritten hrow⟩
  obtain ⟨row, hrow⟩ := hrow
  obtain ⟨cs, hcs, -⟩ := Spaced.exists_of row
  exact ⟨String.ofList cs, row, hrow, by rwa [String.toList_ofList]⟩

/-- **Arguments are split as they were meant**, and there is a way to write any of them. -/
theorem split_written {arguments : List KernelArgument}
    (hkeys : ∀ a ∈ arguments, '=' ∉ a.key.toList) :
    (∃ line, AreWrittenAs arguments line) ∧
      ∀ line, AreWrittenAs arguments line → split line = arguments := by
  refine ⟨exists_areWrittenAs arguments, ?_⟩
  rintro line ⟨row, hrow, hline⟩
  have hwords : List.Forall₂ WritesWord row (arguments.map word) :=
    List.forall₂_map_right_iff.mpr hrow
  have hread : ∀ a ∈ arguments, (ofWord ∘ word) a = id a := fun a ha => ofWord_word (hkeys a ha)
  rw [split, argumentWords_of_spaced hline hwords, List.map_map, List.map_congr_left hread,
    List.map_id]

/-- An argument with an equals sign, a quote and a blank in its value, and an empty one. -/
def oddArguments : List KernelArgument := [⟨"a", some "=\" "⟩, ⟨"", none⟩]

/-- A line for these: a bare piece, one between quotes and one between quotes of the other kind,
right behind each other, and then nothing between quotes. -/
def oddLine : String := " a\"==\"\x27\" \x27\t\"\" "

theorem oddArguments_split : (∀ a ∈ oddArguments, '=' ∉ a.key.toList) ∧
    AreWrittenAs oddArguments oddLine ∧ split oddLine = oddArguments := by
  have hkeys : ∀ a ∈ oddArguments, '=' ∉ a.key.toList := by decide
  have hequals : '"' ∉ ['=', '='] := by decide
  have hquote : Char.ofNat 0x27 ∉ ['"', ' '] := by decide
  have hnothing : '"' ∉ ([] : List Char) := by decide
  have hfirst : WritesWord "a\"==\"\x27\" \x27".toList (word ⟨"a", some "=\" "⟩) :=
    .more (.bare (by decide) (by decide)) <|
      .more (.quoted (by decide) hequals) <| .last (.quoted (by decide) hquote)
  have hsecond : WritesWord "\"\"".toList (word ⟨"", none⟩) :=
    .last (.quoted (by decide) hnothing)
  have hwritten : AreWrittenAs oddArguments oddLine :=
    ⟨_, .cons hfirst (.cons hsecond .nil),
      .blank (by decide) <| .word _ (by decide) <| .word _ (by decide) .nil⟩
  exact ⟨hkeys, hwritten, (split_written hkeys).2 oddLine hwritten⟩

end KernelArgument

end PartitionUnits
