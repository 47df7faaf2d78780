import Mathlib.Data.List.Forall2
import PartitionUnits.Proofs.Path
import PartitionUnits.Proofs.Text.Utf8
import PartitionUnits.Proofs.Text.Words
import PartitionUnits.Proofs.Unit.Name
import PartitionUnits.StaticMounts

/-!
# Static mounts as they are written

A table of static mounts can be written in many ways: with more or fewer blanks, with escapes where
none are needed, and with remarks in between.  All of them are read as the same table.

## Main Definitions

* `StaticMount.Encodes` — a field with escapes, and the text it stands for
* `StaticMount.IsWrittenAs` — a mount as one line
* `StaticMounts.IsWrittenAs` — a table as a whole text
* `StaticMount.field_of_encodes`, `StaticMount.ofLine?_of_isWrittenAs` — how fields and lines are
  read
* `StaticMounts.parse_of_isWrittenAs` — a table can be written, and is read as it was meant

## Design Notes

What a line is read as depends on its words and on its first character that is not blank, and on
nothing else (`StaticMount.ofLine?_eq`); so trimming, and a carriage return in front of a line feed,
are seen to be without effect once and for all.  Escapes are undone octet by octet, hence the
lemmas about them speak of octets with more behind them.
-/

namespace PartitionUnits

open Text

/-! ## Fields -/

section

variable {b : UInt8} {bs rest : List UInt8}

/-- An octet other than a backslash stands for itself. -/
theorem unescapeOctal_cons (h : b ≠ 0x5C) (rest : List UInt8) :
    unescapeOctal (b :: rest) = b :: unescapeOctal rest := by
  rw [unescapeOctal]
  rintro x y z rest' rfl
  exact absurd rfl h

/-- So do several. -/
theorem unescapeOctal_append (h : 0x5C ∉ bs) (rest : List UInt8) :
    unescapeOctal (bs ++ rest) = bs ++ unescapeOctal rest := by
  induction bs with
  | nil => rfl
  | cons b bs ih =>
      rw [List.mem_cons, not_or] at h
      rw [List.cons_append, unescapeOctal_cons (Ne.symm h.1), ih h.2, List.cons_append]

end

namespace StaticMount

/-- An octet as a backslash and three octal digits. -/
def octalEscape (b : UInt8) : List Char :=
  ['\\', Nat.digitChar (b.toNat / 64), Nat.digitChar (b.toNat / 8 % 8), Nat.digitChar (b.toNat % 8)]

/-- A character by the octal escapes of its octets. -/
def escapeChar (c : Char) : List Char := (String.utf8EncodeChar c).flatMap octalEscape

/-- **A field stands for a text.**  Any character may be escaped; those that end a field or begin an
escape have to be. -/
inductive Encodes : List Char → List Char → Prop where
  | nil : Encodes [] []
  | plain {c : Char} {field text : List Char} (hblank : isBlank c = false) (hc : c ≠ '\\')
      (h : Encodes field text) : Encodes (c :: field) (c :: text)
  | escaped {c : Char} {field text : List Char} (h : Encodes field text) :
      Encodes (escapeChar c ++ field) (c :: text)

/-- The octal digit of a value, as an octet. -/
def digitOctet (n : Nat) : UInt8 := UInt8.ofNat (0x30 + n)

/-- **The three digits of an octet are read as that octet**, and are not taken for anything else. -/
theorem octalEscape_spec (b : UInt8) :
    (encode (octalEscape b) = [0x5C, digitOctet (b.toNat / 64), digitOctet (b.toNat / 8 % 8),
        digitOctet (b.toNat % 8)] ∧
      octalOctet? (digitOctet (b.toNat / 64)) (digitOctet (b.toNat / 8 % 8))
        (digitOctet (b.toNat % 8)) = some b) ∧
      (octalEscape b).all (fun c => !isBlank c && c != '#') = true := by
  revert b
  exact UnitName.octet_all (by decide +kernel)

theorem visible_of_mem_octalEscape {b : UInt8} {c : Char} (h : c ∈ octalEscape b) :
    isBlank c = false ∧ c ≠ '#' := by
  simpa using List.all_eq_true.mp (octalEscape_spec b).2 c h

theorem unescapeOctal_octalEscape (b : UInt8) (rest : List UInt8) :
    unescapeOctal (encode (octalEscape b) ++ rest) = b :: unescapeOctal rest := by
  obtain ⟨⟨hoctets, hvalue⟩, -⟩ := octalEscape_spec b
  simp only [hoctets, List.cons_append, List.nil_append, unescapeOctal, hvalue]

theorem unescapeOctal_octalEscapes (bs rest : List UInt8) :
    unescapeOctal (encode (bs.flatMap octalEscape) ++ rest) = bs ++ unescapeOctal rest := by
  induction bs with
  | nil => rfl
  | cons b bs ih =>
      rw [List.flatMap_cons, encode_append, List.append_assoc, unescapeOctal_octalEscape, ih]
      rfl

/-- Only a backslash has the octet of a backslash. -/
theorem backslash_notMem {c : Char} (h : c ≠ '\\') : 0x5C ∉ String.utf8EncodeChar c :=
  fun hmem => h (Path.eq_of_mem_utf8EncodeChar (b := 0x5C) (by decide) rfl hmem)

namespace Encodes

variable {field field' text text' : List Char}

/-- **The escapes of a field are undone.** -/
theorem unescapeOctal_eq (h : Encodes field text) : unescapeOctal (encode field) = encode text := by
  induction h with
  | nil => rfl
  | plain _ hc _ ih =>
      rw [encode_cons, unescapeOctal_append (backslash_notMem hc), ih, encode_cons]
  | escaped _ ih =>
      rw [encode_append, escapeChar, unescapeOctal_octalEscapes, ih, encode_cons]

theorem visible (h : Encodes field text) : ∀ c ∈ field, isBlank c = false := by
  induction h with
  | nil => exact fun _ hc => absurd hc List.not_mem_nil
  | plain hblank _ _ ih => exact List.forall_mem_cons.mpr ⟨hblank, ih⟩
  | escaped _ ih =>
      refine List.forall_mem_append.mpr ⟨fun d hd => ?_, ih⟩
      obtain ⟨b, -, hb⟩ := List.mem_flatMap.mp hd
      exact (visible_of_mem_octalEscape hb).1

theorem ne_nil (h : Encodes field text) (htext : text ≠ []) : field ≠ [] := by
  rintro rfl
  have hoctets : encode [] = encode text := h.unescapeOctal_eq
  have hdecoded := congrArg decodeLossy hoctets
  rw [decodeLossy_encode, decodeLossy_encode] at hdecoded
  exact htext hdecoded.symm

/-- A field for a text that says something is one word. -/
theorem isUnbroken (h : Encodes field text) (htext : text ≠ []) : IsUnbroken field :=
  ⟨h.ne_nil htext, h.visible⟩

end Encodes

/-- Any text can be written with all of it escaped, and is not taken for a remark then. -/
theorem encodes_escapes (text : List Char) :
    Encodes (text.flatMap escapeChar) text ∧ '#' ∉ text.flatMap escapeChar := by
  induction text with
  | nil => exact ⟨.nil, List.not_mem_nil⟩
  | cons c text ih =>
      refine ⟨.escaped ih.1, fun hmem => ?_⟩
      rw [List.flatMap_cons, List.mem_append] at hmem
      rcases hmem with hmem | hmem
      · obtain ⟨b, -, hb⟩ := List.mem_flatMap.mp hmem
        exact (visible_of_mem_octalEscape hb).2 rfl
      · exact ih.2 hmem

/-- **A field is read as the text that it stands for.** -/
theorem field_of_encodes {written : List Char} {s : String} (h : Encodes written s.toList) :
    field written = s := by
  rw [field, h.unescapeOctal_eq, decodeLossy_encode, String.ofList_toList]

/-! ## Lines -/

/-- The fields of a mount, in the order they are written in. -/
def fields (m : StaticMount) : List String := [m.source, m.mountPoint, m.fsType, m.options]

/-- **A mount as one line**: its fields, the first one not to be taken for a remark, with blanks
around and between them, and with any fields behind them. -/
def IsWrittenAs (m : StaticMount) (line : List Char) : Prop :=
  ∃ written more, List.Forall₂ (fun field s => Encodes field s.toList) written m.fields ∧
    (∀ first ∈ written.head?, first.head? ≠ some '#') ∧ (∀ word ∈ more, IsUnbroken word) ∧
    Spaced (written ++ more) line

/-- **A line without a mount**: nothing but blanks, or a remark. -/
def IsRemark (line : List Char) : Prop :=
  firstVisible? line = none ∨ firstVisible? line = some '#'

instance (line : List Char) : Decidable (IsRemark line) := instDecidableOr

/-- **What a line is read as** depends on its words and its first visible character. -/
theorem ofLine?_eq (line : List Char) : ofLine? line =
    if firstVisible? line = some '#' then none
    else
      match (words isBlank line).map field with
      | source :: mountPoint :: rest =>
        some ⟨source, mountPoint, rest[0]?.getD "auto", rest[1]?.getD "defaults"⟩
      | _ => none := by
  rw [← words_trim line, ← head?_trim line]
  rfl

/-- Blanks at the end of a line do not matter. -/
theorem ofLine?_append_blanks {gap : List Char} (h : Blanks gap) (line : List Char) :
    ofLine? (line ++ gap) = ofLine? line := by
  rw [ofLine?_eq, ofLine?_eq, words_append_separators h, firstVisible?_append,
    firstVisible?_of_blanks h, Option.or_none]

/-- So does the carriage return in front of a line feed not matter. -/
theorem ofLine?_dropReturn (line : List Char) : ofLine? (dropReturn line) = ofLine? line := by
  unfold dropReturn
  split
  · next hlast =>
      obtain ⟨before, rfl⟩ := List.getLast?_eq_some_iff.mp hlast
      rw [List.dropLast_concat, ofLine?_append_blanks (by decide)]
  · rfl

/-- **A line without a mount is passed over.** -/
theorem ofLine?_of_isRemark {line : List Char} (h : IsRemark line) : ofLine? line = none := by
  rw [ofLine?_eq]
  rcases h with hnone | hmark
  · -- There is no word in the line, as there is nothing visible.
    have hblanks : Blanks line := by
      simpa [firstVisible?, Blanks] using hnone
    have hwords : words isBlank line = [] := by
      rw [← List.append_nil line, words_separators_append hblanks]
      rfl
    rw [if_neg (by simp [hnone]), hwords]
    rfl
  · exact if_pos hmark

section

variable {written : List (List Char)} {texts : List String}
  (h : List.Forall₂ (fun field s => Encodes field s.toList) written texts)
include h

theorem map_field : written.map field = texts := by
  have hfields := h.imp fun _ _ hfield => field_of_encodes hfield
  rwa [← List.forall₂_map_left_iff (R := Eq), List.forall₂_eq_eq_eq] at hfields

theorem isUnbroken_of_mem (htexts : "" ∉ texts) : ∀ field ∈ written, IsUnbroken field := by
  induction h with
  | nil => exact fun _ hfield => absurd hfield List.not_mem_nil
  | @cons field s _ _ hfield _ ih =>
      rw [List.mem_cons, not_or] at htexts
      have hs : s.toList ≠ [] := mt String.toList_eq_nil_iff.mp (Ne.symm htexts.1)
      exact List.forall_mem_cons.mpr ⟨hfield.isUnbroken hs, ih htexts.2⟩

end

/-- A line for any mount, with single blanks between the fields. -/
theorem exists_isWrittenAs (m : StaticMount) : ∃ line, m.IsWrittenAs line ∧ '\n' ∉ line := by
  let written := m.fields.map fun s => s.toList.flatMap escapeChar
  have hwritten : List.Forall₂ (fun field s => Encodes field s.toList) written m.fields :=
    List.forall₂_map_left_iff.mpr <|
      List.forall₂_same.mpr fun s _ => (encodes_escapes s.toList).1
  obtain ⟨line, hline, hall⟩ := Spaced.exists_of written
  refine ⟨line, ⟨written, [], hwritten, fun first hfirst hmark => ?_, by simp, by simpa⟩,
    fun hmem => ?_⟩
  · cases hfirst
    exact (encodes_escapes m.source.toList).2 (List.mem_of_head? hmark)
  · rcases hall '\n' hmem with hblank | ⟨field, hfield, hin⟩
    · exact absurd hblank (by decide)
    · obtain ⟨s, -, rfl⟩ := List.mem_map.mp hfield
      exact absurd ((encodes_escapes s.toList).1.visible '\n' hin) (by decide)

/-- **The line of a mount is read as that mount**, if none of its fields is empty. -/
theorem ofLine?_of_isWrittenAs {m : StaticMount} {line : List Char} (hm : "" ∉ m.fields)
    (h : m.IsWrittenAs line) : ofLine? line = some m := by
  obtain ⟨written, more, hwritten, hmark, hmore, hline⟩ := h
  have hunbroken : ∀ word ∈ written ++ more, IsUnbroken word :=
    List.forall_mem_append.mpr ⟨isUnbroken_of_mem hwritten hm, hmore⟩
  have hfirst : firstVisible? line ≠ some '#' := by
    rw [hline.firstVisible?_eq hunbroken]
    cases hwritten with
    | @cons source _ _ _ _ _ => exact hmark source rfl
  rw [ofLine?_eq, if_neg hfirst, hline.words_eq hunbroken, List.map_append, map_field hwritten]
  rfl

end StaticMount

/-! ## Tables -/

namespace StaticMounts

/-- **Lines that make up a table**: one for each mount, in order, and others in between. -/
inductive Lists : List (List Char) → List StaticMount → Prop where
  | nil : Lists [] []
  | remark {line : List Char} {lines : List (List Char)} {mounts : List StaticMount}
      (hline : StaticMount.IsRemark line) (h : Lists lines mounts) : Lists (line :: lines) mounts
  | mount {line : List Char} {lines : List (List Char)} {m : StaticMount}
      {mounts : List StaticMount} (hline : m.IsWrittenAs line) (h : Lists lines mounts) :
      Lists (line :: lines) (m :: mounts)

theorem Lists.filterMap_eq {lines : List (List Char)} {mounts : List StaticMount}
    (hmounts : ∀ m ∈ mounts, "" ∉ m.fields) (h : Lists lines mounts) :
    lines.filterMap StaticMount.ofLine? = mounts := by
  induction h with
  | nil => rfl
  | remark hline _ ih =>
      rw [List.filterMap_cons_none (StaticMount.ofLine?_of_isRemark hline), ih hmounts]
  | mount hline _ ih =>
      obtain ⟨hm, hmounts⟩ := List.forall_mem_cons.mp hmounts
      rw [List.filterMap_cons_some (StaticMount.ofLine?_of_isWrittenAs hm hline), ih hmounts]

/-- Any mounts can be listed, line by line. -/
theorem exists_lists (mounts : List StaticMount) :
    ∃ lines, Lists lines mounts ∧ ∀ line ∈ lines, '\n' ∉ line := by
  induction mounts with
  | nil => exact ⟨[], .nil, by simp⟩
  | cons m mounts ih =>
      obtain ⟨line, hline, hfeed⟩ := StaticMount.exists_isWrittenAs m
      obtain ⟨lines, hlists, hlines⟩ := ih
      exact ⟨line :: lines, .mount hline hlists, List.forall_mem_cons.mpr ⟨hfeed, hlines⟩⟩

/-- **A table as a text**: its lines, with a line feed after each but the last.  That the text ends
in a line feed is one more line, which is blank. -/
def IsWrittenAs (mounts : List StaticMount) (content : String) : Prop :=
  ∃ lines, Lists lines mounts ∧ (∀ line ∈ lines, '\n' ∉ line) ∧
    content.toList = ['\n'].intercalate lines

/-- What a table is read from is its pieces between line feeds. -/
theorem parse_eq (content : String) :
    parse content = ⟨(content.toList.splitOn '\n').filterMap StaticMount.ofLine?⟩ := by
  rw [parse, filterMap_lines (by decide) fun line _ => StaticMount.ofLine?_dropReturn line]

/-- **A table is read as it was meant**, if no field is empty, and there is a way to write it. -/
theorem parse_of_isWrittenAs {mounts : List StaticMount} (hmounts : ∀ m ∈ mounts, "" ∉ m.fields) :
    (∃ content, IsWrittenAs mounts content) ∧
      ∀ content, IsWrittenAs mounts content → parse content = ⟨mounts⟩ := by
  constructor
  · obtain ⟨lines, hlists, hlines⟩ := exists_lists mounts
    exact ⟨String.ofList (['\n'].intercalate lines), lines, hlists, hlines, String.toList_ofList⟩
  rintro content ⟨lines, hlists, hlines, hcontent⟩
  rw [parse_eq, hcontent, ← hlists.filterMap_eq hmounts]
  cases lines with
  | nil => rfl
  | cons line rest => rw [List.splitOn_intercalate '\n' hlines (List.cons_ne_nil line rest)]

/-- Two mounts with a blank, a backslash, number signs and a character of two octets. -/
def oddMounts : List StaticMount := [⟨"a", "/ ", "\\", "#"⟩, ⟨"#", "/", "d", "é"⟩]

/-- A table of these, with a remark, a blank line and fields that do not count. -/
def oddTable : String := " # a b\n a\t/\\040 \\134 # 0 0\n\t\n\\043 / d  \\303\\251\n"

theorem oddMounts_parsed : (∀ m ∈ oddMounts, "" ∉ m.fields) ∧ IsWrittenAs oddMounts oddTable ∧
    parse oddTable = ⟨oddMounts⟩ := by
  have hplain : ∀ c, isBlank c = false → c ≠ '\\' → StaticMount.Encodes [c] [c] :=
    fun c hblank hc => .plain hblank hc .nil
  have hescaped : ∀ c, StaticMount.Encodes (StaticMount.escapeChar c) [c] :=
    fun c => List.append_nil (StaticMount.escapeChar c) ▸ .escaped .nil
  have hfirst : StaticMount.IsWrittenAs ⟨"a", "/ ", "\\", "#"⟩ (' ' :: (['a'] ++ '\t' ::
      ('/' :: StaticMount.escapeChar ' ' ++ ' ' :: (StaticMount.escapeChar '\\' ++ ' ' ::
        (['#'] ++ ' ' :: (['0'] ++ ' ' :: ['0'])))))) := by
    refine ⟨[['a'], '/' :: StaticMount.escapeChar ' ', StaticMount.escapeChar '\\', ['#']],
      [['0'], ['0']], ?_, by decide, by decide, ?_⟩
    · exact .cons (hplain 'a' (by decide) (by decide)) <|
        .cons (.plain (by decide) (by decide) (hescaped ' ')) <| .cons (hescaped '\\') <|
        .cons (hplain '#' (by decide) (by decide)) .nil
    · exact .blank (by decide) <| .word _ (by decide) <| .word _ (by decide) <|
        .word _ (by decide) <| .word _ (by decide) <| .word _ (by decide) <| .last _
  have hsecond : StaticMount.IsWrittenAs ⟨"#", "/", "d", "é"⟩ (StaticMount.escapeChar '#' ++ ' ' ::
      (['/'] ++ ' ' :: (['d'] ++ ' ' :: ' ' :: StaticMount.escapeChar 'é'))) := by
    refine ⟨[StaticMount.escapeChar '#', ['/'], ['d'], StaticMount.escapeChar 'é'], [],
      ?_, by decide, by decide, ?_⟩
    · exact .cons (hescaped '#') <| .cons (hplain '/' (by decide) (by decide)) <|
        .cons (hplain 'd' (by decide) (by decide)) <| .cons (hescaped 'é') .nil
    · exact .word _ (by decide) <| .word _ (by decide) <| .word _ (by decide) <|
        .blank (by decide) <| .last _
  have htable : IsWrittenAs oddMounts oddTable :=
    ⟨[" # a b".toList, _, "\t".toList, _, []],
      .remark (by decide) <| .mount hfirst <| .remark (by decide) <| .mount hsecond <|
        .remark (by decide) .nil, by decide +kernel, by decide +kernel⟩
  have hmounts : ∀ m ∈ oddMounts, "" ∉ m.fields := by decide
  exact ⟨hmounts, htable, (parse_of_isWrittenAs hmounts).2 oddTable htable⟩

end StaticMounts

end PartitionUnits
