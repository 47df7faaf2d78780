import Mathlib.Data.List.Basic
import PartitionUnits.Guid
import PartitionUnits.Proofs.Text.Words

/-!
# Readers of GUIDs

What is asked of a reader of GUIDs, and that the reader of the usual forms is one of them.

## Main Definitions

* `Guid.Form`, `Guid.Form.write` — the forms that carry the 32 digits of a GUID
* `Guid.Reader.IsDocumented` — a reader that knows these forms
* `Guid.readForms_isDocumented` — the reader of the usual forms is one
* `Guid.nul_notMem_of_parse?` — no spelling has the character that ends a text

## Design Notes

A reader may know more forms than these.  What it has to leave alone is the character that ends a
text, for it cannot be in a text that is cut there.
-/

namespace PartitionUnits

open Text

/-- What is not the separator is in one of the pieces. -/
theorem Text.mem_flatten_splitOn {separator c : Char} {cs : List Char} (hc : c ∈ cs)
    (hne : c ≠ separator) : c ∈ (cs.splitOn separator).flatten := by
  induction cs with
  | nil => cases hc
  | cons d ds ih =>
      rw [List.splitOn_cons_eq_if_modifyHead]
      obtain ⟨first, pieces, hpieces⟩ :=
        List.exists_cons_of_ne_nil (List.splitOn_ne_nil separator ds)
      rw [hpieces] at ih ⊢
      rcases List.mem_cons.mp hc with rfl | hc
      · rw [if_neg (by simpa using hne)]
        exact List.mem_cons_self
      · split
        · exact List.mem_append_right _ (ih hc)
        · exact List.mem_cons_of_mem _ (ih hc)

namespace Guid

/-- The five groups that 32 digits are hyphenated in. -/
def groups (digits : List Char) : List (List Char) :=
  [digits.take 8, (digits.drop 8).take 4, (digits.drop 12).take 4, (digits.drop 16).take 4,
    digits.drop 20]

/-- Digits in five groups with hyphens between them. -/
def hyphenate (digits : List Char) : List Char := ['-'].intercalate (groups digits)

/-- The forms of a GUID. -/
inductive Form where
  | plain
  | hyphenated
  | braced
  | named
deriving DecidableEq, Repr

/-- Digits in a form. -/
def Form.write : Form → List Char → List Char
  | .plain, digits => digits
  | .hyphenated, digits => hyphenate digits
  | .braced, digits => Char.ofNat 0x7B :: (hyphenate digits ++ [Char.ofNat 0x7D])
  | .named, digits => scheme ++ hyphenate digits

/-- A reader that knows the 32 digits of a GUID in each form, and that takes no text for a GUID that
has the character with which texts end. -/
structure Reader.IsDocumented (read : Reader) : Prop where
  accepts : ∀ (form : Form) (digits : List Char) (g : Guid),
    ofDigits? digits = some g → read (String.ofList (form.write digits)) = some g
  nul_notMem : ∀ (s : String) (g : Guid), read s = some g → '\x00' ∉ s.toList

variable {cs digits : List Char} {value n : Nat} {c : Char} {g : Guid} {read : Reader}

/-! ## Digits -/

/-- All that is read as digits is a digit. -/
theorem hexValue?_of_readHex (h : readHex value cs = some n) (hc : c ∈ cs) :
    ∃ d, hexValue? c = some d := by
  induction cs generalizing value with
  | nil => cases hc
  | cons first rest ih =>
      obtain ⟨d, hd, hrest⟩ := Option.bind_eq_some_iff.mp h
      rcases List.mem_cons.mp hc with rfl | hc
      · exact ⟨d, hd⟩
      · exact ih hrest hc

/-- The digits of a GUID are 32 digits. -/
theorem digits_of_ofDigits? (h : ofDigits? digits = some g) :
    digits.length = 32 ∧ ∀ c ∈ digits, ∃ d, hexValue? c = some d := by
  unfold ofDigits? at h
  split at h
  next hlength =>
    obtain ⟨n, hn, -⟩ := Option.map_eq_some_iff.mp h
    exact ⟨hlength, fun c hc => hexValue?_of_readHex hn hc⟩
  · cases h

theorem notMem_of_ofDigits? (h : ofDigits? digits = some g) (hc : hexValue? c = none) :
    c ∉ digits := by
  intro hmem
  obtain ⟨d, hd⟩ := (digits_of_ofDigits? h).2 c hmem
  rw [hc] at hd
  cases hd

/-- A digit is no blank. -/
theorem isBlank_of_hexValue? {d : Nat} (h : hexValue? c = some d) : isBlank c = false := by
  have hrange : '0'.toNat ≤ c.toNat ∧ c.toNat ≤ 'f'.toNat := by
    unfold hexValue? at h
    simp only [Char.le_def, UInt32.le_iff_toNat_le] at h
    split at h
    next hdigit => exact ⟨hdigit.1, hdigit.2.trans (by decide)⟩
    split at h
    next hlower => exact ⟨le_trans (by decide) hlower.1, hlower.2⟩
    split at h
    next hupper => exact ⟨le_trans (by decide) hupper.1, hupper.2.trans (by decide)⟩
    · cases h
  have h0 : '0'.toNat = 48 := rfl
  have hf : 'f'.toNat = 102 := rfl
  simp [isBlank]
  omega

theorem nul_notMem_of_ofHyphenated? (h : ofHyphenated? cs = some g) : '\x00' ∉ cs := by
  unfold ofHyphenated? at h
  simp only at h
  split at h
  · exact fun hnul => notMem_of_ofDigits? h rfl (mem_flatten_splitOn hnul (by decide))
  · cases h

/-! ## Forms -/

theorem flatten_groups (digits : List Char) : (groups digits).flatten = digits := by
  simp only [groups, List.flatten_cons, List.flatten_nil, List.append_nil]
  have hsplit (start count : Nat) :
      (digits.drop start).take count ++ digits.drop (start + count) = digits.drop start := by
    rw [← List.drop_drop, List.take_append_drop]
  rw [hsplit 16 4, hsplit 12 4, hsplit 8 4, List.take_append_drop]

theorem map_length_groups (h : digits.length = 32) :
    (groups digits).map List.length = [8, 4, 4, 4, 12] := by
  simp only [groups, List.map_cons, List.map_nil, List.length_take, List.length_drop, h]
  rfl

theorem length_hyphenate (h : digits.length = 32) : (hyphenate digits).length = 36 := by
  simp [hyphenate, groups, List.intercalate, h]

theorem splitOn_hyphenate (h : ofDigits? digits = some g) :
    (hyphenate digits).splitOn '-' = groups digits :=
  List.splitOn_intercalate '-' (fun _ hgroup hmem => notMem_of_ofDigits? h rfl
    (flatten_groups digits ▸ List.mem_flatten_of_mem hgroup hmem)) (List.cons_ne_nil _ _)

theorem mem_hyphenate (h : ofDigits? digits = some g) (hc : c ∈ hyphenate digits) :
    c = '-' ∨ c ∈ digits := by
  refine or_iff_not_imp_left.mpr fun hne => ?_
  have hpiece := mem_flatten_splitOn hc hne
  rwa [splitOn_hyphenate h, flatten_groups] at hpiece

/-- Hyphenated digits are read. -/
theorem ofHyphenated?_hyphenate (h : ofDigits? digits = some g) :
    ofHyphenated? (hyphenate digits) = some g := by
  unfold ofHyphenated?
  simp only [splitOn_hyphenate h]
  rw [if_pos (map_length_groups (digits_of_ofDigits? h).1), flatten_groups, h]

/-- **The reader of the usual forms reads each of them.** -/
theorem readForms_write (form : Form) (h : ofDigits? digits = some g) :
    readForms (String.ofList (form.write digits)) = some g := by
  have hlength := (digits_of_ofDigits? h).1
  have hhyphenated := length_hyphenate hlength
  have hread := ofHyphenated?_hyphenate h
  unfold readForms
  simp only [String.toList_ofList]
  cases form with
  | plain => rw [Form.write, if_pos hlength, h]
  | hyphenated => rw [Form.write, if_neg (by omega), if_pos hhyphenated, hread]
  | braced =>
      have hwritten : (Form.braced.write digits).length = 38 := by
        simp [Form.write, hhyphenated]
      have hlast : (Form.braced.write digits).getLast? = some (Char.ofNat 0x7D) := by
        rw [Form.write, ← List.cons_append, List.getLast?_concat]
      rw [if_neg (by omega), if_neg (by omega), if_pos ⟨rfl, hlast⟩, Form.write, List.tail_cons,
        List.dropLast_concat, hread]
  | named =>
      have hwritten : (Form.named.write digits).length = 45 := by
        rw [Form.write, List.length_append, hhyphenated]
        rfl
      have hfirst : (Form.named.write digits).head? ≠ some (Char.ofNat 0x7B) := by
        rw [Form.write, List.head?_append]
        exact fun hbrace => absurd (Option.some.inj hbrace) (by decide)
      rw [if_neg (by omega), if_neg (by omega), if_neg fun hbraces => hfirst hbraces.1, Form.write,
        List.take_left, List.drop_left, if_pos (by decide), hread]

theorem nul_notMem_of_readForms {s : String} (h : readForms s = some g) : '\x00' ∉ s.toList := by
  unfold readForms at h
  simp only at h
  generalize s.toList = cs at h ⊢
  split at h
  · exact notMem_of_ofDigits? h rfl
  split at h
  · exact nul_notMem_of_ofHyphenated? h
  split at h
  next hbraces =>
    obtain ⟨behind, rfl⟩ := List.head?_eq_some_iff.mp hbraces.1
    have hinner := nul_notMem_of_ofHyphenated? h
    rw [List.tail_cons] at hinner
    refine List.not_mem_cons_of_ne_of_not_mem (by decide) ?_
    rcases List.eq_nil_or_concat' behind with rfl | ⟨inner, last, rfl⟩
    · exact List.not_mem_nil
    · rw [List.dropLast_concat] at hinner
      have hlast : last = Char.ofNat 0x7D := by
        rw [← List.cons_append, List.getLast?_concat] at hbraces
        exact Option.some.inj hbraces.2
      rw [hlast, List.mem_append, not_or]
      exact ⟨hinner, by decide⟩
  split at h
  next hscheme =>
    rw [← List.take_append_drop scheme.length cs, List.mem_append, not_or]
    refine ⟨fun hnul => ?_, nul_notMem_of_ofHyphenated? h⟩
    have hlower := List.mem_map_of_mem (f := Char.toLower) hnul
    rw [hscheme] at hlower
    exact absurd hlower (by decide)
  · cases h

theorem readForms_isDocumented : Reader.IsDocumented readForms :=
  ⟨fun form _ _ => readForms_write form, fun _ _ => nul_notMem_of_readForms⟩

/-! ## Spellings -/

/-- No form has a blank. -/
theorem Form.isTrimmed_write (form : Form) (h : ofDigits? digits = some g) :
    IsTrimmed (form.write digits) := by
  have hdigits : ∀ c ∈ digits, isBlank c = false := fun c hc =>
    let ⟨_, hd⟩ := (digits_of_ofDigits? h).2 c hc
    isBlank_of_hexValue? hd
  have hhyphenated : ∀ c ∈ hyphenate digits, isBlank c = false := by
    intro c hc
    rcases mem_hyphenate h hc with rfl | hc
    · rfl
    · exact hdigits c hc
  refine IsTrimmed.of_visible fun c hc => ?_
  cases form with
  | plain => exact hdigits c hc
  | hyphenated => exact hhyphenated c hc
  | braced =>
      rw [Form.write, List.mem_cons, List.mem_append, List.mem_singleton] at hc
      rcases hc with rfl | hc | rfl
      · rfl
      · exact hhyphenated c hc
      · rfl
  | named =>
      rw [Form.write, List.mem_append] at hc
      rcases hc with hc | hc
      · have hscheme : scheme.any isBlank = false := by decide
        simpa using List.any_eq_false.mp hscheme c hc
      · exact hhyphenated c hc

/-- **Every form is a spelling**, and stays one with blanks around it. -/
theorem parse?_of_isPadded (hread : read.IsDocumented) (form : Form)
    (h : ofDigits? digits = some g) (hcs : IsPadded (form.write digits) cs) :
    parse? read (String.ofList cs) = some g := by
  rw [parse?, String.toList_ofList, hcs.trim_eq (form.isTrimmed_write h)]
  exact hread.accepts form digits g h

/-- **No spelling of a GUID has the character that ends a text**, for the blanks around it are not
that character either. -/
theorem nul_notMem_of_parse? (hread : read.IsDocumented) {s : String}
    (h : parse? read s = some g) : '\x00' ∉ s.toList := by
  obtain ⟨before, hbefore, hs⟩ := exists_trimStart s.toList
  obtain ⟨after, hafter, htrim⟩ := exists_trimEnd (trimStart s.toList)
  have hblanks : ∀ gap, Blanks gap → '\x00' ∉ gap :=
    fun gap hgap hnul => absurd (hgap _ hnul) (by decide)
  have htrimmed : '\x00' ∉ trim s.toList := by
    have hnul := hread.nul_notMem _ g h
    rwa [String.toList_ofList] at hnul
  rw [hs, List.mem_append, htrim, List.mem_append]
  rintro (hnul | hnul | hnul)
  · exact hblanks before hbefore hnul
  · exact htrimmed hnul
  · exact hblanks after hafter hnul

end Guid

end PartitionUnits
