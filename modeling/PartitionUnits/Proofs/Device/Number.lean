import PartitionUnits.DeviceTree
import PartitionUnits.Proofs.Text.Numeral
import PartitionUnits.Proofs.Text.Words
import PartitionUnits.Proofs.Unit.Escape

/-!
# Device numbers as they are written

The texts that are read as device numbers are two numerals with a colon between them, with or
without blanks around them.

## Main Definitions

* `Device.Number.IsWrittenAs` — a device number as a text
* `Device.Number.parse_eq_ok_iff` — such texts are read, and nothing else is
* `Device.Number.text_injective`, `deviceLink_sameAs_iff` — no two device numbers have one text, and
  so no two devices have one link
* `Device.Number.parse_exact` — a device number is read back, and no text is read as a wrong one

## Design Notes

A numeral stands for a natural number, however large.  A device number holds two numbers below a
bound, and `IsWrittenAs` compares them as natural numbers: a text with a larger one is the text of
no device number.
-/

namespace PartitionUnits

open Text

namespace Device

namespace Number

variable {n : Number} {s : String} {cs : List Char}

/-- **A device number is written** as two numerals with a colon between them. -/
def IsWrittenAs (n : Number) (cs : List Char) : Prop :=
  ∃ major minor, cs = major ++ ':' :: minor ∧ IsNumeral major n.major.toNat ∧
    IsNumeral minor n.minor.toNat

/-- No numeral has a colon. -/
theorem colon_notMem {value : Nat} (h : IsNumeral cs value) : ':' ∉ cs :=
  fun hmem => absurd (h.forall_mem ':' hmem) (by decide)

/-- **The texts that are read as device numbers** are those of device numbers, blanks aside. -/
theorem parse_eq_ok_iff : parse s = .ok n ↔ n.IsWrittenAs (trim s.toList) := by
  have hfits : ∀ value : Nat, value < bound → (UInt64.ofNat value).toNat = value :=
    fun _ hvalue => UInt64.toNat_ofNat_of_lt' hvalue
  unfold parse
  simp only
  generalize trim s.toList = cs
  constructor
  · intro h
    split at h
    · cases h
    next major minor hcut =>
    split at h
    · cases h
    next majorValue hmajor =>
    split at h
    · cases h
    next minorValue hminor =>
    cases h
    obtain ⟨hmajor, hmajorFits⟩ := parseNumeral_eq_ok_iff.mp hmajor
    obtain ⟨hminor, hminorFits⟩ := parseNumeral_eq_ok_iff.mp hminor
    refine ⟨major, minor, (eq_append_of_cut? hcut).1, ?_, ?_⟩
    · rwa [hfits majorValue hmajorFits]
    · rwa [hfits minorValue hminorFits]
  · rintro ⟨major, minor, rfl, hmajor, hminor⟩
    have hmajor' : parseNumeral bound major = .ok n.major.toNat :=
      parseNumeral_eq_ok_iff.mpr ⟨hmajor, n.major.toNat_lt⟩
    have hminor' : parseNumeral bound minor = .ok n.minor.toNat :=
      parseNumeral_eq_ok_iff.mpr ⟨hminor, n.minor.toNat_lt⟩
    simp only [cut?_append (colon_notMem hmajor), hmajor', hminor', UInt64.ofNat_toNat]

/-! ## Reading back -/

theorem isWrittenAs_text (n : Number) : n.IsWrittenAs n.text.toList :=
  ⟨Nat.toDigits 10 n.major.toNat, Nat.toDigits 10 n.minor.toNat, String.toList_ofList,
    isNumeral_toDigits _, isNumeral_toDigits _⟩

/-- What the text of a device number is made of. -/
theorem IsWrittenAs.forall_mem (h : n.IsWrittenAs cs) :
    ∀ c ∈ cs, c.isDigit = true ∨ c = '+' ∨ c = ':' := by
  obtain ⟨major, minor, rfl, hmajor, hminor⟩ := h
  have hnumeral : ∀ {value : Nat} {cs : List Char}, IsNumeral cs value →
      ∀ c ∈ cs, c.isDigit = true ∨ c = '+' ∨ c = ':' :=
    fun h c hc => (h.forall_mem c hc).imp_right Or.inl
  exact List.forall_mem_append.mpr
    ⟨hnumeral hmajor, List.forall_mem_cons.mpr ⟨Or.inr (Or.inr rfl), hnumeral hminor⟩⟩

theorem IsWrittenAs.visible (h : n.IsWrittenAs cs) : ∀ c ∈ cs, isBlank c = false := by
  intro c hc
  rcases h.forall_mem c hc with hdigit | rfl | rfl
  · exact isBlank_of_isDigit hdigit
  · decide
  · decide

/-- **Blanks around a device number do not matter**, and there is no other way to read one. -/
theorem parse_eq_ok_iff_isPadded :
    parse s = .ok n ↔ ∃ cs, IsPadded cs s.toList ∧ n.IsWrittenAs cs := by
  rw [parse_eq_ok_iff]
  constructor
  · exact fun h => ⟨trim s.toList, isPadded_trim s.toList, h⟩
  · rintro ⟨cs, hpadded, hwritten⟩
    rwa [hpadded.trim_eq (.of_visible hwritten.visible)]

/-- A device number is read from its text, with blanks around it or not. -/
theorem parse_of_isPadded (h : IsPadded n.text.toList s.toList) : parse s = .ok n :=
  parse_eq_ok_iff_isPadded.mpr ⟨n.text.toList, h, n.isWrittenAs_text⟩

/-- **No two device numbers have one text.** -/
theorem text_injective {m : Number} (h : n.text = m.text) : n = m := by
  have hread : ∀ n : Number, parse n.text = .ok n := fun n =>
    parse_of_isPadded ⟨[], [], by simp [Blanks], by simp [Blanks], by simp⟩
  exact Except.ok.inj ((hread n).symm.trans ((congrArg parse h).trans (hread m)))

end Number

end Device

/-! ## Links -/

/-- The text of a device number is a name of a path. -/
theorem isName_text (n : Device.Number) : Path.IsName (Path.ofText n.text).octets ∧
    (Path.ofText n.text).octets ≠ [dot, dot] := by
  have hcolon : ':' ∈ n.text.toList := by
    obtain ⟨major, minor, htext, -⟩ := n.isWrittenAs_text
    rw [htext]
    exact List.mem_append_right major List.mem_cons_self
  have hne : ∀ cs, ':' ∉ cs → (Path.ofText n.text).octets ≠ encode cs := by
    rintro cs hcs h
    rw [← encode_injective h] at hcs
    exact hcs hcolon
  have hslash : '/' ∉ n.text.toList := fun hmem =>
    absurd (n.isWrittenAs_text.forall_mem '/' hmem) (by decide)
  exact ⟨⟨hne [] (by decide), hne ['.'] (by decide), Path.slash_notMem_ofText hslash⟩,
    hne ['.', '.'] (by decide)⟩

/-- **No two devices have one link**, however the paths to them are spelled. -/
theorem deviceLink_sameAs_iff {n m : Device.Number} :
    (deviceLink n).SameAs (deviceLink m) ↔ n = m := by
  constructor
  · intro h
    obtain ⟨hn, hndots⟩ := isName_text n
    obtain ⟨hm, hmdots⟩ := isName_text m
    have hnames : Component.name (Path.ofText n.text).octets =
        Component.name (Path.ofText m.text).octets := by
      have hcomponents : (deviceLink n).components = (deviceLink m).components := h
      rw [deviceLink, deviceLink, hn.components_join hndots,
        hm.components_join hmdots] at hcomponents
      exact (List.cons.inj (List.append_cancel_left hcomponents)).1
    have hoctets : encode n.text.toList = encode m.text.toList := Component.name.inj hnames
    exact Device.Number.text_injective (String.toList_inj.mp (encode_injective hoctets))
  · rintro rfl
    rfl

namespace Device.Number

/-- **A device number is read back from its text**, whatever blanks there are around it, and so no
two devices have one link.  **No other text is read as a device number** than two numerals with a
colon between them that stand for its two numbers. -/
theorem parse_exact :
    (∀ (n : Number) (s : String), IsPadded n.text.toList s.toList → parse s = .ok n) ∧
      (∀ n m : Number, (deviceLink n).SameAs (deviceLink m) → n = m) ∧
      ∀ (s : String) (n : Number), parse s = .ok n ↔
        ∃ cs, IsPadded cs s.toList ∧ n.IsWrittenAs cs :=
  ⟨fun _ _ => parse_of_isPadded, fun _ _ => deviceLink_sameAs_iff.mp,
    fun _ _ => parse_eq_ok_iff_isPadded⟩

/-- The largest major number with blanks around it, two devices with the same digits in their
numbers, and a text that is not the one which is written. -/
theorem parse_exact_largest :
    (IsPadded (Number.mk 0xFFFFFFFFFFFFFFFF 0).text.toList "\t18446744073709551615:0 \n".toList ∧
        parse "\t18446744073709551615:0 \n" = .ok ⟨0xFFFFFFFFFFFFFFFF, 0⟩) ∧
      ¬ (deviceLink ⟨1, 12⟩).SameAs (deviceLink ⟨11, 2⟩) ∧ parse "+08:2\n" = .ok ⟨8, 2⟩ := by
  obtain ⟨hread, hlinks, honly⟩ := parse_exact
  have hlargest : IsPadded (Number.mk 0xFFFFFFFFFFFFFFFF 0).text.toList
      "\t18446744073709551615:0 \n".toList :=
    ⟨['\t'], [' ', '\n'], by decide, by decide, by decide +kernel⟩
  refine ⟨⟨hlargest, hread _ _ hlargest⟩, fun h => absurd (hlinks _ _ h) (by decide), ?_⟩
  have hmajor : IsNumeral ['+', '0', '8'] 8 :=
    ⟨['0', '8'], by decide, by simp [Char.isDigit], Or.inr rfl, by decide⟩
  have hminor : IsNumeral ['2'] 2 :=
    ⟨['2'], by decide, by simp [Char.isDigit], Or.inl rfl, by decide⟩
  exact (honly _ _).mpr ⟨"+08:2".toList, ⟨[], ['\n'], by decide, by decide, by decide⟩,
    ['+', '0', '8'], ['2'], by decide, hmajor, hminor⟩

/-- A number above the largest one is not taken for a smaller one. -/
example : parse "8:18446744073709551616" =
    .error (.badMinor "8:18446744073709551616" .tooLarge) := by
  decide +kernel

end Device.Number

end PartitionUnits
