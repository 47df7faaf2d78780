import PartitionUnits.Text.Blank
import PartitionUnits.Text.Numeral

/-!
# What numerals stand for

The texts that are read as numbers, and the numbers that they are read as.

## Main Definitions

* `Text.IsNumeral` — a decimal numeral and its value
* `Text.parseNumeral_eq_ok_iff` — numerals below the bound are read, and nothing else is

## Design Notes

The reader gives up at the first digit with which the value reaches the bound.  That this loses no
numeral below the bound rests on values never getting smaller by a further digit.
-/

namespace PartitionUnits.Text

variable {bound value n d : Nat} {c : Char} {cs : List Char}

/-- **A decimal numeral**: one ASCII digit or more, with or without a plus sign in front of them. -/
def IsNumeral (cs : List Char) (n : Nat) : Prop :=
  ∃ digits, digits ≠ [] ∧ (∀ c ∈ digits, c.isDigit = true) ∧
    (cs = digits ∨ cs = '+' :: digits) ∧ Nat.ofDigitChars 10 digits 0 = n

/-- A number is written with its digits. -/
theorem isNumeral_toDigits (n : Nat) : IsNumeral (Nat.toDigits 10 n) n :=
  ⟨Nat.toDigits 10 n, Nat.toDigits_ne_nil,
    fun _ hc => Nat.isDigit_of_mem_toDigits (by decide) (by decide) hc, Or.inl rfl,
    Nat.ofDigitChars_toDigits (by decide) (by decide)⟩

theorem isBlank_of_isDigit (h : c.isDigit = true) : isBlank c = false := by
  have hdigit : 0x30 ≤ c.toNat ∧ c.toNat ≤ 0x39 := by
    simpa [Char.isDigit, UInt32.le_iff_toNat_le] using h
  simp only [isBlank, Bool.or_eq_false_iff, Bool.and_eq_false_iff, decide_eq_false_iff_not,
    beq_eq_false_iff_ne]
  omega

/-- What a numeral is made of. -/
theorem IsNumeral.forall_mem (h : IsNumeral cs n) : ∀ c ∈ cs, c.isDigit = true ∨ c = '+' := by
  obtain ⟨digits, -, hdigits, hcs, -⟩ := h
  rcases hcs with rfl | rfl
  · exact fun c hc => Or.inl (hdigits c hc)
  · exact List.forall_mem_cons.mpr ⟨Or.inr rfl, fun c hc => Or.inl (hdigits c hc)⟩

theorem digitValue?_eq_some_iff :
    digitValue? c = some d ↔ c.isDigit = true ∧ d = c.toNat - '0'.toNat := by
  have hdigit : ('0' ≤ c ∧ c ≤ '9') ↔ c.isDigit = true := by
    simp only [Char.isDigit, Bool.and_eq_true, decide_eq_true_eq]
    rfl
  simp only [digitValue?, hdigit, Option.ite_none_right_eq_some, Option.some.injEq,
    eq_comm (a := d)]

/-- A value does not get smaller by more digits. -/
theorem le_ofDigitChars (cs : List Char) (value : Nat) : value ≤ Nat.ofDigitChars 10 cs value := by
  induction cs generalizing value with
  | nil => exact Nat.le_of_eq Nat.ofDigitChars_nil.symm
  | cons c cs ih =>
      rw [Nat.ofDigitChars_cons]
      exact Nat.le_trans (by omega) (ih _)

/-- **Digits are read as their value**, which has to be below the bound once there is a digit. -/
theorem readDigits_eq_ok_iff : readDigits bound value cs = .ok n ↔
    (∀ c ∈ cs, c.isDigit = true) ∧ Nat.ofDigitChars 10 cs value = n ∧ (cs ≠ [] → n < bound) := by
  induction cs generalizing value with
  | nil => simp [readDigits]
  | cons c cs ih =>
      rw [readDigits, List.forall_mem_cons, Nat.ofDigitChars_cons, Nat.mul_comm 10 value]
      cases hd : digitValue? c with
      | none =>
          have hdigit : ¬ c.isDigit = true := by
            intro h
            rw [digitValue?_eq_some_iff.mpr ⟨h, rfl⟩] at hd
            cases hd
          simp [hdigit]
      | some d =>
          obtain ⟨hdigit, rfl⟩ := digitValue?_eq_some_iff.mp hd
          simp only [hdigit, true_and, ne_eq, List.cons_ne_nil, not_false_eq_true, true_imp_iff]
          generalize value * 10 + (c.toNat - '0'.toNat) = next
          have hle := le_ofDigitChars cs next
          split
          · next hlt =>
              rw [ih]
              refine and_congr_right fun _ => and_congr_right fun hvalue => ?_
              refine ⟨fun h => ?_, fun h _ => h⟩
              cases cs with
              | nil =>
                  rw [← hvalue, Nat.ofDigitChars_nil]
                  exact hlt
              | cons c cs => exact h (List.cons_ne_nil c cs)
          · next hge =>
              refine iff_of_false (by simp) ?_
              rintro ⟨-, hvalue, hlt⟩
              omega

/-- A digit is no plus sign. -/
theorem plus_notMem {digits : List Char} (h : ∀ c ∈ digits, c.isDigit = true) : '+' ∉ digits :=
  fun hplus => absurd (h _ hplus) (by decide)

theorem isNumeral_plus_iff {digits : List Char} : IsNumeral ('+' :: digits) n ↔
    digits ≠ [] ∧ (∀ c ∈ digits, c.isDigit = true) ∧ Nat.ofDigitChars 10 digits 0 = n := by
  constructor
  · rintro ⟨written, hne, hwritten, rfl | heq, hvalue⟩
    · exact absurd List.mem_cons_self (plus_notMem hwritten)
    · cases heq
      exact ⟨hne, hwritten, hvalue⟩
  · rintro ⟨hne, hdigits, hvalue⟩
    exact ⟨digits, hne, hdigits, Or.inr rfl, hvalue⟩

theorem isNumeral_iff_of_head? (h : cs.head? ≠ some '+') : IsNumeral cs n ↔
    cs ≠ [] ∧ (∀ c ∈ cs, c.isDigit = true) ∧ Nat.ofDigitChars 10 cs 0 = n := by
  constructor
  · rintro ⟨digits, hne, hdigits, rfl | rfl, hvalue⟩
    · exact ⟨hne, hdigits, hvalue⟩
    · exact absurd rfl h
  · rintro ⟨hne, hdigits, hvalue⟩
    exact ⟨cs, hne, hdigits, Or.inl rfl, hvalue⟩

/-- **The texts that are read are the numerals below the bound**, and they are read as their
values. -/
theorem parseNumeral_eq_ok_iff : parseNumeral bound cs = .ok n ↔ IsNumeral cs n ∧ n < bound := by
  fun_cases parseNumeral bound cs with
  | case1 =>
      have hnil : ¬ IsNumeral [] n := fun h => ((isNumeral_iff_of_head? (by simp)).mp h).1 rfl
      simp [hnil]
  | case2 => simp [isNumeral_plus_iff]
  | case3 digits hsign =>
      have hdigits : digits ≠ [] := fun h => hsign (h ▸ rfl)
      rw [readDigits_eq_ok_iff, isNumeral_plus_iff]
      simp only [hdigits, ne_eq, not_false_eq_true, true_imp_iff, true_and, and_assoc]
  | case4 cs hnil _ hsigned =>
      have hne : cs ≠ [] := hnil
      have hhead : cs.head? ≠ some '+' := by
        intro h
        obtain ⟨digits, rfl⟩ := List.head?_eq_some_iff.mp h
        exact hsigned digits rfl
      rw [readDigits_eq_ok_iff, isNumeral_iff_of_head? hhead]
      simp only [hne, ne_eq, not_false_eq_true, true_imp_iff, true_and, and_assoc]

end PartitionUnits.Text
