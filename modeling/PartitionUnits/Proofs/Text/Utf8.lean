import Mathlib.Algebra.Group.Nat.Defs
import Mathlib.Tactic.SplitIfs
import PartitionUnits.Text.Utf8

/-!
# UTF-8 read back

The octets of a text are read as that text, and nothing in them is taken for ill-formed.

## Main Definitions

* `Text.piecesFrom_following` — a sequence that has begun is finished by the octets it misses
* `Text.piecesFrom_utf8EncodeChar` — the octets of a character are read as that character
* `Text.decode?_encode`, `Text.decodeLossy_encode` — so are those of a text

## Design Notes

The decoder is followed octet by octet.  Only the first octet of a sequence decides anything: how
many octets follow, and, where an overlong form, a surrogate or too large a value could begin, the
range that the second one is in.  The octets after it are handled at once, for any number of them.
-/

namespace PartitionUnits.Text

/-! ## A sequence that has begun -/

theorem toNat_octet {n : Nat} (h : n < 0x100) : (UInt8.ofNat n).toNat = n :=
  UInt8.toNat_ofNat_of_lt' h

/-- The octets of a sequence after its first one: those for the last `n` groups of six bits. -/
def following (v : Nat) : Nat → List UInt8
  | 0 => []
  | n + 1 => UInt8.ofNat (v / 64 ^ n % 64 + 0x80) :: following v n

theorem toNat_following (v n : Nat) :
    (UInt8.ofNat (v / 64 ^ n % 64 + 0x80)).toNat = v / 64 ^ n % 64 + 0x80 :=
  toNat_octet (by omega)

/-- Whether a sequence takes an octet is a matter of the six bits that it carries. -/
theorem accepts_following {p : Pending} {v n : Nat} (hlow : p.low.toNat ≤ v / 64 ^ n % 64 + 0x80)
    (hhigh : v / 64 ^ n % 64 + 0x80 ≤ p.high.toNat) :
    p.accepts (UInt8.ofNat (v / 64 ^ n % 64 + 0x80)) = true := by
  rw [Pending.accepts, Bool.and_eq_true, decide_eq_true_eq, decide_eq_true_eq,
    UInt8.le_iff_toNat_le, UInt8.le_iff_toNat_le, toNat_following]
  exact ⟨hlow, hhigh⟩

/-- Octets after the second one are taken whatever they carry. -/
theorem accepts_following_default {p : Pending} (hlow : p.low = 0x80) (hhigh : p.high = 0xBF)
    (v n : Nat) : p.accepts (UInt8.ofNat (v / 64 ^ n % 64 + 0x80)) = true := by
  apply accepts_following
  · simp only [hlow, UInt8.reduceToNat]
    omega
  · simp only [hhigh, UInt8.reduceToNat]
    omega

/-- **A sequence that has begun is finished** by the octets that are still missing. -/
theorem piecesFrom_following {v n : Nat} {p : Pending} (hmissing : p.missing = n + 1)
    (hbits : p.bits = v / 64 ^ (n + 1))
    (haccepts : p.accepts (UInt8.ofNat (v / 64 ^ n % 64 + 0x80)) = true) (bs : List UInt8) :
    piecesFrom (some p) (following v (n + 1) ++ bs) =
      .scalar (Char.ofNat v) :: piecesFrom none bs := by
  have hvalue : ∀ n, v / 64 ^ (n + 1) * 64 + (v / 64 ^ n % 64 + 0x80 - 0x80) = v / 64 ^ n := by
    intro n
    rw [Nat.pow_succ, ← Nat.div_div_eq_div_mul]
    omega
  induction n generalizing p with
  | zero =>
      have hpush : p.push (UInt8.ofNat (v / 64 ^ 0 % 64 + 0x80)) =
          .inl (.scalar (Char.ofNat v)) := by
        rw [Pending.push, if_pos (by omega), toNat_following, hbits, hvalue, Nat.pow_zero,
          Nat.div_one]
      rw [following, List.cons_append, piecesFrom, if_pos haccepts, hpush]
      rfl
  | succ n ih =>
      have hpush : p.push (UInt8.ofNat (v / 64 ^ (n + 1) % 64 + 0x80)) = .inr
          { octets := p.octets ++ [UInt8.ofNat (v / 64 ^ (n + 1) % 64 + 0x80)]
            bits := v / 64 ^ (n + 1)
            missing := n + 1 } := by
        rw [Pending.push, if_neg (by omega), toNat_following, hbits, hvalue, hmissing]
        rfl
      rw [following, List.cons_append, piecesFrom, if_pos haccepts, hpush]
      exact ih rfl rfl (accepts_following_default rfl rfl v n)

/-! ## The first octet -/

theorem start_one {n : Nat} (h : n < 0x80) :
    Pending.start (UInt8.ofNat n) = .inl (.scalar (Char.ofNat n)) := by
  simp only [Pending.start, toNat_octet (show n < 0x100 by omega)]
  rw [if_pos h]

theorem start_two {n : Nat} (h : 0xC2 ≤ n) (h' : n < 0xE0) :
    Pending.start (UInt8.ofNat n) =
      .inr { octets := [UInt8.ofNat n], bits := n - 0xC0, missing := 1 } := by
  simp only [Pending.start, toNat_octet (show n < 0x100 by omega)]
  rw [if_neg (by omega), if_neg (by omega), if_pos h']

/-- The range of the second of three octets is narrower after two of the first octets. -/
theorem start_three {n : Nat} (h : 0xE0 ≤ n) (h' : n < 0xF0) :
    Pending.start (UInt8.ofNat n) =
      .inr { octets := [UInt8.ofNat n], bits := n - 0xE0, missing := 2
             low := if n = 0xE0 then 0xA0 else 0x80
             high := if n = 0xED then 0x9F else 0xBF } := by
  simp only [Pending.start, toNat_octet (show n < 0x100 by omega)]
  rw [if_neg (by omega), if_neg (by omega), if_neg (by omega)]
  by_cases hlow : n = 0xE0
  · simp [hlow]
  · by_cases hhigh : n = 0xED
    · simp [hhigh]
    · simp [hlow, hhigh, h']

/-- So is that of the second of four octets. -/
theorem start_four {n : Nat} (h : 0xF0 ≤ n) (h' : n ≤ 0xF4) :
    Pending.start (UInt8.ofNat n) =
      .inr { octets := [UInt8.ofNat n], bits := n - 0xF0, missing := 3
             low := if n = 0xF0 then 0x90 else 0x80
             high := if n = 0xF4 then 0x8F else 0xBF } := by
  simp only [Pending.start, toNat_octet (show n < 0x100 by omega)]
  rw [if_neg (by omega), if_neg (by omega), if_neg (by omega), if_neg (by omega),
    if_neg (by omega), if_neg (by omega)]
  by_cases hlow : n = 0xF0
  · simp [hlow]
  · by_cases hhigh : n = 0xF4
    · simp [hhigh]
    · have hmiddle : n < 0xF4 := by omega
      simp [hlow, hhigh, hmiddle]

/-! ## One character -/

theorem utf8EncodeChar_one {c : Char} (h : c.toNat ≤ 0x7F) :
    String.utf8EncodeChar c = [UInt8.ofNat c.toNat] := by
  simp only [String.utf8EncodeChar, Char.toNat_val]
  rw [if_pos h]

theorem utf8EncodeChar_two {c : Char} (h : 0x7F < c.toNat) (h' : c.toNat ≤ 0x7FF) :
    String.utf8EncodeChar c = UInt8.ofNat (c.toNat / 64 + 0xC0) :: following c.toNat 1 := by
  simp only [String.utf8EncodeChar, Char.toNat_val]
  rw [if_neg (by omega), if_pos h', Nat.mod_eq_of_lt (a := c.toNat / 64) (by omega)]
  simp only [following, Nat.pow_zero, Nat.div_one]

theorem utf8EncodeChar_three {c : Char} (h : 0x7FF < c.toNat) (h' : c.toNat ≤ 0xFFFF) :
    String.utf8EncodeChar c = UInt8.ofNat (c.toNat / 4096 + 0xE0) :: following c.toNat 2 := by
  simp only [String.utf8EncodeChar, Char.toNat_val]
  rw [if_neg (by omega), if_neg (by omega), if_pos h',
    Nat.mod_eq_of_lt (a := c.toNat / 4096) (by omega)]
  simp only [following, Nat.pow_zero, Nat.pow_one, Nat.div_one]

theorem utf8EncodeChar_four {c : Char} (h : 0xFFFF < c.toNat) (h' : c.toNat < 0x110000) :
    String.utf8EncodeChar c = UInt8.ofNat (c.toNat / 262144 + 0xF0) :: following c.toNat 3 := by
  simp only [String.utf8EncodeChar, Char.toNat_val]
  rw [if_neg (by omega), if_neg (by omega), if_neg (by omega),
    Nat.mod_eq_of_lt (a := c.toNat / 262144) (by omega)]
  simp only [following, Nat.pow_zero, Nat.pow_one, Nat.div_one, Nat.reducePow]

/-- **The octets of a character are read as that character.** -/
theorem piecesFrom_utf8EncodeChar (c : Char) (bs : List UInt8) :
    piecesFrom none (String.utf8EncodeChar c ++ bs) = .scalar c :: piecesFrom none bs := by
  have hvalid : c.toNat < 0xD800 ∨ 0xDFFF < c.toNat ∧ c.toNat < 0x110000 := c.valid
  have hread : Char.ofNat c.toNat = c := Char.ofNat_toNat c
  -- The first octet tells how many follow, and narrows the range of the second one.
  rcases Nat.lt_or_ge 0x7F c.toNat with htwo | hone
  rcases Nat.lt_or_ge 0x7FF c.toNat with hthree | htwo'
  rcases Nat.lt_or_ge 0xFFFF c.toNat with hfour | hthree'
  · rw [utf8EncodeChar_four hfour (by omega), List.cons_append, piecesFrom,
      start_four (by omega) (by omega)]
    simp only
    rw [piecesFrom_following (v := c.toNat) rfl (by simp) (accepts_following ?_ ?_), hread] <;>
      simp only [apply_ite UInt8.toNat, UInt8.reduceToNat, Nat.reducePow] <;>
      split_ifs <;> omega
  · rw [utf8EncodeChar_three hthree hthree', List.cons_append, piecesFrom,
      start_three (by omega) (by omega)]
    simp only
    rw [piecesFrom_following (v := c.toNat) rfl (by simp) (accepts_following ?_ ?_), hread] <;>
      simp only [apply_ite UInt8.toNat, UInt8.reduceToNat, Nat.reducePow] <;>
      split_ifs <;> omega
  · rw [utf8EncodeChar_two htwo htwo', List.cons_append, piecesFrom,
      start_two (by omega) (by omega)]
    simp only
    rw [piecesFrom_following (v := c.toNat) rfl (by simp)
      (accepts_following_default rfl rfl c.toNat 0), hread]
  · rw [utf8EncodeChar_one hone, List.singleton_append, piecesFrom, start_one (by omega)]
    simp only [hread]

/-! ## Whole texts -/

theorem encode_append (cs cs' : List Char) : encode (cs ++ cs') = encode cs ++ encode cs' :=
  List.flatMap_append

theorem encode_cons (c : Char) (cs : List Char) :
    encode (c :: cs) = String.utf8EncodeChar c ++ encode cs :=
  List.flatMap_cons

/-- **The octets of a text are read as the characters of the text**, none of them ill-formed. -/
theorem pieces_encode (cs : List Char) : pieces (encode cs) = cs.map .scalar := by
  unfold pieces encode
  induction cs with
  | nil => rfl
  | cons c rest ih => rw [List.flatMap_cons, piecesFrom_utf8EncodeChar, ih, List.map_cons]

/-- **What a text is encoded to is decoded to that text.** -/
@[simp] theorem decode?_encode (cs : List Char) : decode? (encode cs) = some cs := by
  rw [decode?, pieces_encode, List.mapM_map]
  exact (List.mapM_pure (m := Option) (f := id)).trans (congrArg some (List.map_id cs))

/-- **No character of an encoded text is replaced.** -/
@[simp] theorem decodeLossy_encode (cs : List Char) : decodeLossy (encode cs) = cs := by
  rw [decodeLossy, pieces_encode, List.map_map]
  exact List.map_id cs

end PartitionUnits.Text
