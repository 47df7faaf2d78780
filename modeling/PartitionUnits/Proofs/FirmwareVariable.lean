import Mathlib.Data.List.Basic
import PartitionUnits.Proofs.Guid
import PartitionUnits.RunningHost

/-!
# GUIDs in firmware variables

A firmware variable tells a GUID just if its payload begins with a text of 16-bit units that spells
it, and whatever comes behind the text's end does not matter.

## Main Definitions

* `Utf16.encode` — the units of a text
* `Utf16.decode?_eq_some_iff` — the units that are read as a text are those of the text
* `Utf16.BeginWith` — units that begin with a text, which ends at a zero or with them
* `FirmwareVariable.guid_read_back` — a variable read, and a variable written and read

## Design Notes

The reader takes units apart and the writer puts characters together, and neither mentions the
other.  That a written text is read back rests on the range of surrogates: no character is in it,
and the character of a pair is above all single units.
-/

namespace PartitionUnits

open Text

/-! ## Characters as units -/

namespace Utf16

/-- The units of a character: itself, or a pair for what is above all units. -/
def unitsOf (c : Char) : List Nat :=
  if c.toNat < 0x10000 then [c.toNat]
  else [0xD800 + (c.toNat - 0x10000) / 0x400, 0xDC00 + (c.toNat - 0x10000) % 0x400]

/-- The units of a text. -/
def encode (cs : List Char) : List Nat := cs.flatMap unitsOf

variable {u v : Nat} {us : List Nat} {c : Char} {cs : List Char}

theorem isHigh_iff : isHigh u = true ↔ 0xD800 ≤ u ∧ u < 0xDC00 := by simp [isHigh]

theorem isLow_iff : isLow u = true ↔ 0xDC00 ≤ u ∧ u < 0xE000 := by simp [isLow]

/-- A unit that is no half of a pair is read by itself. -/
theorem decode?_single (hhigh : isHigh u = false) (hlow : isLow u = false) (us : List Nat) :
    decode? (u :: us) = (decode? us).map (Char.ofNat u :: ·) := by
  cases us with
  | nil => simp [decode?, hhigh, hlow]
  | cons v rest => simp [decode?, hhigh, hlow]

/-- A pair is read as one character. -/
theorem decode?_pair (hhigh : isHigh u = true) (hlow : isLow v = true) (us : List Nat) :
    decode? (u :: v :: us) =
      (decode? us).map (Char.ofNat (0x10000 + (u - 0xD800) * 0x400 + (v - 0xDC00)) :: ·) := by
  rw [decode?, if_pos hhigh, if_pos hlow]

/-- **The units of a character are read as that character**, whatever follows them. -/
theorem decode?_unitsOf_append (c : Char) (us : List Nat) :
    decode? (unitsOf c ++ us) = (decode? us).map (c :: ·) := by
  have hvalid : c.toNat < 0xD800 ∨ 0xDFFF < c.toNat ∧ c.toNat < 0x110000 := c.valid
  unfold unitsOf
  split
  · have hhigh : isHigh c.toNat = false := by
      rw [Bool.eq_false_iff, ne_eq, isHigh_iff]
      omega
    have hlow : isLow c.toNat = false := by
      rw [Bool.eq_false_iff, ne_eq, isLow_iff]
      omega
    rw [List.singleton_append, decode?_single hhigh hlow, Char.ofNat_toNat]
  · have hhigh : isHigh (0xD800 + (c.toNat - 0x10000) / 0x400) = true := isHigh_iff.mpr (by omega)
    have hlow : isLow (0xDC00 + (c.toNat - 0x10000) % 0x400) = true := isLow_iff.mpr (by omega)
    have hvalue : 0x10000 + (0xD800 + (c.toNat - 0x10000) / 0x400 - 0xD800) * 0x400 +
        (0xDC00 + (c.toNat - 0x10000) % 0x400 - 0xDC00) = c.toNat := by omega
    rw [List.cons_append, List.singleton_append, decode?_pair hhigh hlow, hvalue, Char.ofNat_toNat]

/-- **What a text is encoded to is decoded to that text.** -/
theorem decode?_encode (cs : List Char) : decode? (encode cs) = some cs := by
  induction cs with
  | nil => rfl
  | cons c cs ih => rw [encode, List.flatMap_cons, decode?_unitsOf_append, ← encode, ih]; rfl

theorem toNat_ofNat (h : u.isValidChar) : (Char.ofNat u).toNat = u := by
  rw [Char.ofNat, dif_pos h]
  rfl

/-- A unit that is no half of a pair is what its character is encoded to. -/
theorem unitsOf_single (hu : u < 0x10000) (hhigh : ¬ isHigh u = true) (hlow : ¬ isLow u = true) :
    unitsOf (Char.ofNat u) = [u] := by
  rw [isHigh_iff] at hhigh
  rw [isLow_iff] at hlow
  have hvalid : u.isValidChar := by
    unfold Nat.isValidChar
    omega
  rw [unitsOf, toNat_ofNat hvalid, if_pos hu]

/-- So is a pair. -/
theorem unitsOf_pair (hhigh : isHigh u = true) (hlow : isLow v = true) :
    unitsOf (Char.ofNat (0x10000 + (u - 0xD800) * 0x400 + (v - 0xDC00))) = [u, v] := by
  rw [isHigh_iff] at hhigh
  rw [isLow_iff] at hlow
  have hvalid : (0x10000 + (u - 0xD800) * 0x400 + (v - 0xDC00)).isValidChar := by
    unfold Nat.isValidChar
    omega
  have hfirst : 0xD800 + (0x10000 + (u - 0xD800) * 0x400 + (v - 0xDC00) - 0x10000) / 0x400 = u := by
    omega
  have hsecond :
      0xDC00 + (0x10000 + (u - 0xD800) * 0x400 + (v - 0xDC00) - 0x10000) % 0x400 = v := by
    omega
  rw [unitsOf, toNat_ofNat hvalid, if_neg (by omega), hfirst, hsecond]

/-- **What is decoded to a text is what the text is encoded to.** -/
theorem encode_of_decode? (hus : ∀ u ∈ us, u < 0x10000) (h : decode? us = some cs) :
    encode cs = us := by
  fun_induction decode? us generalizing cs with
  | case1 =>
      cases h
      rfl
  | case2 u hhalf => cases h
  | case3 u hhalf =>
      cases h
      rw [Bool.or_eq_true, not_or] at hhalf
      simp only [encode, List.flatMap_cons, List.flatMap_nil, List.append_nil]
      exact unitsOf_single (hus u List.mem_cons_self) hhalf.1 hhalf.2
  | case4 u v rest hhigh hlow ih =>
      obtain ⟨decoded, hdecoded, rfl⟩ := Option.map_eq_some_iff.mp h
      rw [encode, List.flatMap_cons, unitsOf_pair hhigh hlow, ← encode, ih (by simp_all) hdecoded]
      rfl
  | case5 u v rest hhigh hlow => cases h
  | case6 u v rest hhigh hlow => cases h
  | case7 u v rest hhigh hlow ih =>
      obtain ⟨decoded, hdecoded, rfl⟩ := Option.map_eq_some_iff.mp h
      obtain ⟨hu, hrest⟩ := List.forall_mem_cons.mp hus
      rw [encode, List.flatMap_cons, unitsOf_single hu hhigh hlow, ← encode, ih hrest hdecoded]
      rfl

/-- **The units that are read as a text are those of the text.** -/
theorem decode?_eq_some_iff (hus : ∀ u ∈ us, u < 0x10000) :
    decode? us = some cs ↔ encode cs = us := by
  constructor
  · exact encode_of_decode? hus
  · rintro rfl
    exact decode?_encode cs

/-- **Units begin with a text**, which ends at the first zero or with the units. -/
def BeginWith (us : List Nat) (text : List Char) : Prop :=
  ∃ rest, us = encode text ++ rest ∧ 0 ∉ encode text ∧ (rest = [] ∨ rest.head? = some 0)

/-- The text that units begin with is what is read up to the first zero. -/
theorem beginWith_iff (hus : ∀ u ∈ us, u < 0x10000) :
    BeginWith us cs ↔ decode? (us.takeWhile (· ≠ 0)) = some cs := by
  have htaken : ∀ u ∈ us.takeWhile (· ≠ 0), u < 0x10000 :=
    fun u hu => hus u ((List.takeWhile_prefix _).subset hu)
  rw [decode?_eq_some_iff htaken]
  constructor
  · rintro ⟨rest, rfl, hzero, hrest⟩
    have hkeep : ∀ u ∈ encode cs, decide (u ≠ 0) = true :=
      fun u hu => decide_eq_true (ne_of_mem_of_not_mem hu hzero)
    have hstop : rest.takeWhile (· ≠ 0) = [] := by
      rcases hrest with rfl | hrest
      · rfl
      · obtain ⟨behind, rfl⟩ := List.head?_eq_some_iff.mp hrest
        exact List.takeWhile_cons_of_neg (by decide)
    rw [List.takeWhile_append_of_pos hkeep, hstop, List.append_nil]
  · intro h
    refine ⟨us.dropWhile (· ≠ 0), ?_, ?_, ?_⟩
    · rw [h, List.takeWhile_append_dropWhile]
    · rw [h]
      intro hzero
      have hkept := List.mem_takeWhile_imp hzero
      exact of_decide_eq_true hkept rfl
    · have hhead := List.head?_dropWhile_not (· ≠ 0) us
      cases hrest : us.dropWhile (· ≠ 0) with
      | nil => exact Or.inl rfl
      | cons u behind =>
          rw [hrest] at hhead
          exact Or.inr (congrArg some (Decidable.not_not.mp (of_decide_eq_false hhead)))

/-- Only the character zero has a unit that is zero. -/
theorem zero_notMem_encode (h : '\x00' ∉ cs) : 0 ∉ encode cs := by
  rw [encode, List.mem_flatMap]
  rintro ⟨c, hc, hunit⟩
  apply h
  have hzero : c.toNat = 0 := by
    unfold unitsOf at hunit
    split at hunit
    · exact (List.mem_singleton.mp hunit).symm
    · simp only [List.mem_cons, List.not_mem_nil, or_false] at hunit
      omega
  have hnul : c = '\x00' := Char.toNat_inj.mp hzero
  rwa [← hnul]

theorem lt_of_mem_encode (hu : u ∈ encode cs) : u < 0x10000 := by
  obtain ⟨c, -, hunit⟩ := List.mem_flatMap.mp hu
  have hvalid : c.toNat < 0xD800 ∨ 0xDFFF < c.toNat ∧ c.toNat < 0x110000 := c.valid
  unfold unitsOf at hunit
  split at hunit
  · rw [List.mem_singleton.mp hunit]
    assumption
  · simp only [List.mem_cons, List.not_mem_nil, or_false] at hunit
    omega

end Utf16

/-! ## Variables -/

namespace FirmwareVariable

open Utf16

variable {guids : Guid.Reader} {raw attributes : Octets} {u : Nat} {us : List Nat} {text : String}
  {g : Guid}

/-- A unit as two octets, the less significant one first. -/
def octetsOf (u : Nat) : Octets := [UInt8.ofNat u, UInt8.ofNat (u / 256)]

/-- Units as octets. -/
def octets (us : List Nat) : Octets := us.flatMap octetsOf

theorem lt_of_mem_units (hu : u ∈ units raw) : u < 0x10000 := by
  fun_induction units raw with
  | case1 a b rest ih =>
      rcases List.mem_cons.mp hu with rfl | hu
      · have ha := a.toNat_lt
        have hb := b.toNat_lt
        omega
      · exact ih hu
  | case2 => cases hu

/-- **Units are read back from their octets.** -/
theorem units_octets_append (hus : ∀ u ∈ us, u < 0x10000) (rest : Octets) :
    units (octets us ++ rest) = us ++ units rest := by
  induction us with
  | nil => rfl
  | cons u us ih =>
      obtain ⟨hu, hus⟩ := List.forall_mem_cons.mp hus
      have hvalue : (UInt8.ofNat u).toNat + 256 * (UInt8.ofNat (u / 256)).toNat = u := by
        rw [UInt8.toNat_ofNat', UInt8.toNat_ofNat']
        omega
      rw [octets, List.flatMap_cons, octetsOf, List.append_assoc, List.cons_append,
        List.singleton_append, units, hvalue, ← octets, ih hus]
      rfl

theorem length_octets (us : List Nat) : (octets us).length = 2 * us.length := by
  induction us with
  | nil => rfl
  | cons u us ih =>
      rw [octets, List.flatMap_cons, List.length_append, ← octets, ih, octetsOf]
      simp only [List.length_cons, List.length_nil]
      omega

/-- **A variable holds a GUID** just if it has four octets of attributes and whole units behind
them, and these begin with a text that spells the GUID. -/
theorem guid_eq_ok_iff : guid guids raw = .ok g ↔ 4 ≤ raw.length ∧ raw.length % 2 = 0 ∧
    ∃ text : String, BeginWith (units (raw.drop 4)) text.toList ∧
      Guid.parse? guids text = some g := by
  have hbegin : ∀ text : String, BeginWith (units (raw.drop 4)) text.toList ↔
      decode? ((units (raw.drop 4)).takeWhile (· ≠ 0)) = some text.toList :=
    fun _ => beginWith_iff fun _ => lt_of_mem_units
  simp only [hbegin]
  unfold guid
  simp only [attributeSize, List.length_drop]
  constructor
  · intro h
    split at h
    · cases h
    next hlong =>
    split at h
    · cases h
    next heven =>
    split at h
    · cases h
    next cs hdecoded =>
    split at h
    · next found hparse =>
        cases h
        refine ⟨by omega, by omega, String.ofList cs, ?_, hparse⟩
        rw [hdecoded, String.toList_ofList]
    · cases h
  · rintro ⟨hlong, heven, text, hdecoded, hparse⟩
    rw [if_neg (by omega), if_neg (by omega), hdecoded]
    simp only [String.ofList_toList, hparse]

/-- A variable whose payload begins with a spelling holds its GUID, if the payload ends there or
goes on with a zero. -/
theorem guid_of_octets (hguids : guids.IsDocumented) (hattributes : attributes.length = 4)
    (hparse : Guid.parse? guids text = some g)
    {behind : Octets} (hbehind : units behind = [] ∨ (units behind).head? = some 0)
    (heven : behind.length % 2 = 0) :
    guid guids (attributes ++ octets (Utf16.encode text.toList) ++ behind) = .ok g := by
  have hpayload : (attributes ++ octets (Utf16.encode text.toList) ++ behind).drop 4 =
      octets (Utf16.encode text.toList) ++ behind := by
    rw [List.append_assoc, ← hattributes, List.drop_left]
  have hzero : 0 ∉ Utf16.encode text.toList :=
    zero_notMem_encode (Guid.nul_notMem_of_parse? hguids hparse)
  rw [guid_eq_ok_iff, hpayload, units_octets_append fun _ => lt_of_mem_encode]
  refine ⟨?_, ?_, text, ⟨units behind, rfl, hzero, hbehind⟩, hparse⟩
  · simp only [List.length_append, hattributes]
    omega
  · simp only [List.length_append, hattributes, length_octets]
    omega

/-- The boot loader names no partition just if its variable can be asked for and does not exist. -/
theorem loaderPartition_eq_none_iff {w : World} : w.loaderPartition = .ok none ↔
    w.refusals.refusal? .opening World.loaderVariable = none ∧
      w.tree.find true World.loaderVariable = .error .notFound := by
  have hopened : w.readOctets World.loaderVariable = .error .notFound ↔
      w.refusals.answer .opening World.loaderVariable (w.tree.find true World.loaderVariable) =
        .error .notFound := by
    unfold World.readOctets World.opened
    cases w.refusals.answer .opening World.loaderVariable
        (w.tree.find true World.loaderVariable) with
    | error e => simp [bind, Except.bind]
    | ok e =>
        cases e with
        | directory mode | link target => simp [bind, Except.bind, Except.map]
        | file mode content =>
            cases hread : w.refusals.answer .reading World.loaderVariable (.ok content) with
            | ok content => simp [bind, Except.bind, Except.map, hread]
            | error e =>
                have hne : e ≠ .notFound := by
                  rintro rfl
                  cases (Refusals.answer_eq_notFound_iff.mp hread).2
                simpa [bind, Except.bind, Except.map, hread] using hne
  rw [← Refusals.answer_eq_notFound_iff, ← hopened]
  unfold World.loaderPartition
  cases w.readOctets World.loaderVariable with
  | error e => cases e <;> simp
  | ok raw => cases hguid : guid w.readers.guids raw <;> simp [hguid]

/-- **A GUID is read from a variable just if the variable begins with a spelling of it.**  So every
spelling that is written into a variable, behind any four octets of attributes, is read back, and
that also if a zero ends it and any even number of octets follows.  Among the spellings are the 32
digits of any GUID in each form, with blanks around them.  A variable that is garbled or cannot be
read is not taken for one that is missing. -/
theorem guid_read_back (guids : Guid.Reader) (hguids : guids.IsDocumented) :
    (∀ raw g, guid guids raw = .ok g ↔ 4 ≤ raw.length ∧ raw.length % 2 = 0 ∧
      ∃ text : String, BeginWith (units (raw.drop 4)) text.toList ∧
        Guid.parse? guids text = some g) ∧
    (∀ attributes text g, attributes.length = 4 → Guid.parse? guids text = some g →
      guid guids (attributes ++ octets (Utf16.encode text.toList)) = .ok g ∧
        ∀ behind, behind.length % 2 = 0 →
          guid guids (attributes ++ octets (Utf16.encode text.toList) ++ 0 :: 0 :: behind) =
            .ok g) ∧
    (∀ (form : Guid.Form) (digits : List Char) (text : String) (g : Guid),
      Guid.ofDigits? digits = some g → IsPadded (form.write digits) text.toList →
        Guid.parse? guids text = some g) ∧
    ∀ w : World, w.loaderPartition = .ok none ↔
      w.refusals.refusal? .opening World.loaderVariable = none ∧
        w.tree.find true World.loaderVariable = .error .notFound := by
  refine ⟨fun _ _ => guid_eq_ok_iff, fun attributes text g hattributes hparse => ⟨?_, ?_⟩,
    fun form digits text g hdigits hpadded => ?_, fun _ => loaderPartition_eq_none_iff⟩
  · have hended : guid guids (attributes ++ octets (Utf16.encode text.toList) ++ []) = .ok g :=
      guid_of_octets hguids hattributes hparse (Or.inl rfl) rfl
    rwa [List.append_nil] at hended
  · intro behind heven
    refine guid_of_octets hguids hattributes hparse (Or.inr rfl) ?_
    simp only [List.length_cons]
    omega
  · have hparse := Guid.parse?_of_isPadded hguids form hdigits hpadded
    rwa [String.ofList_toList] at hparse

/-- A GUID in braces and upper case, with half a pair behind the zero that ends it. -/
theorem guid_read_back_braces :
    let text := " \x7b8A3F2F63-6D8D-4E8B-9B07-5C1F0C6F3A10\x7d"
    let g : Guid := ⟨0x8a3f2f636d8d4e8b9b075c1f0c6f3a10#128⟩
    Guid.Reader.IsDocumented Guid.readForms ∧ [6, 0, 0, 0].length = 4 ∧
      Guid.parse? Guid.readForms text = some g ∧ [0x00, 0xD8].length % 2 = 0 ∧
      guid Guid.readForms
        ([6, 0, 0, 0] ++ octets (Utf16.encode text.toList) ++ [0, 0, 0x00, 0xD8]) = .ok g := by
  intro text g
  obtain ⟨-, hwritten, hforms, -⟩ :=
    guid_read_back Guid.readForms Guid.readForms_isDocumented
  have hparse : Guid.parse? Guid.readForms text = some g :=
    hforms .braced "8A3F2F636D8D4E8B9B075C1F0C6F3A10".toList text g (by decide +kernel)
      ⟨[' '], [], by decide, by decide, by decide +kernel⟩
  exact ⟨Guid.readForms_isDocumented, rfl, hparse, rfl,
    (hwritten [6, 0, 0, 0] text g rfl hparse).2 [0x00, 0xD8] rfl⟩

end FirmwareVariable

end PartitionUnits
