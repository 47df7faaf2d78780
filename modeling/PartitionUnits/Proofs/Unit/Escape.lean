import PartitionUnits.Guid
import PartitionUnits.Proofs.Path
import PartitionUnits.Proofs.Unit.Name

/-!
# Escaped names read back

What a text has become as part of a unit name can be read back, so no two texts become the same.

## Main Definitions

* `Text.encode_injective` — no two texts have the same octets
* `UnitName.unescape` — the octets that an escaped text stands for
* `UnitName.unescape_escapeOctets` — they are those that were escaped
* `UnitName.escape_injective` — no two texts are escaped to the same
* `UnitName.segments_of_escapePath` — a path that is escaped like a name has that name alone

## Design Notes

Every octet is escaped to one character, or to four of which the first is a backslash.  A backslash
is never left as it is, so the reader needs to look no further than that character.
-/

namespace PartitionUnits

/-- **No two texts have the same octets.** -/
theorem Text.encode_injective {cs cs' : List Char} (h : encode cs = encode cs') : cs = cs' := by
  have hbytes : cs.utf8Encode = cs'.utf8Encode := congrArg List.toByteArray h
  have hread := congrArg ByteArray.utf8Decode? hbytes
  rw [List.utf8Decode?_utf8Encode, List.utf8Decode?_utf8Encode] at hread
  exact congrArg Array.toList (Option.some.inj hread)

namespace UnitName

theorem toList_escape (s : String) : (escape s).toList = escapeOctets (Text.encode s.toList) :=
  String.toList_ofList

/-! ## Reading octets -/

/-- The octet that two digits of base 16 stand for. -/
def octetOf (high low : Char) : UInt8 := UInt8.ofNat ((Guid.readHex 0 [high, low]).getD 0)

/-- The octet that a character stands for by itself. -/
def plainOctet (c : Char) : UInt8 := if c = '-' then slash else UInt8.ofNat c.toNat

/-- **The octets that an escaped text stands for.** -/
def unescape : List Char → List UInt8
  | '\\' :: 'x' :: high :: low :: rest => octetOf high low :: unescape rest
  | c :: rest => plainOctet c :: unescape rest
  | [] => []

theorem octetOf_digits (b : UInt8) :
    octetOf (Nat.digitChar (b.toNat / 16)) (Nat.digitChar (b.toNat % 16)) = b := by
  revert b
  exact octet_all (by decide +kernel)

/-- An octet that stands for itself is neither a hyphen nor a backslash. -/
theorem plainOctet_ofNat {b : UInt8} (h : isPlain b = true) :
    Char.ofNat b.toNat ≠ '\\' ∧ plainOctet (Char.ofNat b.toNat) = b :=
  octet_all (P := fun b => isPlain b = true →
    Char.ofNat b.toNat ≠ '\\' ∧ plainOctet (Char.ofNat b.toNat) = b) (by decide +kernel) b h

theorem unescape_cons {c : Char} (h : c ≠ '\\') (rest : List Char) :
    unescape (c :: rest) = plainOctet c :: unescape rest := by
  rw [unescape]
  rintro high low rest' rfl
  exact absurd rfl h

theorem unescape_escapeByValue (b : UInt8) (rest : List Char) :
    unescape (escapeByValue b ++ rest) = b :: unescape rest := by
  show octetOf _ _ :: unescape rest = _
  rw [octetOf_digits]

theorem unescape_escapeOctet (b : UInt8) (rest : List Char) :
    unescape (escapeOctet b ++ rest) = b :: unescape rest := by
  unfold escapeOctet
  split
  · next hslash =>
      rw [hslash]
      exact unescape_cons (by decide) rest
  split
  · next hplain =>
      obtain ⟨hne, hoctet⟩ := plainOctet_ofNat hplain
      rw [List.singleton_append, unescape_cons hne, hoctet]
  · exact unescape_escapeByValue b rest

theorem unescape_escapeFirst (b : UInt8) (rest : List Char) :
    unescape (escapeFirst b ++ rest) = b :: unescape rest := by
  unfold escapeFirst
  split
  · exact unescape_escapeByValue b rest
  · exact unescape_escapeOctet b rest

theorem unescape_flatMap_append (bs : List UInt8) (rest : List Char) :
    unescape (bs.flatMap escapeOctet ++ rest) = bs ++ unescape rest := by
  induction bs with
  | nil => rfl
  | cons b bs ih =>
      rw [List.flatMap_cons, List.append_assoc, unescape_escapeOctet, ih, List.cons_append]

/-- **What was escaped can be read back.** -/
theorem unescape_escapeOctets (bs : List UInt8) : unescape (escapeOctets bs) = bs := by
  cases bs with
  | nil => rfl
  | cons b rest =>
      rw [escapeOctets, unescape_escapeFirst, ← List.append_nil (rest.flatMap escapeOctet),
        unescape_flatMap_append, unescape, List.append_nil]

/-- **No two texts are escaped to the same.** -/
theorem escape_injective {s s' : String} (h : escape s = escape s') : s = s' := by
  have hoctets := congrArg (fun name => unescape name.toList) h
  simp only [toList_escape, unescape_escapeOctets] at hoctets
  exact String.toList_inj.mp (Text.encode_injective hoctets)

/-! ## Paths -/

/-- **A path whose escaped form is that of a single name** has that name as its only piece. -/
theorem segments_of_escapePath {path name : String} (hname : '/' ∉ name.toList)
    (h : escapePath path = .ok (escape name)) :
    path.toList.head? = some '/' ∧ segments path = [name.toList] := by
  unfold escapePath at h
  split at h
  · cases h
  next hhead =>
  refine ⟨not_not.mp hhead, ?_⟩
  split at h
  · cases h
  split at h
  · -- The root directory is escaped like a lone slash.
    have hroot : escape "/" = escape name := (Except.ok.inj h)
    rw [← escape_injective hroot] at hname
    exact absurd List.mem_cons_self hname
  · next hnil =>
      have hjoined := congrArg String.toList (escape_injective (Except.ok.inj h))
      rw [String.toList_ofList] at hjoined
      generalize segments path = pieces at hjoined hnil
      rcases pieces with _ | ⟨first, _ | ⟨second, rest⟩⟩
      · exact absurd rfl hnil
      · rw [← hjoined]
        simp [List.intercalate]
      · rw [← hjoined] at hname
        exact absurd (by simp [List.intercalate]) hname

end UnitName

end PartitionUnits
