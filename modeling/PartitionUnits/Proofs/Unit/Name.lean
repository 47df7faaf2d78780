import PartitionUnits.Unit.Name

/-!
# Slashes in unit names

A unit name is a single name in a directory, whatever it was made from.

## Main Definitions

* `UnitName.octet_all` — what holds for the octets of all numbers up to 255 holds for every octet
* `UnitName.slash_notMem_escape` — a text as part of a unit name has no slash
* `UnitName.slash_notMem_ofPath` — nor has the unit for a path
-/

namespace PartitionUnits

namespace UnitName

/-- A statement about octets is checked one number after the other. -/
theorem octet_all {P : UInt8 → Prop} (h : ∀ n < 256, P (UInt8.ofNat n)) (b : UInt8) : P b := by
  have hb := h b.toNat b.toNat_lt
  rwa [UInt8.ofNat_toNat] at hb

/-- A character of an escaped text stands there for an octet. -/
theorem exists_of_mem_escape {s : String} {c : Char} (h : c ∈ (escape s).toList) :
    ∃ b, c ∈ escapeFirst b ∨ c ∈ escapeOctet b := by
  rw [escape, String.toList_ofList] at h
  cases hoctets : Text.encode s.toList with
  | nil =>
      rw [hoctets] at h
      cases h
  | cons b rest =>
      rw [hoctets, escapeOctets, List.mem_append] at h
      rcases h with hfirst | hrest
      · exact ⟨b, Or.inl hfirst⟩
      · obtain ⟨b', -, hmem⟩ := List.mem_flatMap.mp hrest
        exact ⟨b', Or.inr hmem⟩

theorem slash_notMem_escapeOctet (b : UInt8) :
    '/' ∉ escapeFirst b ∧ '/' ∉ escapeOctet b := by
  revert b
  exact octet_all (by decide +kernel)

/-- **A text as part of a unit name has no slash.** -/
theorem slash_notMem_escape (s : String) : '/' ∉ (escape s).toList := by
  intro h
  obtain ⟨b, hfirst | hrest⟩ := exists_of_mem_escape h
  · exact (slash_notMem_escapeOctet b).1 hfirst
  · exact (slash_notMem_escapeOctet b).2 hrest

theorem slash_notMem_append {s s' : String} (h : '/' ∉ s.toList) (h' : '/' ∉ s'.toList) :
    '/' ∉ (s ++ s').toList := by
  rw [String.toList_append, List.mem_append]
  rintro (hmem | hmem)
  · exact h hmem
  · exact h' hmem

theorem slash_notMem_escapePath {path name : String} (h : escapePath path = .ok name) :
    '/' ∉ name.toList := by
  unfold escapePath at h
  split at h
  · cases h
  split at h
  · cases h
  split at h
  · rw [← Except.ok.inj h]
    decide
  · rw [← Except.ok.inj h]
    exact slash_notMem_escape _

/-- The unit for a path has the escaped path and the suffix as its name. -/
theorem ofPath_eq_ok {path suffix name : String} (h : ofPath path suffix = .ok name) :
    ∃ escaped, escapePath path = .ok escaped ∧ name = escaped ++ suffix := by
  unfold ofPath at h
  cases hescape : escapePath path with
  | error e => simp [hescape, Except.map] at h
  | ok escaped =>
      rw [hescape] at h
      cases h
      exact ⟨escaped, rfl, rfl⟩

/-- The suffix of a unit's name tells nothing of the path. -/
theorem ofPath_eq_ok_append_iff {path suffix escaped : String} :
    ofPath path suffix = .ok (escaped ++ suffix) ↔ escapePath path = .ok escaped := by
  constructor
  · intro h
    obtain ⟨escaped', hescape, hname⟩ := ofPath_eq_ok h
    have hchars := congrArg String.toList hname
    rw [String.toList_append, String.toList_append] at hchars
    rwa [String.toList_inj.mp (List.append_cancel_right hchars)]
  · intro h
    rw [ofPath, h]
    rfl

/-- **The unit for a path has no slash in its name.** -/
theorem slash_notMem_ofPath {path suffix name : String} (h : ofPath path suffix = .ok name)
    (hsuffix : '/' ∉ suffix.toList) : '/' ∉ name.toList := by
  obtain ⟨escaped, hescape, rfl⟩ := ofPath_eq_ok h
  exact slash_notMem_append (slash_notMem_escapePath hescape) hsuffix

end UnitName

end PartitionUnits
