import Mathlib.Order.Basic
import PartitionUnits.FileSystem.Tree

/-!
# Trees as partial maps

What adding and removing an entry does to the rest of a tree.

## Main Definitions

* `Tree.WellFormed` — every entry lies in a directory
* `t ≤ t'` — `t'` has everything that `t` has
* `Tree.KeepsWays` — `t'` has every directory and every link of `t`

## Design Notes

A tree is read through `Tree.entry?`, and the lemmas here are all that later proofs know about how
it is stored.  Two orders are needed.  What has been made by one call accumulates along `≤`.
Whether a path still leads to the same place depends on less: a walk that ends at a directory
passes only directories and links, so regular files may come and go beside it.
-/

namespace PartitionUnits

namespace Tree

variable {t t' t'' : Tree} {l l' : Location} {e : Entry}

/-! ## Looking up after a change -/

theorem entry?_of_ne_nil (h : l ≠ []) : t.entry? l = t.entries.lookup l := if_neg h

/-- The locations that hold nothing are those that no entry stands beside. -/
theorem entry?_eq_none_iff (h : l ≠ []) :
    t.entry? l = none ↔ l ∉ t.entries.map Prod.fst := by
  rw [entry?_of_ne_nil h, List.lookup_eq_none_iff]
  constructor
  · intro hno hmem
    obtain ⟨x, hx, rfl⟩ := List.mem_map.mp hmem
    simpa using hno x hx
  · intro hno x hx
    have hne : l ≠ x.1 := by
      rintro rfl
      exact hno (List.mem_map_of_mem hx)
    simpa using hne

theorem ne_nil_of_entry?_eq_none (h : t.entry? l = none) : l ≠ [] := by
  rintro rfl
  simp at h

/-- What lies at one location and not at another tells them apart. -/
theorem ne_of_vacant (h : t.entry? l = some e) (hvacant : t.entry? l' = none) : l ≠ l' := by
  rintro rfl
  rw [hvacant] at h
  cases h

theorem entry?_erase_self (h : l ≠ []) : entry? (t.erase l) l = none := by
  rw [entry?_eq_none_iff h]
  intro hmem
  obtain ⟨x, hx, hxl⟩ := List.mem_map.mp hmem
  have hne := (List.mem_filter.mp hx).2
  simp [hxl] at hne

theorem entry?_erase_of_ne (h : l' ≠ l) : entry? (t.erase l) l' = t.entry? l' := by
  by_cases hnil : l' = []
  · rw [hnil, entry?_root, entry?_root]
  rw [entry?_of_ne_nil hnil, entry?_of_ne_nil hnil]
  unfold erase
  induction t.entries with
  | nil => rfl
  | cons x rest ih =>
      obtain ⟨k, v⟩ := x
      by_cases hk : k = l
      · -- The pair is dropped, and it was not the one looked for.
        have hkl' : (l' == k) = false := by simpa [hk] using h
        simp only [List.lookup_cons, hkl']
        simpa [hk] using ih
      · simp only [ne_eq, hk, not_false_eq_true, decide_true, List.filter_cons_of_pos,
          List.lookup_cons]
        split
        · rfl
        · exact ih

theorem entry?_insert_self (h : l ≠ []) : entry? (t.insert l e) l = some e := by
  rw [entry?_of_ne_nil h]
  simp [insert]

theorem entry?_insert_of_ne (h : l' ≠ l) : entry? (t.insert l e) l' = t.entry? l' := by
  by_cases hnil : l' = []
  · rw [hnil, entry?_root, entry?_root]
  have hb : (l' == l) = false := by simpa using h
  calc entry? (t.insert l e) l' = entry? (t.erase l) l' := by
        rw [entry?_of_ne_nil hnil, entry?_of_ne_nil hnil]
        simp [insert, List.lookup_cons, hb]
    _ = t.entry? l' := entry?_erase_of_ne h

/-- What is in a tree with a new entry is that entry or was there before. -/
theorem entry?_insert_eq_some {e' : Entry} (hl : l ≠ [])
    (h : entry? (t.insert l e) l' = some e') :
    l' = l ∧ e' = e ∨ l' ≠ l ∧ t.entry? l' = some e' := by
  by_cases heq : l' = l
  · subst heq
    rw [entry?_insert_self hl] at h
    exact Or.inl ⟨rfl, (Option.some.inj h).symm⟩
  · rw [entry?_insert_of_ne heq] at h
    exact Or.inr ⟨heq, h⟩

theorem isDirectoryAt_iff :
    t.isDirectoryAt l = true ↔ ∃ mode, t.entry? l = some (.directory mode) := by
  unfold isDirectoryAt
  cases h : t.entry? l with
  | none => simp
  | some e => cases e <;> simp [Entry.isDirectory]

/-- A directory is not where a regular file is. -/
theorem isDirectoryAt_eq_false {mode : Nat} {content : Content}
    (h : t.entry? l = some (.file mode content)) : t.isDirectoryAt l = false := by
  simp [isDirectoryAt, h, Entry.isDirectory]

theorem isDirectoryAt_congr (h : t.entry? l = t'.entry? l) :
    t.isDirectoryAt l = t'.isDirectoryAt l := by
  rw [isDirectoryAt, isDirectoryAt, h]

/-! ## Undoing a change -/

/-- Replacing an entry that was just added is adding the other one. -/
theorem insert_insert (e' : Entry) : (t.insert l e).insert l e' = t.insert l e' := by
  simp [insert, erase]

/-- Changes at different locations do not depend on their order. -/
theorem erase_insert_of_ne (h : l' ≠ l) : (t.insert l' e).erase l = (t.erase l).insert l' e := by
  simp only [insert, erase, ne_eq, decide_not, List.filter_cons, h, decide_false, Bool.not_false,
    if_true, List.filter_filter, Tree.mk.injEq, List.cons.injEq, true_and]
  congr 1
  funext x
  exact Bool.and_comm _ _

/-- Removing what was added where nothing was gives back the tree. -/
theorem erase_insert_of_vacant (h : t.entry? l = none) : (t.insert l e).erase l = t :=
  erase_insert e ((entry?_eq_none_iff (ne_nil_of_entry?_eq_none h)).mp h)

/-- Removing what was added gives back the tree, with what was added elsewhere since. -/
theorem erase_insert_insert {e' : Entry} (h : t.entry? l = none) (hne : l' ≠ l) :
    ((t.insert l e).insert l' e').erase l = t.insert l' e' := by
  rw [erase_insert_of_ne hne, erase_insert_of_vacant h]

/-! ## What lies in a directory -/

/-- A directory is empty if nothing is at a location one name below it. -/
theorem names_eq_nil_iff : t.names l = [] ↔ ∀ name, t.entry? (l ++ [name]) = none := by
  constructor
  · intro hnames name
    rw [entry?_eq_none_iff (by simp)]
    intro hmem
    obtain ⟨x, hx, hxl⟩ := List.mem_map.mp hmem
    have hname : name ∈ t.names l := by
      refine List.mem_filterMap.mpr ⟨x, hx, ?_⟩
      simp [hxl]
    rw [hnames] at hname
    exact absurd hname List.not_mem_nil
  · intro hnone
    rw [names, List.filterMap_eq_nil_iff]
    intro x hx
    obtain ⟨k, v⟩ := x
    rcases List.eq_nil_or_concat k with rfl | ⟨d, name, rfl⟩
    · simp
    · have hd : d ≠ l := by
        rintro rfl
        exact (entry?_eq_none_iff (by simp)).mp (hnone name)
          (List.mem_map.mpr ⟨_, hx, by simp⟩)
      simp [hd]

/-! ## Well-formed trees -/

/-- **Every entry lies in a directory.**  This is what makes a tree the state of a file system; no
step leads out of it. -/
structure WellFormed (t : Tree) : Prop where
  parent : ∀ {d : Location} {name : Name} {e : Entry},
    t.entry? (d ++ [name]) = some e → t.isDirectoryAt d = true

namespace WellFormed

variable {d : Location} {name : Name}

/-- A tree is well-formed if all that is listed in it lies in directories. -/
theorem of_entries (h : ∀ x ∈ t.entries, t.isDirectoryAt x.1.dropLast = true) :
    t.WellFormed where
  parent := by
    intro d name e hentry
    rw [entry?_of_ne_nil (by simp), List.lookup_eq_some_iff] at hentry
    obtain ⟨before, after, hentries, -⟩ := hentry
    have hdir := h (d ++ [name], e) (hentries ▸ List.mem_append_right _ List.mem_cons_self)
    rwa [List.dropLast_concat] at hdir

/-- Nothing lies below what is not a directory. -/
theorem entry?_eq_none (h : t.WellFormed) (hd : t.isDirectoryAt d = false) (name : Name) :
    t.entry? (d ++ [name]) = none := by
  cases hentry : t.entry? (d ++ [name]) with
  | none => rfl
  | some e => rw [h.parent hentry] at hd; contradiction

/-- Adding an entry in a directory where nothing was keeps a tree well-formed. -/
theorem insert (h : t.WellFormed) (hd : t.isDirectoryAt d = true)
    (hvacant : t.entry? (d ++ [name]) = none) : (t.insert (d ++ [name]) e).WellFormed where
  parent := by
    intro d' name' e' hentry
    have hdir : t.isDirectoryAt d' = true := by
      rcases entry?_insert_eq_some (by simp) hentry with ⟨hl, -⟩ | ⟨-, hold⟩
      · rw [(List.append_inj' hl rfl).1]
        exact hd
      · exact h.parent hold
    obtain ⟨mode, hmode⟩ := isDirectoryAt_iff.mp hdir
    rw [isDirectoryAt_congr (entry?_insert_of_ne (ne_of_vacant hmode hvacant))]
    exact hdir

/-- Removing an entry with nothing below it keeps a tree well-formed. -/
theorem erase (h : t.WellFormed) (hempty : ∀ name, t.entry? (l ++ [name]) = none) :
    (t.erase l).WellFormed where
  parent := by
    intro d name e hentry
    by_cases hl : d ++ [name] = l
    · rw [hl, entry?_erase_self (by simp [← hl])] at hentry
      cases hentry
    · rw [entry?_erase_of_ne hl] at hentry
      have hd : d ≠ l := by
        rintro rfl
        exact absurd rfl (ne_of_vacant hentry (hempty name))
      rw [isDirectoryAt_congr (entry?_erase_of_ne hd)]
      exact h.parent hentry

/-- A location with a directory is in a directory itself. -/
theorem isDirectoryAt_dropLast (h : t.WellFormed) (hd : t.isDirectoryAt d = true) :
    t.isDirectoryAt d.dropLast = true := by
  rcases List.eq_nil_or_concat d with rfl | ⟨d', name, rfl⟩
  · exact hd
  · obtain ⟨mode, hmode⟩ := isDirectoryAt_iff.mp hd
    rw [List.concat_eq_append] at hmode ⊢
    rw [List.dropLast_concat]
    exact h.parent hmode

/-- What lies below a vacant location is vacant. -/
theorem vacant_below (h : t.WellFormed) (hvacant : t.entry? l = none) (name : Name) :
    t.entry? (l ++ [name]) = none := by
  refine h.entry?_eq_none ?_ name
  simp [isDirectoryAt, hvacant]

/-- Nothing is at any depth below a vacant location. -/
theorem vacant_beneath (h : t.WellFormed) (hvacant : t.entry? l = none) (l' : Location) :
    t.entry? (l ++ l') = none := by
  induction l' generalizing l with
  | nil => rwa [List.append_nil]
  | cons name rest ih =>
      rw [List.append_cons]
      exact ih (h.vacant_below hvacant name)

end WellFormed

/-! ## Growing trees -/

instance : Preorder Tree where
  le t t' := ∀ l e, t.entry? l = some e → t'.entry? l = some e
  le_refl _ _ _ h := h
  le_trans _ _ _ h h' l e he := h' l e (h l e he)

theorem entry?_of_le (h : t ≤ t') (he : t.entry? l = some e) : t'.entry? l = some e := h l e he

theorem entry?_eq_none_of_le (h : t ≤ t') (hnone : t'.entry? l = none) : t.entry? l = none := by
  cases he : t.entry? l with
  | none => rfl
  | some e => rw [entry?_of_le h he] at hnone; contradiction

theorem isDirectoryAt_of_le (h : t ≤ t') (hd : t.isDirectoryAt l = true) :
    t'.isDirectoryAt l = true := by
  obtain ⟨mode, hmode⟩ := isDirectoryAt_iff.mp hd
  exact isDirectoryAt_iff.mpr ⟨mode, entry?_of_le h hmode⟩

theorem le_insert (h : t.entry? l = none) : t ≤ t.insert l e := by
  intro l' e' he'
  rw [entry?_insert_of_ne (ne_of_vacant he' h)]
  exact he'

theorem le_erase_of_le (h : t ≤ t') (hnone : t.entry? l = none) : t ≤ t'.erase l := by
  intro l' e' he'
  rw [entry?_erase_of_ne (ne_of_vacant he' hnone)]
  exact h l' e' he'

theorem erase_le : t.erase l ≤ t := by
  intro l' e' he'
  by_cases hl : l' = l
  · subst hl
    by_cases hnil : l' = []
    · simpa [hnil] using he'
    · rw [entry?_erase_self hnil] at he'
      cases he'
  · rwa [entry?_erase_of_ne hl] at he'

/-! ## Trees with the same ways -/

/-- **Every directory and every link of `t` is in `t'`.**  Walks that end at a directory pass
nothing else. -/
def KeepsWays (t t' : Tree) : Prop :=
  ∀ l e, (∀ mode content, e ≠ .file mode content) → t.entry? l = some e → t'.entry? l = some e

namespace KeepsWays

theorem of_le (h : t ≤ t') : t.KeepsWays t' := fun l e _ he => h l e he

theorem trans (h : t.KeepsWays t') (h' : t'.KeepsWays t'') : t.KeepsWays t'' :=
  fun l e hfile he => h' l e hfile (h l e hfile he)

theorem isDirectoryAt (h : t.KeepsWays t') (hd : t.isDirectoryAt l = true) :
    t'.isDirectoryAt l = true := by
  obtain ⟨mode, hmode⟩ := isDirectoryAt_iff.mp hd
  exact isDirectoryAt_iff.mpr ⟨mode, h l _ (by simp) hmode⟩

/-- A regular file that was added opens no way. -/
theorem of_insert_file {mode : Nat} {content : Content} (hl : l ≠ []) :
    (t.insert l (.file mode content)).KeepsWays t := by
  intro l' e' hfile he'
  rcases entry?_insert_eq_some hl he' with ⟨-, rfl⟩ | ⟨-, hold⟩
  · exact absurd rfl (hfile mode content)
  · exact hold

/-- A regular file that was removed closes no way. -/
theorem of_erase_file {mode : Nat} {content : Content}
    (h : t.entry? l = some (.file mode content)) : t.KeepsWays (t.erase l) := by
  intro l' e' hfile he'
  have hne : l' ≠ l := by
    rintro rfl
    rw [h] at he'
    exact hfile mode content (Option.some.inj he').symm
  rw [entry?_erase_of_ne hne]
  exact he'

end KeepsWays

end Tree

end PartitionUnits
