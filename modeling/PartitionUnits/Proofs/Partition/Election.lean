import Mathlib.Data.List.Chain
import PartitionUnits.Partition.Election
import PartitionUnits.Proofs.Attempt

/-!
# Who is elected

The election against its reference: of the partitions that may serve a rule, the one of the lowest
number is elected, unless two of them claim one number.

## Main Definitions

* `Eligible` — a partition may serve a rule, and as what
* `Gathers` — the assignments of all partitions that may serve a rule, in their order
* `isSome_winner?_iff`, `winner?_eq_some` — the winner among given assignments
* `elect_reference` — the elected partitions of all rules

## Design Notes

`Eligible` lists what is asked of a partition without the order in which it is asked, and it looks
at one rule at a time, where the election finds the rule by the type of the partition.  That the
two agree needs that no two rules have one type.  Clashes are looked for between neighbours only;
that no clash is missed rests on the order of the candidates, which is `firstClash?_ranked`.
-/

namespace PartitionUnits

open Device (Block)
open PartitionUnits.Partition (Table Entry)

variable {guids : Guid.Reader} {root : Device.Number} {disk : Block} {table : Table} {r : Rule}
  {b : Block} {a a' : Assignment} {partitions : List Block} {offers : List Assignment}

/-- **The first entry of a table with a number.** -/
structure Partition.Table.FirstEntry (t : Table) (number : Nat) (e : Entry) : Prop where
  number_eq : e.number = number
  first : ∃ before after, t.entries = before ++ e :: after ∧ ∀ x ∈ before, x.number ≠ number

theorem Partition.Table.entry?_eq_some_iff {t : Table} {number : Nat} {e : Entry} :
    t.entry? number = some e ↔ t.FirstEntry number e := by
  unfold entry?
  rw [List.find?_eq_some_iff_append]
  simp only [decide_eq_true_eq, Bool.not_eq_true', decide_eq_false_iff_not]
  exact ⟨fun ⟨hnumber, hfirst⟩ => ⟨hnumber, hfirst⟩, fun ⟨hnumber, hfirst⟩ => ⟨hnumber, hfirst⟩⟩

/-- **A partition may serve a rule**, as the assignment says: it is neither the root device nor the
disk itself, and the first table entry of its number has the type of the rule and flags that the
rule admits. -/
structure Eligible (guids : Guid.Reader) (root : Device.Number) (disk : Block) (table : Table)
    (r : Rule) (b : Block) (a : Assignment) : Prop where
  ne_root : b.number ≠ root
  ne_disk : b.number ≠ disk.number
  partition : b.partition = some a.number
  entry : ∃ e, table.FirstEntry a.number e ∧ Guid.parse? guids e.typeText = some r.typeId ∧
    r.admission e.flags = .admitted a.rw
  role : a.role = r.role
  node : a.node = b.node.text

/-- **The assignments of all partitions that may serve a rule**, one for each such partition and in
the order of the partitions. -/
inductive Gathers (guids : Guid.Reader) (root : Device.Number) (disk : Block) (table : Table)
    (r : Rule) : List Block → List Assignment → Prop where
  | nil : Gathers guids root disk table r [] []
  | stands {b : Block} {a : Assignment} {rest : List Block} {others : List Assignment}
      (first : Eligible guids root disk table r b a)
      (next : Gathers guids root disk table r rest others) :
      Gathers guids root disk table r (b :: rest) (a :: others)
  | passed {b : Block} {rest : List Block} {others : List Assignment}
      (first : ∀ a, ¬ Eligible guids root disk table r b a)
      (next : Gathers guids root disk table r rest others) :
      Gathers guids root disk table r (b :: rest) others

/-! ## What a partition offers -/

/-- The rules are told apart by their types. -/
theorem rule?_typeId : ∀ r ∈ rules, rule? r.typeId = some r := by
  intro r hr
  simp only [rules, List.mem_cons, List.not_mem_nil, or_false] at hr
  rcases hr with rfl | rfl | rfl | rfl <;> rfl

/-- **What a partition offers to a rule is what it may serve the rule as.** -/
theorem offer?_candidacy (hr : r ∈ rules) :
    (candidacy guids root disk table b).offer? r = some a ↔
      Eligible guids root disk table r b a := by
  constructor
  · intro h
    unfold candidacy at h
    split at h
    · cases h
    next hdevice =>
    split at h
    · cases h
    next number hnumber =>
    split at h
    · cases h
    next entry hentry =>
    split at h
    · cases h
    next typeId htype =>
    split at h
    · cases h
    next rule hrule =>
    split at h
    · cases h
    next rw hadmitted =>
    rw [Candidacy.offer?] at h
    split at h
    · next hsame =>
        -- The rule that was found by the type is the one that is asked about.
        have hfound : rule.typeId = typeId := by
          simpa using List.find?_some hrule
        have hrules := rule?_typeId r hr
        rw [← hsame, hfound, hrule] at hrules
        cases hrules
        cases h
        rw [not_or] at hdevice
        exact ⟨hdevice.1, hdevice.2, hnumber, ⟨entry, Table.entry?_eq_some_iff.mp hentry,
          hfound ▸ htype, hadmitted⟩, rfl, rfl⟩
    · cases h
  · rintro ⟨hroot, hdisk, hnumber, ⟨entry, hentry, htype, hadmitted⟩, hrole, hnode⟩
    obtain ⟨role, node, number, rw⟩ := a
    simp only at hnumber hentry hadmitted hrole hnode
    have hfirst := Table.entry?_eq_some_iff.mpr hentry
    simp [candidacy, hroot, hdisk, hnumber, hfirst, htype, rule?_typeId r hr, hadmitted,
      Candidacy.offer?, hrole, hnode]

/-- A partition serves a rule in one way at most. -/
theorem Eligible.unique (hr : r ∈ rules) (h : Eligible guids root disk table r b a)
    (h' : Eligible guids root disk table r b a') : a = a' :=
  Option.some.inj (((offer?_candidacy hr).mpr h).symm.trans ((offer?_candidacy hr).mpr h'))

/-- The offers that the election collects for a rule. -/
def collected (guids : Guid.Reader) (root : Device.Number) (disk : Block) (table : Table)
    (partitions : List Block) (r : Rule) : List Assignment :=
  partitions.filterMap fun b => (candidacy guids root disk table b).offer? r

/-- **The election collects the assignments of all partitions that may serve a rule.** -/
theorem gathers_collected (hr : r ∈ rules) :
    Gathers guids root disk table r partitions (collected guids root disk table partitions r) := by
  unfold collected
  induction partitions with
  | nil => exact .nil
  | cons b rest ih =>
      rw [List.filterMap_cons]
      cases hoffer : (candidacy guids root disk table b).offer? r with
      | none =>
          refine .passed (fun a ha => ?_) ih
          rw [(offer?_candidacy hr).mpr ha] at hoffer
          cases hoffer
      | some a => exact .stands ((offer?_candidacy hr).mp hoffer) ih

/-- There is one such list for a rule. -/
theorem Gathers.unique {others : List Assignment} (hr : r ∈ rules)
    (h : Gathers guids root disk table r partitions offers)
    (h' : Gathers guids root disk table r partitions others) : offers = others := by
  induction h generalizing others with
  | nil => cases h'; rfl
  | stands first _ ih =>
      cases h' with
      | stands first' next' => rw [first.unique hr first', ih next']
      | passed hnone _ => exact absurd first (hnone _)
  | passed hnone _ ih =>
      cases h' with
      | stands first' _ => exact absurd first' (hnone _)
      | passed _ next' => exact ih next'

/-! ## The winner among given assignments -/

/-- No clash is found if no two neighbours have one number. -/
theorem firstClash?_eq_none_iff :
    firstClash? offers = none ↔ offers.IsChain fun a b => a.number ≠ b.number := by
  induction offers with
  | nil => simp [firstClash?]
  | cons a rest ih =>
      cases rest with
      | nil => simp [firstClash?]
      | cons b rest =>
          rw [List.isChain_cons_cons, firstClash?]
          split
          · next hsame => simp [hsame]
          · next hdiffer => simp [hdiffer, ih]

theorem ranked_perm (offers : List Assignment) : (ranked offers).Perm offers :=
  List.mergeSort_perm _ _

theorem ranked_pairwise (offers : List Assignment) :
    (ranked offers).Pairwise fun a b => a.number ≤ b.number := by
  have hsorted : (ranked offers).Pairwise fun a b => decide (a.number ≤ b.number) = true :=
    List.pairwise_mergeSort (by simp only [decide_eq_true_eq]; omega)
      (by simp only [Bool.or_eq_true, decide_eq_true_eq]; omega) offers
  exact hsorted.imp fun h => of_decide_eq_true h

/-- **Among ranked candidates, neighbours tell whether any two have one number.** -/
theorem firstClash?_ranked :
    firstClash? (ranked offers) = none ↔ (offers.map (·.number)).Nodup := by
  have hperm : (offers.map (·.number)).Nodup ↔ ((ranked offers).map (·.number)).Nodup :=
    ((ranked_perm offers).map (·.number)).nodup_iff.symm
  rw [hperm, firstClash?_eq_none_iff, List.Nodup, List.pairwise_map]
  constructor
  · intro hchain
    -- Neighbours that differ are strictly in order, and so are then any two.
    have hstrict : (ranked offers).IsChain fun a b => a.number < b.number := by
      have hsorted := (ranked_pairwise offers).isChain
      rw [List.isChain_iff_getElem] at hsorted hchain ⊢
      exact fun i hi => lt_of_le_of_ne (hsorted i hi) (hchain i hi)
    have hall : ((ranked offers).map (·.number)).IsChain (· < ·) :=
      (List.isChain_map _).mpr hstrict
    exact (List.pairwise_map.mp hall.pairwise).imp fun h => by omega
  · exact fun hnodup => hnodup.isChain

/-- The first of the ranked candidates has the lowest number. -/
theorem head?_ranked (h : (ranked offers).head? = some a) :
    a ∈ offers ∧ ∀ x ∈ offers, a.number ≤ x.number := by
  obtain ⟨rest, hrest⟩ := List.head?_eq_some_iff.mp h
  have hmem : ∀ x, x ∈ offers ↔ x ∈ a :: rest := by
    intro x
    rw [← hrest, (ranked_perm offers).mem_iff]
  have hsorted := ranked_pairwise offers
  rw [hrest, List.pairwise_cons] at hsorted
  refine ⟨(hmem a).mpr List.mem_cons_self, fun x hx => ?_⟩
  rcases List.mem_cons.mp ((hmem x).mp hx) with rfl | hx
  · exact le_refl _
  · exact hsorted.1 x hx

/-- The first of the ranked candidates wins, unless there is a clash. -/
theorem value_winner? (role : Role) : (winner? role offers).value =
    if firstClash? (ranked offers) = none then (ranked offers).head? else none := by
  unfold winner?
  cases hclash : firstClash? (ranked offers) with
  | some clash => rfl
  | none =>
      cases (ranked offers).head? with
      | none => rfl
      | some a => rfl

/-- **There is a winner if there are candidates and no two of them claim one number.** -/
theorem isSome_winner?_iff (role : Role) (offers : List Assignment) :
    (winner? role offers).value.isSome = true ↔
      offers ≠ [] ∧ (offers.map (·.number)).Nodup := by
  rw [value_winner?]
  have hnil : ranked offers = [] ↔ offers = [] := by
    rw [← List.length_eq_zero_iff, (ranked_perm offers).length_eq, List.length_eq_zero_iff]
  split
  · next hclash =>
      rw [List.isSome_head?]
      simp [firstClash?_ranked.mp hclash, hnil]
  · next hclash =>
      rw [firstClash?_ranked] at hclash
      simp [hclash]

/-- **The winner is the candidate of the lowest number.** -/
theorem winner?_eq_some (role : Role) (h : (winner? role offers).value = some a) :
    a ∈ offers ∧ ∀ x ∈ offers, a.number ≤ x.number := by
  rw [value_winner?] at h
  split at h
  · exact head?_ranked h
  · cases h

/-! ## All rules -/

/-- The value of a row of traced steps is the row of their values. -/
theorem Traced.value_mapM {α β : Type} (f : α → Traced β) (xs : List α) :
    (xs.mapM f).value = xs.map fun x => (f x).value := by
  induction xs with
  | nil => rw [List.mapM_nil]; rfl
  | cons x xs ih =>
      rw [List.mapM_cons, Traced.value_bind, Traced.value_bind, Traced.value_pure, ih]
      rfl

/-- Each rule gets the winner among what was collected for it. -/
theorem value_elect : (elect guids root disk partitions table).value =
    rules.filterMap fun r =>
      (winner? r.role (collected guids root disk table partitions r)).value.map
        fun a => (r, a) := by
  have hcollected : ∀ r : Rule,
      (partitions.map fun b => (b.node.text, candidacy guids root disk table b)).filterMap
        (fun x => x.2.offer? r) = collected guids root disk table partitions r := by
    intro r
    rw [List.filterMap_map]
    rfl
  unfold elect
  simp only [Traced.value_bind, Traced.value_pure, Traced.value_mapM, List.filterMap_map,
    Function.comp_def, hcollected, id_eq]

/-- **Whoever is elected** is a partition that may serve the rule. -/
theorem eligible_of_mem_elect {x : Rule × Assignment}
    (h : x ∈ (elect guids root disk partitions table).value) :
    x.1 ∈ rules ∧ ∃ b ∈ partitions, Eligible guids root disk table x.1 b x.2 := by
  rw [value_elect] at h
  obtain ⟨r, hr, hfound⟩ := List.mem_filterMap.mp h
  obtain ⟨a, hwinner, rfl⟩ := Option.map_eq_some_iff.mp hfound
  obtain ⟨b, hb, hoffer⟩ := List.mem_filterMap.mp (winner?_eq_some r.role hwinner).1
  exact ⟨hr, b, hb, (offer?_candidacy hr).mp hoffer⟩

/-- **The election is its reference.**  For each rule there is the list of the assignments of all
partitions that may serve it.  The rules that are elected for are, in their order, those with an
assignment and no two assignments of one number, whatever is found for the other rules; each gets
its assignment of the lowest number. -/
theorem elect_reference (guids : Guid.Reader) (root : Device.Number) (disk : Block)
    (partitions : List Block) (table : Table) :
    ∃ gathered : Rule → List Assignment,
      (∀ r ∈ rules, Gathers guids root disk table r partitions (gathered r)) ∧
      (elect guids root disk partitions table).value.map Prod.fst =
        rules.filter (fun r => gathered r ≠ [] ∧ ((gathered r).map (·.number)).Nodup) ∧
      ∀ x ∈ (elect guids root disk partitions table).value,
        x.2 ∈ gathered x.1 ∧ ∀ a ∈ gathered x.1, x.2.number ≤ a.number := by
  refine ⟨collected guids root disk table partitions, fun r hr => gathers_collected hr, ?_, ?_⟩
  · rw [value_elect, List.map_filterMap, ← List.filterMap_eq_filter]
    refine List.filterMap_congr fun r _ => ?_
    have hsome := isSome_winner?_iff r.role (collected guids root disk table partitions r)
    cases hwinner : (winner? r.role (collected guids root disk table partitions r)).value with
    | none =>
        rw [hwinner] at hsome
        simp [Option.guard, ← hsome]
    | some a =>
        rw [hwinner] at hsome
        simp [Option.guard, ← hsome]
  · intro x hx
    rw [value_elect] at hx
    obtain ⟨r, -, hr⟩ := List.mem_filterMap.mp hx
    obtain ⟨a, hwinner, rfl⟩ := Option.map_eq_some_iff.mp hr
    exact winner?_eq_some r.role hwinner

end PartitionUnits
