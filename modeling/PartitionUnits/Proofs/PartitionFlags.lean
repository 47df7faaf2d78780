import PartitionUnits.Proofs.Agreement
import PartitionUnits.Proofs.BootMount
import PartitionUnits.Proofs.TreePass

/-!
# What the flags of partitions do

Of the 64 attribute bits of a partition two have a meaning: bit 60 asks for read-only use, and
bit 63 asks not to be used automatically.

## Main Definitions

* `Machine.HasSibling` — a partition beside the root partition, with its entry in the table
* `Site.ComesTo`, `dataBodies` — where a plan for a data partition comes from, and what it does
* `Partition.Entry.SameUse`, `Machine.SameButFlags` — what may differ without a difference
* `partition_flags_honoured` — what becomes of the two bits, and that no other has any effect

## Design Notes

The mode of a data partition is written twice, for the mount and for the service that unlocks it.
Both are said here to be bit 60 of one entry, and that entry is found through the table alone: it is
the first one with the number of a device that is listed beside the root device.
-/

namespace PartitionUnits

open Attempt
open Device (Block)
open PartitionUnits.Partition (Table Flags)

variable {σ : Type} {site : Site σ} {settings : Settings} {s s' : σ} {m m' : Machine}
  {guids : Guid.Reader}
  {root : Device.Number} {disk b : Block} {partitions : List Block} {table table' : Table}
  {e e' : Partition.Entry} {r rule : Rule} {a : Assignment} {role : Role} {plan : Plan}

/-! ## What the rules make of flags -/

theorem admitData_eq_admitted_iff {f : Flags} {rw : Bool} :
    admitData f = .admitted rw ↔ f.noAuto = false ∧ f.readOnly = !rw := by
  unfold admitData
  cases f.noAuto <;> cases f.readOnly <;> cases rw <;> simp

theorem admitSwap_eq_admitted_iff {f : Flags} {rw : Bool} :
    admitSwap f = .admitted rw ↔ f.noAuto = false ∧ f.readOnly = false ∧ rw = true := by
  unfold admitSwap
  cases f.noAuto <;> cases f.readOnly <;> simp [eq_comm]

/-- Data partitions are admitted alike. -/
theorem admission_of_data : ∀ r ∈ rules, r.role = .home ∨ r.role = .serverData →
    r.admission = admitData := by
  intro r hr hrole
  simp only [rules, List.mem_cons, List.not_mem_nil, or_false] at hr
  rcases hr with rfl | rfl | rfl | rfl <;> simp_all

theorem admission_of_swap : ∀ r ∈ rules, r.role = .swap →
    r.typeId = .swap ∧ r.admission = admitSwap := by
  intro r hr hrole
  simp only [rules, List.mem_cons, List.not_mem_nil, or_false] at hr
  rcases hr with rfl | rfl | rfl | rfl <;> simp_all

/-- **Only two bits matter to a rule**, and none to that of EFI system partitions. -/
theorem admission_congr {typeId : Guid} {f f' : Flags} (hr : rule? typeId = some r)
    (h : typeId ≠ .efiSystem → f'.readOnly = f.readOnly ∧ f'.noAuto = f.noAuto) :
    r.admission f' = r.admission f := by
  have hmem : r ∈ rules := List.mem_of_find?_eq_some hr
  have htype : r.typeId = typeId := by simpa using List.find?_some hr
  rw [← htype] at h
  simp only [rules, List.mem_cons, List.not_mem_nil, or_false] at hmem
  rcases hmem with rfl | rfl | rfl | rfl
  · obtain ⟨hreadOnly, hnoAuto⟩ := h (show Guid.swap ≠ Guid.efiSystem by decide)
    simp only [admitSwap, hreadOnly, hnoAuto]
  · rfl
  · obtain ⟨hreadOnly, hnoAuto⟩ := h (show Guid.home ≠ Guid.efiSystem by decide)
    simp only [admitData, hreadOnly, hnoAuto]
  · obtain ⟨hreadOnly, hnoAuto⟩ := h (show Guid.serverData ≠ Guid.efiSystem by decide)
    simp only [admitData, hreadOnly, hnoAuto]

/-! ## Partitions beside the root partition -/

/-- The machine as it is when a pass looks for partitions: after the root mount. -/
def Site.searched (site : Site σ) (settings : Settings) (s : σ) : Machine :=
  site.machine (site.afterAll (Site.rootErrands settings) s)

/-- **A partition beside the root partition**: it is listed as a partition of the disk and is
neither the root device nor the disk, and the first entry with its number says a type. -/
structure Machine.HasSibling (m : Machine) (typeId : Guid) (b : Block) (e : Partition.Entry) :
    Prop where
  listed : ∃ root disk partitions table number, m.Surveyed root disk partitions table ∧
    b ∈ partitions ∧ b.number ≠ root ∧ b.number ≠ disk.number ∧ b.partition = some number ∧
    table.FirstEntry number e
  type : Guid.parse? m.guids e.typeText = some typeId

/-- **A pass comes to partitions beside the root partition** that their rules admit. -/
theorem Site.Reaches.exists_sibling (h : site.Reaches settings s rule a s') :
    rule ∈ rules ∧ ∃ b e, (site.searched settings s).HasSibling rule.typeId b e ∧
      a.node = b.node.text ∧ rule.admission e.flags = .admitted a.rw := by
  obtain ⟨root, disk, partitions, table, before, after, hsurveyed, helect, -⟩ := h.elected
  have hmem : (rule, a) ∈
      (elect (site.searched settings s).guids root disk partitions table).value := by
    rw [Site.searched, helect]
    exact List.mem_append_right _ List.mem_cons_self
  obtain ⟨hrule, b, hb, heligible⟩ := eligible_of_mem_elect hmem
  obtain ⟨e, hfirst, htype, hadmitted⟩ := heligible.entry
  exact ⟨hrule, b, e, ⟨⟨root, disk, partitions, table, a.number, hsurveyed, hb, heligible.ne_root,
    heligible.ne_disk, heligible.partition, hfirst⟩, htype⟩, heligible.node, hadmitted⟩

/-! ## What plans do -/

/-- **What a plan for a data partition does**: it mounts the partition with its type, or unlocks it
and mounts what that appears as, read-only or not. -/
def dataBodies (role : Role) (node mountPoint fsType : String) (readOnly : Bool) :
    List UnitBody :=
  let mode := if readOnly then "ro" else "rw"
  if fsType = luksType then
    [.unlock role.id node readOnly, .mount ("/dev/mapper/" ++ role.id) mountPoint none mode]
  else [.mount node mountPoint (some fsType) mode]

theorem bodies_dataRequest {mountPoint fsType : String}
    (h : (dataRequest role a mountPoint fsType).plan.run.value = .ok plan) :
    plan.bodies = dataBodies role a.node mountPoint fsType (!a.rw) := by
  obtain ⟨name, -, hplanned⟩ := MountRequest.plan_eq_ok_iff.mp h
  have hmode : mountOptions none a.rw = if !a.rw then "ro" else "rw" := by
    cases a.rw <;> rfl
  rw [MountRequest.bodies_of_planned hplanned, dataBodies]
  simp only [dataRequest, Option.some.injEq, hmode]

theorem bodies_planSwap {device : String} (h : (planSwap device).run.value = .ok plan) :
    plan.bodies = [.swap device] := by
  obtain ⟨name, -, rfl⟩ := planSwap_eq_ok_iff.mp h
  rfl

/-- The decision for a data partition is the one for all of them. -/
theorem decide_of_data (h : rule.role = .home ∨ rule.role = .serverData) :
    rule.decide m a = decideData rule.role m a := by
  unfold Rule.decide
  rcases h with h | h <;> rw [h]

theorem decide_of_swap (h : rule.role = .swap) : rule.decide m a = decideSwap m.host a := by
  unfold Rule.decide
  rw [h]

/-- **A pass comes to a data partition**: it is beside the root partition and of a role's type, and
when the pass comes to it, a file system of a type is found on it. -/
structure Site.ComesTo (site : Site σ) (settings : Settings) (s : σ) (role : Role) (b : Block)
    (e : Partition.Entry) (fsType : String) : Prop where
  sibling : ∃ rule ∈ rules, rule.role = role ∧
    (site.searched settings s).HasSibling rule.typeId b e
  found : ∃ rule a s' info, site.Reaches settings s rule a s' ∧ a.node = b.node.text ∧
    ((site.machine s').probe.filesystem (Path.ofText b.node.text)).run.value =
      .ok (.found info) ∧ info.fsType = some fsType

/-- **Where a plan for a data partition comes from.** -/
theorem data_submitted {mountPoint : String} (hplan : plan ∈ site.submitted settings s)
    (hrole : role = .home ∨ role = .serverData) (hplace : role.mountPoint? false = some mountPoint)
    (hserves : plan.Serves mountPoint) :
    ∃ b e fsType, site.ComesTo settings s role b e fsType ∧ e.flags.noAuto = false ∧
      plan.bodies = dataBodies role b.node.text mountPoint fsType e.flags.readOnly := by
  have hroot : role ≠ .root := by
    rcases hrole with rfl | rfl <;> decide
  obtain ⟨rule, a, s', hreaches, rfl, hdecided⟩ :=
    submitted_serves hplan ⟨false, hplace⟩ hserves hroot
  obtain ⟨hrule, b, e, hsibling, hnode, hadmitted⟩ := hreaches.exists_sibling
  rw [admission_of_data rule hrule hrole, admitData_eq_admitted_iff] at hadmitted
  rw [decide_of_data hrole] at hdecided
  obtain ⟨_, info, fsType, hplace', -, hfound, hfsType, hrequest⟩ :=
    decideData_eq_emit_iff.mp hdecided
  cases hplace.symm.trans hplace'
  refine ⟨b, e, fsType, ⟨⟨rule, hrule, rfl, hsibling⟩,
    ⟨rule, a, s', info, hreaches, hnode, hnode ▸ hfound, hfsType⟩⟩, hadmitted.1, ?_⟩
  rw [bodies_dataRequest hrequest, hadmitted.2, hnode]

/-- **Where a plan that swaps comes from.** -/
theorem swap_submitted (hplan : plan ∈ site.submitted settings s) (hswaps : plan.Swaps) :
    ∃ b e, (site.searched settings s).HasSibling Guid.swap b e ∧ e.flags.readOnly = false ∧
      e.flags.noAuto = false ∧ plan.bodies = [.swap b.node.text] := by
  rcases submitted_cases hplan with ⟨-, hroot⟩ | ⟨rule, a, s', hreaches, hdecided⟩
  · exact absurd hswaps (decideRoot_not_swaps settings _ _ hroot plan rfl)
  · have hrole := rule.decide_swaps _ a _ hdecided plan rfl hswaps
    obtain ⟨hrule, b, e, hsibling, hnode, hadmitted⟩ := hreaches.exists_sibling
    obtain ⟨htype, hadmission⟩ := admission_of_swap rule hrule hrole
    rw [hadmission, admitSwap_eq_admitted_iff] at hadmitted
    rw [decide_of_swap hrole] at hdecided
    obtain ⟨-, -, -, hrequest⟩ := decideSwap_eq_emit_iff.mp hdecided
    refine ⟨b, e, htype ▸ hsibling, hadmitted.2.1, hadmitted.1, ?_⟩
    rw [bodies_planSwap hrequest, hnode]

/-! ## Bits without a meaning -/

/-- **Two entries are of the same use**: they agree but for their flags, and those agree in bits 60
and 63 unless the entries are for EFI system partitions. -/
structure Partition.Entry.SameUse (guids : Guid.Reader) (e e' : Partition.Entry) : Prop where
  number : e'.number = e.number
  typeText : e'.typeText = e.typeText
  partitionId : e'.partitionId = e.partitionId
  flags : Guid.parse? guids e.typeText ≠ some .efiSystem →
    e'.flags.bits.toNat.testBit 60 = e.flags.bits.toNat.testBit 60 ∧
      e'.flags.bits.toNat.testBit 63 = e.flags.bits.toNat.testBit 63

/-- Two tables of one kind have entries of the same use. -/
structure Partition.Table.SameUse (guids : Guid.Reader) (t t' : Table) : Prop where
  kind : t'.kind = t.kind
  entries : List.Forall₂ (Partition.Entry.SameUse guids) t.entries t'.entries

/-- What two probes say about a table is the same, but for flags without a use. -/
inductive Probed.SameUse (guids : Guid.Reader) : Probed Table → Probed Table → Prop where
  | found {t t' : Table} (h : Table.SameUse guids t t') : SameUse guids (.found t) (.found t')
  | ambiguous : SameUse guids .ambiguous .ambiguous
  | nothing : SameUse guids .nothing .nothing

/-- **Two machines differ in nothing but flags without a use.** -/
structure Machine.SameButFlags (m m' : Machine) : Prop where
  devices : m'.devices = m.devices
  host : m'.host = m.host
  filesystem : m'.probe.filesystem = m.probe.filesystem
  entry : m'.probe.entry = m.probe.entry
  guids : m'.guids = m.guids
  table : ∀ node, Matches (Probed.SameUse m.guids) (m.probe.table node).run.value
    (m'.probe.table node).run.value

/-- The first entries with a number are of the same use. -/
theorem Partition.Table.SameUse.entry? (h : Table.SameUse guids table table') (number : Nat) :
    Option.Rel (Partition.Entry.SameUse guids) (table.entry? number) (table'.entry? number) := by
  have hentries := h.entries
  unfold Table.entry?
  generalize table.entries = entries at hentries
  generalize table'.entries = entries' at hentries
  induction hentries with
  | nil => exact .none
  | @cons e e' rest rest' hfirst _ ih =>
      rw [List.find?_cons, List.find?_cons, hfirst.number]
      split
      · exact .some hfirst
      · exact ih

/-- **The same becomes of a partition** with entries of the same use. -/
theorem candidacy_congr (h : Table.SameUse guids table table') (root : Device.Number)
    (disk b : Block) : candidacy guids root disk table' b = candidacy guids root disk table b := by
  unfold candidacy
  cases b.partition with
  | none => rfl
  | some number =>
      have hentry := h.entry? number
      simp only
      generalize table.entry? number = found at hentry
      generalize table'.entry? number = found' at hentry
      cases hentry with
      | none => rfl
      | @some e e' hsame =>
          simp only [hsame.typeText]
          cases htype : Guid.parse? guids e.typeText with
          | none => rfl
          | some typeId =>
              simp only
              cases hrule : rule? typeId with
              | none => rfl
              | some rule =>
                  have hadmission := admission_congr hrule fun hne =>
                    hsame.flags fun hefi => hne (Option.some.inj (htype.symm.trans hefi))
                  simp only [hadmission]

theorem elect_congr (h : Table.SameUse guids table table') (root : Device.Number) (disk : Block)
    (partitions : List Block) : (elect guids root disk partitions table').value =
      (elect guids root disk partitions table).value := by
  have hcollected : ∀ r, collected guids root disk table' partitions r =
      collected guids root disk table partitions r := by
    intro r
    unfold collected
    simp only [candidacy_congr h]
  rw [value_elect, value_elect]
  simp only [hcollected]

/-- A table can be relied on if one of the same use can. -/
theorem matches_reliableTable {p p' : Probe} (h : ∀ node, Matches (Probed.SameUse guids)
    (p.table node).run.value (p'.table node).run.value) (disk : Block) :
    Matches (Option.Rel (Table.SameUse guids)) (reliableTable p disk).run.value
      (reliableTable p' disk).run.value := by
  unfold reliableTable
  refine .bind (h disk.node).during fun probed probed' hsame => ?_
  cases hsame with
  | ambiguous => exact .ok .none
  | nothing => exact .ok .none
  | @found t t' hsame =>
      have hgpt : t'.isGpt = t.isGpt := by
        unfold Table.isGpt
        rw [hsame.kind]
      simp only [hgpt]
      split
      · exact .ok (.some hsame)
      · exact .ok .none

namespace Machine.SameButFlags

/-- **The same partitions are elected on such machines**, or none are found on either. -/
theorem matches_discover_flags (h : m.SameButFlags m') :
    Matches Eq (discover m).run.value (discover m').run.value := by
  unfold discover discoverBeside
  rw [h.devices, h.guids]
  refine .bind (.refl _) fun root _ hroot => ?_
  subst hroot
  cases root with
  | none => exact .refl _
  | some root =>
      refine .bind (.refl _) fun disk _ hdisk => ?_
      subst hdisk
      cases disk with
      | none => exact .refl _
      | some disk =>
          refine .bind (.refl _) fun _ _ _ => ?_
          refine .bind (matches_reliableTable h.table disk) fun table table' hsame => ?_
          cases hsame with
          | none => exact .refl _
          | some hsame =>
              refine .bind (.refl _) fun partitions _ hpartitions => ?_
              subst hpartitions
              exact .ok (elect_congr hsame root disk partitions).symm

/-- **The same plans are decided on** such machines. -/
theorem plansLike (h : m.SameButFlags m') : m.PlansLike m' where
  inInitrd := by rw [h.host]
  discover := h.matches_discover_flags
  root := fun _ => by rw [h.host]
  partition := by
    intro r a
    unfold Rule.decide decideBoot decideData
    rw [h.host, h.filesystem, h.entry, h.guids]

end Machine.SameButFlags

/-! ## The pass -/

/-- **The flags of partitions are honoured, and nothing but their meaning matters.**  A plan for a
data partition is for one beside the root partition with bit 63 clear in its entry; it is mounted
and unlocked read-only just when bit 60 is set.  A plan that swaps is for such a partition with both
bits clear.  On machines that differ in other bits, or in any bits of EFI system partitions, the
same plans are handed over. -/
theorem partition_flags_honoured {σ : Type} (site : Site σ) (settings : Settings) (s : σ) :
    (∀ plan ∈ site.submitted settings s, ∀ role mountPoint,
      role = .home ∨ role = .serverData → role.mountPoint? false = some mountPoint →
      plan.Serves mountPoint →
        ∃ b e fsType, site.ComesTo settings s role b e fsType ∧
          e.flags.bits.toNat.testBit 63 = false ∧
          plan.bodies = dataBodies role b.node.text mountPoint fsType
            (e.flags.bits.toNat.testBit 60)) ∧
    (∀ plan ∈ site.submitted settings s, plan.Swaps →
      ∃ b e, (site.searched settings s).HasSibling Guid.swap b e ∧
        e.flags.bits.toNat.testBit 60 = false ∧ e.flags.bits.toNat.testBit 63 = false ∧
        plan.bodies = [.swap b.node.text]) ∧
    ∀ site' : Site σ, site'.submit = site.submit →
      (∀ s, (site.machine s).SameButFlags (site'.machine s)) →
      site'.submitted settings s = site.submitted settings s := by
  refine ⟨fun plan hplan role mountPoint hrole hplace hserves => ?_, fun plan hplan hswaps => ?_,
    fun site' hsubmit hmachine => ?_⟩
  · exact data_submitted hplan hrole hplace hserves
  · exact swap_submitted hplan hswaps
  · exact submitted_congr hsubmit fun s => (hmachine s).plansLike

/-- A machine with an encrypted home partition and one for swap, whose entries have given flags, as
has one for an EFI system partition. -/
def flaggedMachine (home swap efi : UInt64) : Machine :=
  let m := dataMachine (.found { fsType := some luksType })
  { m with
    probe := { m.probe with
      table := fun _ => return .found ⟨some "gpt", [
        { number := 2, typeText := Guid.home.text, flags := ⟨home⟩ },
        { number := 3, typeText := Guid.swap.text, flags := ⟨swap⟩ },
        { number := 4, typeText := Guid.efiSystem.text, flags := ⟨efi⟩ }]⟩ } }

/-- A site that takes all plans for that machine. -/
def flaggedSite (home swap efi : UInt64) : Site Unit where
  machine _ := flaggedMachine home swap efi
  submit _ _ := ({ value := .ok () }, ())

/-- Other bits of the flags may be set or clear. -/
theorem flaggedMachine_sameButFlags :
    (flaggedMachine 0x1000000000000001 0 0).SameButFlags
      (flaggedMachine 0x1000000000000008 4 0x9000000000000000) where
  devices := rfl
  host := rfl
  filesystem := rfl
  entry := rfl
  guids := rfl
  table _ := by
    have hefi : Guid.parse? Guid.readForms Guid.efiSystem.text = some .efiSystem := by
      decide +kernel
    refine .ok (.found ⟨rfl, .cons ⟨rfl, rfl, rfl, fun _ => ?_⟩ (.cons ⟨rfl, rfl, rfl, fun _ => ?_⟩
      (.cons ⟨rfl, rfl, rfl, fun h => absurd hefi h⟩ .nil))⟩)
    · decide
    · decide

/-- A read-only home partition is unlocked and mounted read-only, whatever its other bits are. -/
theorem flaggedSite_honoured :
    (∃ plan ∈ (flaggedSite 0x1000000000000001 0 0).submitted {} (),
      plan.bodies = [.unlock "home" "/dev/sda2" true,
        .mount "/dev/mapper/home" "/home" none "ro"] ∧
      ∃ b e fsType, (flaggedSite 0x1000000000000001 0 0).ComesTo {} () .home b e fsType ∧
        e.flags.bits.toNat.testBit 63 = false ∧
        plan.bodies = dataBodies .home b.node.text "/home" fsType
          (e.flags.bits.toNat.testBit 60)) ∧
      (∃ plan ∈ (flaggedSite 0x1000000000000001 0 0).submitted {} (), ∃ b e,
        ((flaggedSite 0x1000000000000001 0 0).searched {} ()).HasSibling .swap b e ∧
          plan.bodies = [.swap b.node.text]) ∧
      (flaggedSite 0x1000000000000008 4 0x9000000000000000).submitted {} () =
        (flaggedSite 0x1000000000000001 0 0).submitted {} () := by
  obtain ⟨hdata, hswap, hsame⟩ :=
    partition_flags_honoured (flaggedSite 0x1000000000000001 0 0) {} ()
  refine ⟨?_, ?_, hsame _ rfl fun _ => flaggedMachine_sameButFlags⟩
  · have hhome : ∃ plan ∈ (flaggedSite 0x1000000000000001 0 0).submitted {} (),
        plan.bodies = [.unlock "home" "/dev/sda2" true,
          .mount "/dev/mapper/home" "/home" none "ro"] := by
      decide +kernel
    obtain ⟨plan, hplan, hbodies⟩ := hhome
    have hmounts : .mount "/dev/mapper/home" "/home" none "ro" ∈ plan.bodies := by
      rw [hbodies]
      exact List.mem_cons_of_mem _ List.mem_cons_self
    obtain ⟨u, hu, hbody⟩ := List.mem_map.mp hmounts
    have hserves : plan.Serves "/home" := ⟨u, hu, Or.inr (Or.inr (by rw [hbody]; rfl))⟩
    exact ⟨plan, hplan, hbodies, hdata plan hplan .home "/home" (Or.inl rfl) rfl hserves⟩
  · have hother : ∃ plan ∈ (flaggedSite 0x1000000000000001 0 0).submitted {} (),
        .swap "/dev/sda3" ∈ plan.bodies := by
      decide +kernel
    obtain ⟨plan, hplan, hswaps⟩ := hother
    obtain ⟨b, e, hsibling, -, -, hbodies⟩ := hswap plan hplan ⟨_, hswaps⟩
    exact ⟨plan, hplan, b, e, hsibling, hbodies⟩

end PartitionUnits
