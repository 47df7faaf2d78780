import Mathlib.Data.List.Nodup
import PartitionUnits.Proofs.Discovery
import PartitionUnits.Proofs.Pass
import PartitionUnits.Run

/-!
# The order in which directories are listed

A pass over the running machine comes to the same whatever the order in which the system lists the
names in a directory.

## Main Definitions

* `World.IsListingOrder`, `World.relisted` — an order, and the same world with another order
* `elect_perm` — the election does not depend on the order of the partitions
* `Machine.SameButListed` — two machines that differ in the order of the partitions of a disk
* `livePass_relisted` — two passes over one world in two orders
* `World.withHomeDisk` — a machine with a whole disk to find partitions on

## Design Notes

The order of a listing shows in three places: in the partitions of a disk, in the search for the one
device below another, and in the test for an empty directory.  Only the first gives another answer
in another order.  The partitions are read one by one and the first that is malformed ends the
reading, so two orders may end it with different failures; `Matches` therefore does not compare
failures.
-/

namespace PartitionUnits

open Attempt
open Device (Block)
open PartitionUnits.Partition (Table)

variable {w : World} {order order' : Path → List Name → List Name}

/-- **An order in which directories may be listed**: every name is listed, once. -/
def World.IsListingOrder (order : Path → List Name → List Name) : Prop :=
  ∀ p names, (order p names).Perm names

/-- The same world, with directories that are listed in a given order. -/
def World.relisted (w : World) (order : Path → List Name → List Name) : World :=
  { w with listingOrder := order }

theorem World.relisted_self (w : World) : w.relisted w.listingOrder = w := rfl

/-! ## Lists that are worked on in another order -/

section

variable {α β γ : Type}

theorem Matches.trans_perm {r r' r'' : Except Failure (List α)} (h : Matches List.Perm r r')
    (h' : Matches List.Perm r' r'') : Matches List.Perm r r'' := by
  cases h with
  | ok h => cases h' with | ok h' => exact .ok (h.trans h')
  | error f _ => cases h' with | error _ f'' => exact .error f f''

/-- **A list that is worked on in another order** gives the values in another order, or fails in
either. -/
theorem matches_mapM_perm (f : α → Except Failure β) {xs ys : List α} (h : xs.Perm ys) :
    Matches List.Perm (xs.mapM f) (ys.mapM f) := by
  induction h with
  | nil => exact .ok .nil
  | @cons x xs ys _ ih =>
      rw [List.mapM_cons, List.mapM_cons]
      generalize xs.mapM f = r at ih
      generalize ys.mapM f = r' at ih
      cases f x with
      | error e => exact .error e e
      | ok b =>
          cases ih with
          | ok h => exact .ok (h.cons b)
          | error e e' => exact .error e e'
  | swap x y rest =>
      simp only [List.mapM_cons]
      cases hx : f x with
      | error e =>
          cases hy : f y with
          | error e' => exact .error _ _
          | ok b' => exact .error _ _
      | ok b =>
          cases hy : f y with
          | error e' => exact .error _ _
          | ok b' =>
              cases rest.mapM f with
              | error e => exact .error _ _
              | ok bs => exact .ok (.swap b b' bs)
  | trans _ _ ih ih' => exact ih.trans_perm ih'

end

/-! ## The election -/

/-- A winner wins in every order of the candidates. -/
theorem winner?_eq_some_of_perm {offers offers' : List Assignment} {role : Role} {a : Assignment}
    (hperm : offers.Perm offers') (h : (winner? role offers).value = some a) :
    (winner? role offers').value = some a := by
  obtain ⟨hmem, hleast⟩ := winner?_eq_some role h
  have hmem := hperm.mem_iff.mp hmem
  have hsome : (winner? role offers).value.isSome = true := by rw [h]; rfl
  have hnodup := ((hperm.map (·.number)).nodup_iff).mp ((isSome_winner?_iff role offers).mp hsome).2
  obtain ⟨a', ha'⟩ := Option.isSome_iff_exists.mp
    ((isSome_winner?_iff role offers').mpr ⟨List.ne_nil_of_mem hmem, hnodup⟩)
  obtain ⟨hmem', hleast'⟩ := winner?_eq_some role ha'
  -- Both are of the least number, and only one candidate is of it.
  have hnumber : a.number = a'.number :=
    le_antisymm (hleast a' (hperm.mem_iff.mpr hmem')) (hleast' a hmem)
  rw [ha', List.inj_on_of_nodup_map hnodup hmem hmem' hnumber]

theorem winner?_perm {offers offers' : List Assignment} (role : Role)
    (h : offers.Perm offers') : (winner? role offers).value = (winner? role offers').value := by
  refine Option.ext fun a => ?_
  exact ⟨winner?_eq_some_of_perm h, winner?_eq_some_of_perm h.symm⟩

/-- **The election does not depend on the order of the partitions.** -/
theorem elect_perm {partitions partitions' : List Block} (guids : Guid.Reader)
    (root : Device.Number) (disk : Block) (table : Table) (h : partitions.Perm partitions') :
    (elect guids root disk partitions table).value =
      (elect guids root disk partitions' table).value := by
  have hwinner : ∀ r : Rule,
      (winner? r.role (collected guids root disk table partitions r)).value =
        (winner? r.role (collected guids root disk table partitions' r)).value :=
    fun r => winner?_perm r.role (h.filterMap _)
  rw [value_elect, value_elect]
  simp only [hwinner]

/-! ## Finding partitions -/

/-- **Two machines that differ only in how the partitions of a disk are listed**: in another order,
or not at all on either. -/
structure Machine.SameButListed (m m' : Machine) : Prop where
  holding : m.devices.holding = m'.devices.holding
  parentDisk : m.devices.parentDisk = m'.devices.parentDisk
  partitions : ∀ disk, Matches List.Perm (m.devices.partitions disk).run.value
    (m'.devices.partitions disk).run.value
  probe : m.probe = m'.probe
  host : m.host = m'.host
  guids : m.guids = m'.guids

namespace Machine.SameButListed

variable {m m' : Machine}

/-- **The same partitions are elected on such machines**, or none are found on either. -/
theorem matches_discover (h : m.SameButListed m') :
    Matches Eq (discover m).run.value (discover m').run.value := by
  unfold discover discoverBeside rootNumber
  rw [h.holding, h.parentDisk, h.probe, h.guids]
  refine .bind (.refl _) fun root _ hroot => ?_
  subst hroot
  cases root with
  | none => exact .refl _
  | some root =>
      refine .bind (.refl _) fun disk _ hdisk => ?_
      subst hdisk
      cases disk with
      | none => exact .refl _
      | some disk =>
          refine .bind (.refl _) fun _ _ _ => .bind (.refl _) fun table _ htable => ?_
          subst htable
          cases table with
          | none => exact .refl _
          | some table =>
              refine .bind (h.partitions disk).during fun partitions partitions' hperm => ?_
              exact .ok (elect_perm _ root disk table hperm)

/-- The same is decided about a partition on such machines. -/
theorem decide_eq (h : m.SameButListed m') (rule : Rule) (a : Assignment) :
    rule.decide m a = rule.decide m' a := by
  unfold Rule.decide decideBoot decideData
  rw [h.probe, h.host, h.guids]

end Machine.SameButListed

/-! ## Worlds in two orders -/

namespace World

/-- A directory is listed in either order, with the same names, or in neither. -/
theorem list_relisted (horder : IsListingOrder order) (horder' : IsListingOrder order') (p : Path) :
    (∃ e, (w.relisted order).list p = .error e ∧ (w.relisted order').list p = .error e) ∨
      ∃ names names', (w.relisted order).list p = .ok names ∧
        (w.relisted order').list p = .ok names' ∧ names.Perm names' := by
  have hchildren (order : Path → List Name → List Name) :
      (w.relisted order).list p = (w.children p).map (order p) := rfl
  simp only [hchildren]
  cases w.children p with
  | error e => exact Or.inl ⟨e, rfl, rfl⟩
  | ok names =>
      exact Or.inr ⟨order p names, order' p names, rfl, rfl,
        (horder p names).trans (horder' p names).symm⟩

/-- Whether a directory is empty does not depend on the order. -/
theorem isEmptyDirectory_relisted (horder : IsListingOrder order)
    (horder' : IsListingOrder order') :
    (w.relisted order).isEmptyDirectory = (w.relisted order').isEmptyDirectory := by
  funext p
  unfold isEmptyDirectory
  rcases list_relisted (w := w) horder horder' p with
    ⟨e, h, h'⟩ | ⟨names, names', h, h', hperm⟩
  · rw [h, h']
  · have hnil : names = [] ↔ names' = [] := by
      rw [← List.length_eq_zero_iff, hperm.length_eq, List.length_eq_zero_iff]
    simp only [h, h', hnil]

/-- The one device below another does not depend on the order. -/
theorem singleBelow_relisted (horder : IsListingOrder order) (horder' : IsListingOrder order') :
    (w.relisted order).singleBelow = (w.relisted order').singleBelow := by
  funext n
  unfold singleBelow
  rcases list_relisted (w := w) horder horder' ((deviceLink n).join (Path.ofText "slaves")) with
    ⟨e, h, h'⟩ | ⟨names, names', h, h', hperm⟩
  · simp only [h, h']
    rfl
  · match names, names', hperm.length_eq with
    | [name], [name'], _ =>
        cases List.singleton_perm_singleton.mp hperm
        simp only [h, h']
        rfl
    | [], [], _ => simp only [h, h']
    | _ :: _ :: _, _ :: _ :: _, _ => simp only [h, h']

theorem executeFirst_relisted (name : Octets) (arguments : List Octets) (last : FileError)
    (ps : List Path) : (w.relisted order).executeFirst name arguments last ps =
      w.executeFirst name arguments last ps := by
  induction ps generalizing last with
  | nil => rfl
  | cons p rest ih =>
      have hexecute : (w.relisted order).execute p name arguments = w.execute p name arguments :=
        rfl
      simp only [executeFirst, hexecute, ih]

/-- Programs do not depend on the order. -/
theorem start_relisted : (w.relisted order).start = w.start := by
  funext c
  unfold start
  rw [executeFirst_relisted]
  rfl

/-- The partitions of a disk are found in either order, or in neither. -/
theorem partitionsOf_relisted (horder : IsListingOrder order) (horder' : IsListingOrder order')
    (disk : Block) : Matches List.Perm ((w.relisted order).partitionsOf disk)
      ((w.relisted order').partitionsOf disk) := by
  unfold partitionsOf
  rcases list_relisted (w := w) horder horder' disk.directory with
    ⟨e, h, h'⟩ | ⟨names, names', h, h', hperm⟩
  · rw [h, h']
    exact .error _ _
  · have hfound : Matches List.Perm
        (names.mapM fun name => (w.relisted order).partitionAt (disk.directory.join ⟨name⟩))
        (names'.mapM fun name => (w.relisted order').partitionAt (disk.directory.join ⟨name⟩)) :=
      matches_mapM_perm (fun name => w.partitionAt (disk.directory.join ⟨name⟩)) hperm
    simp only [h, h']
    generalize (names.mapM _ : Except Failure (List (Option Block))) = found at hfound
    generalize (names'.mapM _ : Except Failure (List (Option Block))) = found' at hfound
    cases hfound with
    | ok hfound => exact .ok (hfound.filterMap id)
    | error f f' => exact .error f f'

/-- **The machine as it is seen in two orders**: only the partitions of a disk may be listed in
another order. -/
theorem machine_relisted (b : Beginning) (horder : IsListingOrder order)
    (horder' : IsListingOrder order') :
    (World.machine b (w.relisted order)).SameButListed (World.machine b (w.relisted order')) where
  holding := by
    show (w.relisted order).holding = (w.relisted order').holding
    funext p
    unfold holding
    rw [singleBelow_relisted horder horder']
    rfl
  parentDisk := rfl
  partitions disk := partitionsOf_relisted horder horder' disk
  probe := by
    show (w.relisted order).probe _ = (w.relisted order').probe _
    unfold probe probeTable
    rw [start_relisted, start_relisted]
    rfl
  host := by
    show (w.relisted order).host b.inInitrd = (w.relisted order').host b.inInitrd
    unfold host inContainer
    rw [isEmptyDirectory_relisted horder horder', start_relisted, start_relisted]
    rfl
  guids := rfl

/-- **A decision that is carried out** comes to the same in every order, and leaves the same. -/
theorem carryOut_relisted (order : Path → List Name → List Name) (b : Beginning)
    (directory : Path) (decided : Attempt Decision) (w : World) :
    ((liveSite b directory).carryOut decided (w.relisted order)).1 =
        ((liveSite b directory).carryOut decided w).1 ∧
      ((liveSite b directory).carryOut decided (w.relisted order)).2 =
        ((liveSite b directory).carryOut decided w).2.relisted order := by
  unfold Site.carryOut
  simp only
  split
  · exact ⟨rfl, rfl⟩
  · exact ⟨rfl, rfl⟩
  · exact ⟨rfl, rfl⟩

end World

/-! ## Passes -/

/-- **Two passes under way in one world but for the order of listings**, with the same status. -/
structure Abreast (order order' : Path → List Name → List Name) (p p' : Site.Progress World) :
    Prop where
  status : p.status.value = p'.status.value
  world : ∃ w : World, p.state = w.relisted order ∧ p'.state = w.relisted order'

/-- The results of a subject that match have the same status recorded. -/
theorem Matches.value_record {r r' : Except Failure Outcome} (h : Matches Eq r r')
    (status : Status) (subject : String) :
    (status.record subject r).value = (status.record subject r').value := by
  cases h with
  | ok h => rw [h]
  | error f f' => rfl

namespace Abreast

variable {p p' : Site.Progress World} {b : Beginning} {directory : Path}

theorem report (h : Abreast order order' p p') (events events' : List Event) :
    Abreast order order' (p.report events) (p'.report events') :=
  ⟨h.status, h.world⟩

/-- **A decision for which the order does not matter**, carried out in both passes. -/
theorem activate (h : Abreast order order' p p') (horder : World.IsListingOrder order)
    (horder' : World.IsListingOrder order') (subject : String)
    {decision : Machine → Attempt Decision}
    (hdecision : ∀ m m' : Machine, m.SameButListed m' → decision m = decision m') :
    Abreast order order' ((liveSite b directory).activate subject decision p)
      ((liveSite b directory).activate subject decision p') := by
  obtain ⟨hstatus, w, hstate, hstate'⟩ := h
  have hsame : decision ((liveSite b directory).machine p.state) =
      decision ((liveSite b directory).machine p'.state) := by
    rw [hstate, hstate']
    exact hdecision _ _ (World.machine_relisted b horder horder')
  unfold Site.activate
  rw [hsame, hstate, hstate']
  generalize decision _ = decided
  obtain ⟨hresult, hworld⟩ := World.carryOut_relisted order b directory decided w
  obtain ⟨hresult', hworld'⟩ := World.carryOut_relisted order' b directory decided w
  refine ⟨?_, _, hworld, hworld'⟩
  simp only [Site.Progress.record, Traced.value_bind, hstatus, hresult, hresult']

/-- The elected partitions in both passes. -/
theorem activateAll (h : Abreast order order' p p') (horder : World.IsListingOrder order)
    (horder' : World.IsListingOrder order') (elected : List (Rule × Assignment)) :
    Abreast order order'
      (elected.foldl (fun p x => (liveSite b directory).activate x.1.role.id
        (fun m => x.1.decide m x.2) p) p)
      (elected.foldl (fun p x => (liveSite b directory).activate x.1.role.id
        (fun m => x.1.decide m x.2) p) p') := by
  induction elected generalizing p p' with
  | nil => exact h
  | cons x rest ih =>
      exact ih (h.activate horder horder' _ fun m m' hsame => hsame.decide_eq x.1 x.2)

/-- **The root mount in both passes.** -/
theorem activateRoot (h : Abreast order order' p p') (horder : World.IsListingOrder order)
    (horder' : World.IsListingOrder order') (settings : Settings) :
    Abreast order order' ((liveSite b directory).activateRoot settings p)
      ((liveSite b directory).activateRoot settings p') := by
  unfold Site.activateRoot
  split
  · refine h.activate horder horder' _ fun m m' hsame => ?_
    rw [hsame.host]
  · exact h.report _ _

/-- **The partitions in both passes.** -/
theorem activatePartitions (h : Abreast order order' p p') (horder : World.IsListingOrder order)
    (horder' : World.IsListingOrder order') :
    Abreast order order' ((liveSite b directory).activatePartitions p)
      ((liveSite b directory).activatePartitions p') := by
  have hfound : Matches Eq (discover ((liveSite b directory).machine p.state)).run.value
      (discover ((liveSite b directory).machine p'.state)).run.value := by
    obtain ⟨-, w, hstate, hstate'⟩ := h
    rw [hstate, hstate']
    exact (World.machine_relisted b horder horder').matches_discover
  unfold Site.activatePartitions
  simp only
  generalize (discover ((liveSite b directory).machine p.state)).run = found at hfound
  generalize (discover ((liveSite b directory).machine p'.state)).run = found' at hfound
  obtain ⟨r, events⟩ := found
  obtain ⟨r', events'⟩ := found'
  cases hfound with
  | ok helected =>
      subst helected
      exact (h.report events events').activateAll horder horder' _
  | error f f' =>
      refine ⟨?_, h.world⟩
      simp only [Site.Progress.record, Traced.value_bind, h.status]
      exact Matches.value_record (.error f f') _ _

/-- **Whole passes** over one world in two orders. -/
theorem run (b : Beginning) (directory : Path) (settings : Settings) (w : World)
    (horder : World.IsListingOrder order) (horder' : World.IsListingOrder order') :
    Abreast order order' ((liveSite b directory).run settings (w.relisted order))
      ((liveSite b directory).run settings (w.relisted order')) := by
  have hstart : Abreast order order' ⟨pure {}, w.relisted order⟩ ⟨pure {}, w.relisted order'⟩ :=
    ⟨rfl, w, rfl, rfl⟩
  have hroot : Abreast order order' ((liveSite b directory).activateRoot settings _)
      ((liveSite b directory).activateRoot settings _) :=
    hstart.activateRoot horder horder' settings
  unfold Site.run
  change Abreast order order' (if b.inInitrd = true then _ else _)
    (if b.inInitrd = true then _ else _)
  split
  · exact hroot
  · exact hroot.activatePartitions horder horder'

end Abreast

/-- **A pass over the running machine does not depend on the order of listings.**  In every two
orders in which the names in each directory may be listed, a pass ends with the same status: the
same subjects are emitted and the same have failed, so that both passes succeed or both do not.  And
it ends with the same files, with the same content, and the same links and directories. -/
theorem livePass_relisted (settings : Settings) (directory : Path) (w : World)
    (horder : World.IsListingOrder order) (horder' : World.IsListingOrder order') :
    let first := livePass settings directory (w.relisted order)
    let second := livePass settings directory (w.relisted order')
    first.status.value.isSuccess = second.status.value.isSuccess ∧
      first.status.value.emitted = second.status.value.emitted ∧
      first.status.value.failed = second.status.value.failed ∧
      first.state.tree = second.state.tree := by
  intro first second
  have habreast : Abreast order order' first second :=
    Abreast.run w.beginning directory settings w horder horder'
  obtain ⟨hstatus, v, hstate, hstate'⟩ := habreast
  refine ⟨by rw [hstatus], by rw [hstatus], by rw [hstatus], ?_⟩
  rw [hstate, hstate']
  rfl

/-- A machine whose disk has a partition for `/home` and the root partition. -/
def World.withHomeDisk : World :=
  let text (s : String) : Entry := .file Tree.fileMode (.octets (Text.encode s.toList))
  let table : Content := .image 4096
    [(512, Gpt.signature), (528, [68, 19, 218, 78]), (584, [2]), (592, [1]), (596, [128]),
      (600, [125, 208, 156, 74]),
      (1024, [225, 199, 58, 147, 180, 46, 19, 79, 184, 68, 14, 20, 226, 174, 249, 21])]
  let answer (device output : String) : Octets × ProgramRun :=
    (Text.encode device.toList, { output := Text.encode output.toList })
  let prober : Program := .answering
    [answer "/dev/sda" "PTTYPE=gpt\n", answer "/dev/sda1" "TYPE=ext4\n"]
    { ending := .exited 2 }
  let directories := ["/bin", "/dest", "/dev", "/sys", "/sys/dev", "/sys/dev/block",
    "/sys/devices", "/sys/devices/sda", "/sys/devices/sda/sda1", "/sys/devices/sda/sda2"]
  let files :=
    [("/bin/blkid", .file 0o755 (.program prober)),
      ("/dev/sda", .file Tree.fileMode table),
      ("/sys/dev/block/8:2", .link (Text.encode "../../devices/sda/sda2".toList)),
      ("/sys/devices/sda/uevent", text "DEVTYPE=disk\nDEVNAME=sda\n"),
      ("/sys/devices/sda/dev", text "8:0\n"),
      ("/sys/devices/sda/sda1/partition", text "1\n"),
      ("/sys/devices/sda/sda1/uevent", text "DEVNAME=sda1\n"),
      ("/sys/devices/sda/sda1/dev", text "8:1\n"),
      ("/sys/devices/sda/sda2/partition", text "2\n"),
      ("/sys/devices/sda/sda2/uevent", text "DEVNAME=sda2\n"),
      ("/sys/devices/sda/sda2/dev", text "8:2\n")]
  let entries := directories.map (fun d => (d, Entry.directory Tree.directoryMode)) ++ files
  { tree := ⟨entries.map fun x => ((Path.ofText x.1).names, x.2)⟩
    environment := [("PATH", Text.encode "/bin".toList)]
    devicesBelow := [(Path.ofText "/", .ok ⟨8, 2⟩)] }

set_option maxRecDepth 20000 in
/-- A pass over such a machine sets up `/home`. -/
theorem emitted_withHomeDisk :
    (livePass {} (Path.ofText "/dest") World.withHomeDisk).status.value.emitted =
      ["home"] := by
  decide +kernel

/-- **The directory of the disk is listed backwards**, and `/home` is set up as before. -/
theorem withHomeDisk_backwards :
    let order : Path → List Name → List Name := fun _ names => names.reverse
    let disk := Path.ofText "/sys/devices/sda"
    let dest := Path.ofText "/dest"
    ((World.withHomeDisk.relisted order).list disk).toOption ≠
        (World.withHomeDisk.list disk).toOption ∧
      (livePass {} dest (World.withHomeDisk.relisted order)).status.value.emitted =
        ["home"] ∧
      (livePass {} dest (World.withHomeDisk.relisted order)).state.tree =
        (livePass {} dest World.withHomeDisk).state.tree := by
  have hbackwards : World.IsListingOrder fun _ names => names.reverse :=
    fun _ names => List.reverse_perm names
  have hforwards : World.IsListingOrder World.withHomeDisk.listingOrder :=
    fun _ names => .refl names
  obtain ⟨-, hemitted, -, htree⟩ := livePass_relisted {} (Path.ofText "/dest")
    World.withHomeDisk hbackwards hforwards
  rw [World.relisted_self] at hemitted htree
  refine ⟨by decide +kernel, ?_, htree⟩
  rw [hemitted]
  exact emitted_withHomeDisk

end PartitionUnits
