import PartitionUnits.Proofs.Device.Number
import PartitionUnits.Proofs.FileSystem.Slot
import PartitionUnits.Proofs.LastTold
import PartitionUnits.Proofs.ListingOrder
import PartitionUnits.Proofs.Text.Words

/-!
# The partitions that a device tree shows

A disk's directory has one directory for each of its partitions, besides others.  What makes a
directory one of a partition, and what makes it unusable, is said here by its files.

## Main Definitions

* `World.HasAttribute`, `World.HasProperty` — what the files of a device say
* `World.ShowsPartition` — a directory that shows a partition, and the partition
* `World.IsGarbled` — a directory that should show a partition and cannot be made sense of
* `World.partitionAt_eq_some_iff`, `World.partitionAt_fails_iff` — what a directory comes to
* `World.partitionsOf_exact` — the partitions of a disk

## Design Notes

A file that is not there, a property that is missing and a number without a device each make a
directory be passed over, and so each of them can hide a malformed file that would be read later.
`World.IsGarbled` therefore has one constructor for each file that can be malformed, with what has
to be in order for it to be read at all.
-/

namespace PartitionUnits

open Text
open Device (Block)

/-! ## Lists that are worked on -/

section

variable {ε α β : Type} {xs : List α}

theorem exists_of_map_eq_ok {r : Except ε α} {f : α → β} {b : β} (h : r.map f = .ok b) :
    ∃ a, r = .ok a ∧ f a = b := by
  cases r with
  | error e => cases h
  | ok a => exact ⟨a, rfl, Except.ok.inj h⟩

/-- **Work on a list fails just if the work on one of its elements does.** -/
theorem mapM_fails_iff {f : α → Except ε β} :
    (∃ e, xs.mapM f = .error e) ↔ ∃ x ∈ xs, ∃ e, f x = .error e := by
  induction xs with
  | nil => simp [pure, Except.pure]
  | cons x xs ih =>
      rw [List.mapM_cons, List.exists_mem_cons_iff, ← ih]
      cases f x with
      | error e => simp [bind, Except.bind]
      | ok y => cases xs.mapM f <;> simp [bind, Except.bind, pure, Except.pure]

/-- What a list of results is made of. -/
theorem exists_of_mem_mapM {f : α → Except ε β} {ys : List β} (h : xs.mapM f = .ok ys) {y : β}
    (hy : y ∈ ys) : ∃ x ∈ xs, f x = .ok y := by
  induction xs generalizing ys with
  | nil =>
      cases h
      cases hy
  | cons x xs ih =>
      rw [List.mapM_cons] at h
      obtain ⟨first, hx, hrest⟩ := Tree.bind_eq_ok.mp h
      obtain ⟨others, hothers, hpure⟩ := Tree.bind_eq_ok.mp hrest
      cases hpure
      rcases List.mem_cons.mp hy with rfl | hy
      · exact ⟨x, List.mem_cons_self, hx⟩
      · obtain ⟨x', hx', hy'⟩ := ih hothers hy
        exact ⟨x', List.mem_cons_of_mem _ hx', hy'⟩

/-- **What comes of a list, one by one**, belongs to some of its elements, and to each of them
once. -/
theorem exists_used_unused {f : α → Except ε (Option β)} {found : List (Option β)}
    (h : xs.mapM f = .ok found) : ∃ used unused, xs.Perm (used ++ unused) ∧
      List.Forall₂ (fun x y => f x = .ok (some y)) used (found.filterMap id) ∧
      ∀ x ∈ unused, f x = .ok none := by
  induction xs generalizing found with
  | nil =>
      rw [List.mapM_nil] at h
      cases h
      exact ⟨[], [], .nil, .nil, by simp⟩
  | cons x xs ih =>
      rw [List.mapM_cons] at h
      obtain ⟨y, hx, hrest⟩ := Tree.bind_eq_ok.mp h
      obtain ⟨others, hothers, hpure⟩ := Tree.bind_eq_ok.mp hrest
      cases hpure
      obtain ⟨used, unused, hperm, hused, hunused⟩ := ih hothers
      cases y with
      | none =>
          refine ⟨used, x :: unused, ?_, hused, List.forall_mem_cons.mpr ⟨hx, hunused⟩⟩
          exact (hperm.cons x).trans List.perm_middle.symm
      | some y => exact ⟨x :: used, unused, hperm.cons x, .cons hx hused, hunused⟩

end

namespace World

variable {w : World} {directory : Path} {name key value s : String} {b : Block}
  {n : Device.Number}

/-! ## What the files of a device say -/

/-- **An attribute has a value**: the text of the file of that name, without the blanks around
it. -/
def HasAttribute (w : World) (directory : Path) (name : String) (value : List Char) : Prop :=
  ∃ text, w.readText (directory.join (Path.ofText name)) = .ok text ∧
    trim text.toList = value

/-- **A property has a value**: the last line for its key says so. -/
def HasProperty (w : World) (directory : Path) (key value : String) : Prop :=
  ∃ content, w.HasAttribute directory "uevent" content ∧
    LastTells (fun line (value : String) => line = key.toList ++ '=' :: value.toList)
      (lines content) value

/-- A device has a number. -/
def HasNumber (w : World) (directory : Path) (n : Device.Number) : Prop :=
  ∃ text, w.HasAttribute directory "dev" text ∧ n.IsWrittenAs text

/-- A partition has a number of 32 bits. -/
def HasPartitionNumber (w : World) (directory : Path) (n : Nat) : Prop :=
  ∃ text, w.HasAttribute directory "partition" text ∧ IsNumeral text n ∧ n < UInt32.size

/-- An attribute has one value. -/
theorem HasAttribute.unique {text text' : List Char} (h : w.HasAttribute directory name text)
    (h' : w.HasAttribute directory name text') : text = text' := by
  obtain ⟨content, hcontent, rfl⟩ := h
  obtain ⟨content', hcontent', rfl⟩ := h'
  rw [Except.ok.inj (hcontent.symm.trans hcontent')]

/-- The attributes that are read are those that a device has. -/
theorem deviceAttribute_eq_ok_iff :
    w.deviceAttribute directory name = .ok s ↔ w.HasAttribute directory name s.toList := by
  unfold deviceAttribute HasAttribute
  simp only
  cases w.readText (directory.join (Path.ofText name)) with
  | error e => simp
  | ok text =>
      simp only [Except.ok.injEq, exists_eq_left']
      exact ⟨fun h => by rw [← h, String.toList_ofList], fun h => by rw [h, String.ofList_toList]⟩

theorem HasAttribute.deviceAttribute_eq {text : List Char}
    (h : w.HasAttribute directory name text) :
    w.deviceAttribute directory name = .ok (String.ofList text) :=
  deviceAttribute_eq_ok_iff.mpr (by rwa [String.toList_ofList])

/-- What is read as a line with a key is such a line. -/
theorem map_cut?_eq_some_iff (hkey : '=' ∉ key.toList) {line : List Char} :
    (cut? '=' line).map (fun x => (String.ofList x.1, String.ofList x.2)) = some (key, value) ↔
      line = key.toList ++ '=' :: value.toList := by
  rw [Option.map_eq_some_iff]
  constructor
  · rintro ⟨⟨a, b⟩, hcut, hpair⟩
    cases hpair
    rw [String.toList_ofList, String.toList_ofList]
    exact (eq_append_of_cut? hcut).1
  · rintro rfl
    exact ⟨_, cut?_append hkey, by simp⟩

/-- **The properties that are read are those that a device has.** -/
theorem get?_eq_some_iff {properties : Properties} (hkey : '=' ∉ key.toList)
    (h : w.deviceProperties directory = .ok properties) :
    properties.get? key = some value ↔ w.HasProperty directory key value := by
  obtain ⟨content, hcontent, hproperties⟩ := Tree.bind_eq_ok.mp h
  cases hproperties
  have hattribute := deviceAttribute_eq_ok_iff.mp hcontent
  unfold Properties.get? HasProperty
  rw [lookup_reverse_filterMap_iff]
  simp only [map_cut?_eq_some_iff hkey]
  constructor
  · exact fun hlast => ⟨_, hattribute, hlast⟩
  · rintro ⟨content', hcontent', hlast⟩
    rwa [hattribute.unique hcontent']

theorem deviceProperties_fails_iff : (∃ failure, w.deviceProperties directory = .error failure) ↔
    ∀ content, ¬ w.HasAttribute directory "uevent" content := by
  unfold deviceProperties
  cases hattribute : w.deviceAttribute directory "uevent" with
  | error failure =>
      refine iff_of_true ⟨failure, rfl⟩ fun content hcontent => ?_
      cases hattribute.symm.trans hcontent.deviceAttribute_eq
  | ok content =>
      refine iff_of_false ?_ fun h => h _ (deviceAttribute_eq_ok_iff.mp hattribute)
      simp [bind, Except.bind]

/-- **The numbers that are read are those that devices have.** -/
theorem numberAt_eq_ok_iff : w.numberAt directory = .ok n ↔ w.HasNumber directory n := by
  have hparse : ∀ s, (Device.Number.parse s).mapError Device.NumberError.failure = .ok n ↔
      n.IsWrittenAs (trim s.toList) := by
    intro s
    rw [← Device.Number.parse_eq_ok_iff]
    cases Device.Number.parse s <;> simp [Except.mapError]
  -- An attribute that is read is trimmed already.
  have htrimmed : ∀ {text}, w.HasAttribute directory "dev" text → trim text = text := by
    rintro _ ⟨content, -, rfl⟩
    exact trim_trim content.toList
  unfold numberAt HasNumber
  simp only [Tree.bind_eq_ok, hparse]
  constructor
  · rintro ⟨s, hs, hnumber⟩
    have hattribute := deviceAttribute_eq_ok_iff.mp hs
    rw [htrimmed hattribute] at hnumber
    exact ⟨s.toList, hattribute, hnumber⟩
  · rintro ⟨text, htext, hnumber⟩
    refine ⟨String.ofList text, htext.deviceAttribute_eq, ?_⟩
    rwa [String.toList_ofList, htrimmed htext]

/-- The number that is read of a partition, or why there is none. -/
theorem exists_parseNumeral_iff {k : Nat} :
    (∃ s, w.deviceAttribute directory "partition" = .ok s ∧
      parseNumeral partitionNumberBound s.toList = .ok k) ↔ w.HasPartitionNumber directory k := by
  simp only [parseNumeral_eq_ok_iff]
  constructor
  · rintro ⟨s, hs, hnumeral⟩
    exact ⟨s.toList, deviceAttribute_eq_ok_iff.mp hs, hnumeral⟩
  · rintro ⟨text, htext, hnumeral⟩
    exact ⟨String.ofList text, htext.deviceAttribute_eq, by rwa [String.toList_ofList]⟩

/-! ## Directories of partitions -/

/-- **A directory shows a partition**: it has a regular file with the partition's number, a name for
the device node, and the number of a device that there is. -/
structure ShowsPartition (w : World) (directory : Path) (b : Block) : Prop where
  isPartition : w.isFile (directory.join (Path.ofText "partition")) = true
  node : ∃ name, w.HasProperty directory "DEVNAME" name ∧
    b.node = deviceNodes.join (Path.ofText name)
  partition : ∃ k, w.HasPartitionNumber directory k ∧ b.partition = some k
  number : w.HasNumber directory b.number
  major_ne_zero : b.number.major ≠ 0
  directory : b.directory = directory

/-- **A directory is garbled** if it should show a partition, but a file that is needed next cannot
be made sense of. -/
inductive IsGarbled (w : World) (directory : Path) : Prop where
  | properties (hfile : w.isFile (directory.join (Path.ofText "partition")) = true)
      (h : ∀ content, ¬ w.HasAttribute directory "uevent" content) : IsGarbled w directory
  | partition {name : String}
      (hfile : w.isFile (directory.join (Path.ofText "partition")) = true)
      (hname : w.HasProperty directory "DEVNAME" name)
      (h : ∀ k, ¬ w.HasPartitionNumber directory k) : IsGarbled w directory
  | number {name : String}
      (hfile : w.isFile (directory.join (Path.ofText "partition")) = true)
      (hname : w.HasProperty directory "DEVNAME" name)
      (h : ∀ n, ¬ w.HasNumber directory n) : IsGarbled w directory

/-- Properties that a device has are read. -/
theorem HasProperty.exists_properties (h : w.HasProperty directory key value)
    (hkey : '=' ∉ key.toList) : ∃ properties, w.deviceProperties directory = .ok properties ∧
      properties.get? key = some value := by
  obtain ⟨content, hcontent, -⟩ := id h
  cases hproperties : w.deviceProperties directory with
  | error failure => exact absurd hcontent (deviceProperties_fails_iff.mp ⟨failure, hproperties⟩ _)
  | ok properties => exact ⟨properties, rfl, (get?_eq_some_iff hkey hproperties).mpr h⟩

theorem equals_notMem_devname : '=' ∉ "DEVNAME".toList := by decide

/-- **What an answer rests on**: each file that was looked at to come to it was in order. -/
theorem partitionAt_eq_ok {found : Option Block} (h : w.partitionAt directory = .ok found) :
    (w.isFile (directory.join (Path.ofText "partition")) = false ∧ found = none) ∨
      (w.isFile (directory.join (Path.ofText "partition")) = true ∧
        ∃ properties, w.deviceProperties directory = .ok properties ∧
          ((properties.get? "DEVNAME" = none ∧ found = none) ∨
            ∃ name k n, properties.get? "DEVNAME" = some name ∧
              w.HasPartitionNumber directory k ∧ w.HasNumber directory n ∧
              found = if n.major = 0 then none
                else some ⟨n, deviceNodes.join (Path.ofText name), directory, some k⟩)) := by
  unfold partitionAt at h
  split at h
  next hfile =>
    cases h
    exact .inl ⟨by simpa using hfile, rfl⟩
  next hfile =>
  obtain ⟨properties, hproperties, h⟩ := Tree.bind_eq_ok.mp h
  refine .inr ⟨by simpa using hfile, properties, hproperties, ?_⟩
  split at h
  next hname =>
    cases h
    exact .inl ⟨hname, rfl⟩
  next name hname =>
  obtain ⟨s, hs, h⟩ := Tree.bind_eq_ok.mp h
  split at h
  · cases h
  next k hk =>
  obtain ⟨n, hn, h⟩ := Tree.bind_eq_ok.mp h
  refine .inr ⟨name, k, n, hname, exists_parseNumeral_iff.mp ⟨s, hs, hk⟩,
    numberAt_eq_ok_iff.mp hn, ?_⟩
  by_cases hzero : n.major = 0
  · rw [if_pos hzero] at h ⊢
    exact (Except.ok.inj h).symm
  · rw [if_neg hzero] at h ⊢
    exact (Except.ok.inj h).symm

/-- **A partition is found just if its directory shows it.** -/
theorem partitionAt_eq_some_iff :
    w.partitionAt directory = .ok (some b) ↔ w.ShowsPartition directory b := by
  constructor
  · intro h
    rcases partitionAt_eq_ok h with ⟨-, hnone⟩ | ⟨hfile, properties, hproperties, hcases⟩
    · cases hnone
    rcases hcases with ⟨-, hnone⟩ | ⟨name, k, n, hname, hk, hn, hfound⟩
    · cases hnone
    have hzero : n.major ≠ 0 := fun hzero => by simp [hzero] at hfound
    rw [if_neg hzero] at hfound
    cases hfound
    have hname := (get?_eq_some_iff equals_notMem_devname hproperties).mp hname
    exact ⟨hfile, ⟨name, hname, rfl⟩, ⟨k, hk, rfl⟩, hn, hzero, rfl⟩
  · intro h
    obtain ⟨number, node, _, _⟩ := b
    obtain ⟨name, hname, rfl⟩ := h.node
    obtain ⟨k, hk, rfl⟩ := h.partition
    cases h.directory
    obtain ⟨properties, hproperties, hget⟩ := hname.exists_properties equals_notMem_devname
    obtain ⟨s, hs, hparse⟩ := exists_parseNumeral_iff.mpr hk
    unfold partitionAt
    rw [if_neg (by simpa using h.isPartition), hproperties]
    simp only [bind, Except.bind, hget, hs, hparse, numberAt_eq_ok_iff.mpr h.number,
      if_neg h.major_ne_zero]

/-- **A directory that is garbled gives no answer**, for it would rest on the malformed file. -/
theorem IsGarbled.partitionAt_ne_ok (h : w.IsGarbled directory) (found : Option Block) :
    w.partitionAt directory ≠ .ok found := by
  intro hok
  rcases partitionAt_eq_ok hok with ⟨hfile, -⟩ | ⟨-, properties, hproperties, hcases⟩
  · cases h <;> simp_all
  -- The name that a garbled directory has is the one that was read.
  have hget {name : String} (hname : w.HasProperty directory "DEVNAME" name) :
      properties.get? "DEVNAME" = some name :=
    (get?_eq_some_iff equals_notMem_devname hproperties).mpr hname
  cases h with
  | properties _ hnone =>
      obtain ⟨failure, hfails⟩ := deviceProperties_fails_iff.mpr hnone
      cases hfails.symm.trans hproperties
  | partition _ hname hnone =>
      rcases hcases with ⟨hmissing, -⟩ | ⟨_, k, _, -, hk, -⟩
      · cases hmissing.symm.trans (hget hname)
      · exact hnone k hk
  | number _ hname hnone =>
      rcases hcases with ⟨hmissing, -⟩ | ⟨_, _, n, -, -, hn, -⟩
      · cases hmissing.symm.trans (hget hname)
      · exact hnone n hn

/-- **A directory cannot be made sense of just if it is garbled.** -/
theorem partitionAt_fails_iff :
    (∃ failure, w.partitionAt directory = .error failure) ↔ w.IsGarbled directory := by
  constructor
  · rintro ⟨failure, h⟩
    unfold partitionAt at h
    split at h
    · cases h
    next hfile =>
    have hfile : w.isFile (directory.join (Path.ofText "partition")) = true := by
      simpa using hfile
    cases hproperties : w.deviceProperties directory with
    | error failure' => exact .properties hfile (deviceProperties_fails_iff.mp ⟨_, hproperties⟩)
    | ok properties =>
    rw [hproperties] at h
    simp only [bind, Except.bind] at h
    split at h
    · cases h
    next name hget =>
    have hname := (get?_eq_some_iff equals_notMem_devname hproperties).mp hget
    by_cases hk : ∃ k, w.HasPartitionNumber directory k
    · obtain ⟨k, hk⟩ := hk
      obtain ⟨s, hs, hparse⟩ := exists_parseNumeral_iff.mpr hk
      refine .number hfile hname fun n hn => ?_
      rw [hs] at h
      simp only [hparse, numberAt_eq_ok_iff.mpr hn] at h
      split at h <;> cases h
    · exact .partition hfile hname (not_exists.mp hk)
  · intro hgarbled
    cases h : w.partitionAt directory with
    | error failure => exact ⟨failure, rfl⟩
    | ok found => exact absurd h (hgarbled.partitionAt_ne_ok found)

/-! ## Disks -/

variable {disk : Block} {children : List Name}

/-- A disk that is listed is answered for child by child, in the order of the listing. -/
theorem partitionsOf_of_list (h : w.children disk.directory = .ok children) :
    w.partitionsOf disk = (do
      let found ← (w.listingOrder disk.directory children).mapM fun child =>
        w.partitionAt (disk.directory.join ⟨child⟩)
      .ok (found.filterMap id)) := by
  rw [partitionsOf, list, h]
  rfl

/-- **A disk that is listed gives no answer just if one of its children is garbled.** -/
theorem partitionsOf_fails_iff (horder : IsListingOrder w.listingOrder)
    (h : w.children disk.directory = .ok children) :
    (∃ failure, w.partitionsOf disk = .error failure) ↔
      ∃ child ∈ children, w.IsGarbled (disk.directory.join ⟨child⟩) := by
  rw [partitionsOf_of_list h]
  simp only [← (horder disk.directory children).mem_iff, ← partitionAt_fails_iff]
  rw [← mapM_fails_iff]
  cases (w.listingOrder disk.directory children).mapM fun child =>
    w.partitionAt (disk.directory.join ⟨child⟩) <;> simp [bind, Except.bind]

/-- **An answer has one partition for each child that shows one**, and none for the others. -/
theorem partitionsOf_eq_ok (horder : IsListingOrder w.listingOrder) {blocks : List Block}
    (h : w.children disk.directory = .ok children) (hok : w.partitionsOf disk = .ok blocks) :
    ∃ shown others, children.Perm (shown ++ others) ∧
      List.Forall₂ (fun child b => w.ShowsPartition (disk.directory.join ⟨child⟩) b)
        shown blocks ∧
      ∀ child ∈ others, ∀ b, ¬ w.ShowsPartition (disk.directory.join ⟨child⟩) b := by
  rw [partitionsOf_of_list h] at hok
  obtain ⟨found, hfound, hpure⟩ := Tree.bind_eq_ok.mp hok
  cases hpure
  obtain ⟨shown, others, hperm, hshown, hothers⟩ := exists_used_unused hfound
  refine ⟨shown, others, (horder disk.directory children).symm.trans hperm, ?_, ?_⟩
  · exact hshown.imp fun _ _ => partitionAt_eq_some_iff.mp
  · intro child hchild b hb
    cases (hothers child hchild).symm.trans (partitionAt_eq_some_iff.mpr hb)

/-- Each partition of a disk is shown by its directory. -/
theorem showsPartition_of_mem {blocks : List Block} (h : w.partitionsOf disk = .ok blocks)
    (hb : b ∈ blocks) : w.ShowsPartition b.directory b := by
  unfold partitionsOf at h
  split at h
  · cases h
  obtain ⟨found, hfound, hpure⟩ := Tree.bind_eq_ok.mp h
  cases hpure
  obtain ⟨_, hmem, rfl⟩ := List.mem_filterMap.mp hb
  obtain ⟨child, -, hchild⟩ := exists_of_mem_mapM hfound hmem
  have hshows := partitionAt_eq_some_iff.mp hchild
  rwa [hshows.directory]

/-- **The partitions of a disk are those that its children show**, once each and whatever the order
of the listing; there is no answer just if the disk is not listed or a child is garbled. -/
theorem partitionsOf_exact (horder : IsListingOrder w.listingOrder) (disk : Block) :
    ((∃ failure, w.partitionsOf disk = .error failure) ↔
        (∃ e, w.children disk.directory = .error e) ∨
          ∃ children, w.children disk.directory = .ok children ∧
            ∃ child ∈ children, w.IsGarbled (disk.directory.join ⟨child⟩)) ∧
      ∀ children, w.children disk.directory = .ok children →
        (∀ child ∈ children, ¬ w.IsGarbled (disk.directory.join ⟨child⟩)) →
        ∃ blocks shown others, w.partitionsOf disk = .ok blocks ∧
          children.Perm (shown ++ others) ∧
          List.Forall₂ (fun child b => w.ShowsPartition (disk.directory.join ⟨child⟩) b)
            shown blocks ∧
          ∀ child ∈ others, ∀ b, ¬ w.ShowsPartition (disk.directory.join ⟨child⟩) b := by
  constructor
  · cases h : w.children disk.directory with
    | error e =>
        refine iff_of_true ?_ (.inl ⟨e, rfl⟩)
        exact ⟨_, by rw [partitionsOf, list, h]; rfl⟩
    | ok children => simp [partitionsOf_fails_iff horder h]
  · intro children h hgarbled
    cases hok : w.partitionsOf disk with
    | error failure =>
        obtain ⟨child, hchild, hbad⟩ := (partitionsOf_fails_iff horder h).mp ⟨failure, hok⟩
        exact absurd hbad (hgarbled child hchild)
    | ok blocks =>
        obtain ⟨shown, others, hexact⟩ := partitionsOf_eq_ok horder h hok
        exact ⟨blocks, shown, others, rfl, hexact⟩

/-- A disk whose directory is listed backwards has two children that show partitions, and two
others. -/
theorem partitionsOf_backwards :
    let w := withHomeDisk.relisted fun _ names => names.reverse
    let disk : Block := ⟨⟨8, 0⟩, Path.ofText "/dev/sda", Path.ofText "/sys/devices/sda", none⟩
    ∃ children, w.children disk.directory = .ok children ∧
      (∀ child ∈ children, ¬ w.IsGarbled (disk.directory.join ⟨child⟩)) ∧
      ∃ blocks shown others, w.partitionsOf disk = .ok blocks ∧
        children.Perm (shown ++ others) ∧
        List.Forall₂ (fun child b => w.ShowsPartition (disk.directory.join ⟨child⟩) b)
          shown blocks ∧
        blocks.map (·.partition) = [some 2, some 1] ∧ others.length = 2 := by
  intro w disk
  have hbackwards : IsListingOrder w.listingOrder := fun _ names => List.reverse_perm names
  obtain ⟨hfails, hanswer⟩ := partitionsOf_exact hbackwards disk
  obtain ⟨blocks, hok, hnumbers⟩ : ∃ blocks, w.partitionsOf disk = .ok blocks ∧
      blocks.map (·.partition) = [some 2, some 1] := exists_of_map_eq_ok (by decide +kernel)
  obtain ⟨children, hlist, hcount⟩ : ∃ children, w.children disk.directory = .ok children ∧
      children.length = 4 := exists_of_map_eq_ok (by decide +kernel)
  have hsound : ∀ child ∈ children, ¬ w.IsGarbled (disk.directory.join ⟨child⟩) := by
    intro child hchild hgarbled
    obtain ⟨failure, herror⟩ := hfails.mpr (.inr ⟨children, hlist, child, hchild, hgarbled⟩)
    cases herror.symm.trans hok
  obtain ⟨blocks', shown, others, hok', hperm, hshown, -⟩ := hanswer children hlist hsound
  cases hok'.symm.trans hok
  have hblocks : blocks.length = 2 := by simpa using congrArg List.length hnumbers
  refine ⟨children, hlist, hsound, blocks, shown, others, hok, hperm, hshown, hnumbers, ?_⟩
  have := hperm.length_eq
  have := hshown.length_eq
  simp only [List.length_append] at *
  omega

end World

end PartitionUnits
