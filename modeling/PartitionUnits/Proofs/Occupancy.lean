import PartitionUnits.Proofs.FileSystem.Slot
import PartitionUnits.Proofs.ListingOrder
import PartitionUnits.Proofs.MountTable
import PartitionUnits.RunningHost

/-!
# When a path is left alone

A mount point is used only if nothing can be there that a mount would hide.  There are two ways to
be sure of that, and whatever else there is at a path, or goes wrong on the way to it, counts as
something.

## Main Definitions

* `World.IsVacant` — a path leads to an empty directory that nothing is mounted on
* `World.isBusy_eq_false_iff` — a path is free if it is missing or vacant, and for no other reason

## Design Notes

Whether something is mounted is asked of the path without links, but whether the path is missing is
asked before links are followed: a link that leads nowhere is there, so it is not missing, and what
it should lead to cannot be found, so it is not vacant.  The same goes for a path that must not be
looked at: it is neither known to be missing nor known to be vacant.

How a line of the mount table is understood is up to its reader, of which it is asked only that it
goes line by line (`MountTable.Reader.IsLinewise`).
-/

namespace PartitionUnits

open PartitionUnits.Tree Text

variable {t : Tree} {w : World} {p c : Path} {l : Location}

/-- A walk that leads to something past a link at its end leads to something before that link. -/
theorem Tree.Leads.exists_of_not_following {links : Nat} {here : Location} {names : List Name}
    {e : Entry} (h : t.Leads true links here names l) (he : t.entry? l = some e) :
    ∃ l' e', t.Leads false links here names l' ∧ t.entry? l' = some e' := by
  induction h with
  | arrived => exact ⟨_, _, .arrived, he⟩
  | stay hdir _ ih =>
      obtain ⟨l', e', hleads, hentry⟩ := ih he
      exact ⟨l', e', .stay hdir hleads, hentry⟩
  | up hdir _ ih =>
      obtain ⟨l', e', hleads, hentry⟩ := ih he
      exact ⟨l', e', .up hdir hleads, hentry⟩
  | enter hdir hplain hthere hlink _ ih =>
      obtain ⟨l', e', hleads, hentry⟩ := ih he
      exact ⟨l', e', .enter hdir hplain hthere hlink hleads, hentry⟩
  | endAtLink _ _ _ hfollow => cases hfollow
  | @through links here l name rest target hdir hplain hthere _ _ ih =>
      by_cases hrest : rest = []
      · -- The link itself is there.
        subst hrest
        exact ⟨_, _, .endAtLink hdir hplain hthere rfl, hthere⟩
      · obtain ⟨l', e', hleads, hentry⟩ := ih he
        exact ⟨l', e', .through hdir hplain hthere (Or.inl hrest) hleads, hentry⟩

/-- A path that leads to something is not missing. -/
theorem Tree.exists_find_false {e : Entry} (h : t.find true p = .ok e) :
    ∃ e', t.find false p = .ok e' := by
  obtain ⟨l, hlocate, hentry⟩ := find_eq_ok_iff.mp h
  obtain ⟨hfault, hleads⟩ := locate_eq_ok_iff.mp hlocate
  obtain ⟨l', e', hleads', hentry'⟩ := hleads.exists_of_not_following hentry
  exact ⟨e', find_eq_ok_iff.mpr ⟨l', locate_eq_ok_iff.mpr ⟨hfault, hleads'⟩, hentry'⟩⟩

/-- What the host has to answer so that a path is not busy. -/
theorem Host.isBusy_eq_false_iff_of_answers {h : Host} : (h.isBusy p).value = false ↔
    h.mountPointState p = .ok .missing ∨
      h.mountPointState p = .ok .notMountPoint ∧ h.isEmptyDirectory p = .ok true := by
  unfold Host.isBusy Host.occupancy
  cases h.mountPointState p with
  | error f => simp [Occupancy.isBusy]
  | ok state =>
      cases state with
      | missing | mountPoint => simp [Occupancy.isBusy]
      | notMountPoint =>
          cases h.isEmptyDirectory p with
          | error f => simp [Occupancy.isBusy]
          | ok empty => cases empty <;> simp [Occupancy.isBusy]

namespace World

variable {line : Octets → Option Path}

/-- **A path leads to a vacant directory**: it can be resolved and listed, it has no entries, and
the mount table is opened and read, all its lines are understood, and none of them tells of the path
of the directory. -/
def IsVacant (w : World) (line : Octets → Option Path) (p : Path) : Prop :=
  ∃ (l : Location) (table : Content),
    w.resolve p = .ok l.path ∧
    w.tree.locate true p = .ok l ∧
    w.opened mountTableFile = .ok (.ok table) ∧
    (∀ octets ∈ mountLines table.all, ∃ q, line octets = some q ∧ ¬ q.SameAs l.path) ∧
    w.refusals.refusal? .listing p = none ∧
    w.tree.isDirectoryAt l = true ∧
    ∀ name, w.tree.entry? (l ++ [name]) = none

/-- **What is told of a path**: it is missing, or it can be resolved, and the mounts are asked for
its path without links. -/
theorem mountPointState_eq_ok_iff {state : MountPointState} : w.mountPointState p = .ok state ↔
    (w.status p = .error .notFound ∧ state = .missing) ∨
      ∃ e c mounted, w.status p = .ok e ∧ w.resolve p = .ok c ∧
        (∃ items, w.readers.mounts (w.opened mountTableFile) = .ok items ∧
          findMount c items = .ok mounted) ∧
        state = if mounted then .mountPoint else .notMountPoint := by
  unfold mountPointState mounts
  cases w.status p with
  | error err =>
      by_cases hmissing : err = .notFound
      · simp [hmissing, eq_comm]
      · simp [hmissing]
  | ok e =>
      cases w.resolve p with
      | error err => simp [Except.mapError, bind, Except.bind]
      | ok c =>
          cases w.readers.mounts (w.opened mountTableFile) with
          | error f => simp [Except.mapError, bind, Except.bind]
          | ok items =>
              cases hfound : findMount c items with
              | error f => simp [Except.mapError, bind, Except.bind, hfound]
              | ok mounted =>
                  cases mounted <;>
                    simp [Except.mapError, bind, Except.bind, hfound, pure, Except.pure, eq_comm]

/-- A path can be resolved if it leads somewhere and is not refused. -/
theorem resolve_eq_ok_iff : w.resolve p = .ok c ↔
    w.refusals.refusal? .resolution p = none ∧ ∃ l, w.tree.locate true p = .ok l ∧ l.path = c := by
  unfold resolve
  rw [Refusals.answer_eq_ok_iff, canonical]
  cases w.tree.locate true p <;> simp [Except.map]

/-- A path can be listed as empty in any order if it leads to a directory without entries. -/
theorem isEmptyDirectory_eq_true_iff (horder : IsListingOrder w.listingOrder) :
    w.isEmptyDirectory p = .ok true ↔ w.refusals.refusal? .listing p = none ∧
      ∃ l, w.tree.locate true p = .ok l ∧ w.tree.isDirectoryAt l = true ∧
        ∀ name, w.tree.entry? (l ++ [name]) = none := by
  have hnil : ∀ names, w.listingOrder p names = [] ↔ names = [] := by
    intro names
    rw [← List.length_eq_zero_iff, (horder p names).length_eq, List.length_eq_zero_iff]
  have hlisted : w.isEmptyDirectory p = .ok true ↔ w.children p = .ok [] := by
    unfold isEmptyDirectory list
    cases w.children p <;> simp [Except.map, hnil]
  rw [hlisted, children, Refusals.answer_eq_ok_iff]
  refine and_congr_right fun _ => ?_
  unfold Tree.list
  cases w.tree.locate true p with
  | error err => simp [bind, Except.bind]
  | ok l =>
      by_cases hd : w.tree.isDirectoryAt l = true <;>
        simp [bind, Except.bind, hd, names_eq_nil_iff]

/-- **The busy guard fails safe.**  Nothing at a path is in the way of a mount if the path is
missing or leads to a vacant directory, and in no other case: whatever else there is, whatever is
refused and whatever goes wrong, the path is busy. -/
theorem isBusy_eq_false_iff (inInitrd : Bool) (p : Path)
    (horder : IsListingOrder w.listingOrder) (hreader : w.readers.mounts.IsLinewise line) :
    ((w.host inInitrd).isBusy p).value = false ↔
      w.status p = .error .notFound ∨ w.IsVacant line p := by
  rw [Host.isBusy_eq_false_iff_of_answers]
  show w.mountPointState p = .ok .missing ∨
    w.mountPointState p = .ok .notMountPoint ∧ w.isEmptyDirectory p = .ok true ↔ _
  rw [mountPointState_eq_ok_iff, mountPointState_eq_ok_iff, isEmptyDirectory_eq_true_iff horder]
  constructor
  · rintro ((⟨hmissing, -⟩ | ⟨_, _, mounted, -, -, -, hstate⟩) |
      ⟨hstate, hlisting, l, hl, hd, hempty⟩)
    · exact Or.inl hmissing
    · cases mounted <;> cases hstate
    rcases hstate with ⟨-, hstate⟩ | ⟨_, c, mounted, -, hresolve, hmounted, hstate⟩
    · cases hstate
    cases mounted with
    | true => cases hstate
    | false =>
        obtain ⟨table, htable, hlines⟩ := hreader.read_and_findMount_iff.mp hmounted
        obtain ⟨-, l', hl', rfl⟩ := resolve_eq_ok_iff.mp hresolve
        cases hl.symm.trans hl'
        exact Or.inr ⟨l, table, hresolve, hl, htable, hlines, hlisting, hd, hempty⟩
  · rintro (hmissing | ⟨l, table, hresolve, hl, htable, hlines, hlisting, hd, hempty⟩)
    · exact Or.inl (Or.inl ⟨hmissing, rfl⟩)
    · obtain ⟨mode, hmode⟩ := isDirectoryAt_iff.mp hd
      obtain ⟨e, hfind⟩ := exists_find_false (find_eq_ok_iff.mpr ⟨l, hl, hmode⟩)
      -- What can be resolved can be looked at.
      have hstatus : w.status p = .ok e := Refusals.answer_eq_ok_iff.mpr
        ⟨Refusals.status_of_resolution (resolve_eq_ok_iff.mp hresolve).1, hfind⟩
      have hmounted := hreader.read_and_findMount_iff.mpr ⟨table, htable, hlines⟩
      exact Or.inr
        ⟨Or.inr ⟨e, l.path, false, hstatus, hresolve, hmounted, rfl⟩, hlisting, l, hl, hd, hempty⟩

/-- A world with an empty directory, a link to it, and other file systems that are mounted. -/
def withEmptyHome : World :=
  let table := "proc /proc proc rw,nosuid 0 0\n/dev/sda2 / ext4 rw,relatime 0 1\n"
  { tree := ⟨[([encode "home".toList], .directory directoryMode),
      ([encode "link".toList], .link (encode "home".toList)),
      ([encode "dead".toList], .link (encode "nowhere".toList)),
      ([encode "proc".toList], .directory directoryMode),
      ([encode "proc".toList, encode "mounts".toList],
        .file fileMode (.octets (encode table.toList)))]⟩ }

/-- That world, where nobody may look at the directory except through the link. -/
def withLockedHome : World :=
  { withEmptyHome with
    refusals := {
      refusal? := fun lookup p =>
        if (lookup = .status ∨ lookup = .resolution) ∧ p = Path.ofText "/home" then
          some .permission
        else none
      ne_notFound := fun _ _ => by split <;> simp
      resolution_of_status := fun p h => by
        split at h
        · next hlocked => simp [hlocked.2]
        · cases h } }

/-- The link to the directory is free because that is vacant.  A link that leads nowhere is busy,
and so is the directory if nobody may look at it. -/
theorem withEmptyHome_isVacant :
    IsListingOrder withEmptyHome.listingOrder ∧
      withEmptyHome.readers.mounts.IsLinewise mountOfOctets? ∧
      withEmptyHome.IsVacant mountOfOctets? (Path.ofText "/link") ∧
      ((withEmptyHome.host false).isBusy (Path.ofText "/dead")).value = true ∧
      withLockedHome.status (Path.ofText "/home") = .error .permission ∧
      ((withLockedHome.host false).isBusy (Path.ofText "/home")).value = true := by
  have horder : IsListingOrder withEmptyHome.listingOrder := fun _ names => .refl names
  have hreader : withEmptyHome.readers.mounts.IsLinewise mountOfOctets? :=
    MountTable.readLines_isLinewise
  have hfree : ((withEmptyHome.host false).isBusy (Path.ofText "/link")).value = false := by
    decide +kernel
  have hthere : withEmptyHome.status (Path.ofText "/link") ≠ .error .notFound := by
    decide +kernel
  have hvacant := ((isBusy_eq_false_iff false _ horder hreader).mp hfree).resolve_left hthere
  exact ⟨horder, hreader, hvacant, by decide +kernel, by decide +kernel, by decide +kernel⟩

end World

end PartitionUnits
