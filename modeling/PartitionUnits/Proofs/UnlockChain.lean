import PartitionUnits.Proofs.Unlocking

/-!
# The units of an encrypted partition

A mount of an encrypted partition waits for a mapped device, which a service makes out of the
partition's own device.  Mount, service and both devices find each other by name alone.

## Main Definitions

* `UnlockChain` — the units that take part, by name, and the texts of the two that are generated
* `UnlockChain.IsClosed` — on disk each of them leads to the next
* `IsVolumeName` — the volumes that the chain can be closed for
* `MountRequest.submit_closes_chain` — a submission that succeeds closes the chain

## Design Notes

The chain is said in terms of what is on disk: the device that the mount waits for is named after
what its file says, and not after the request, so that the escaping of a volume's name, of its node,
of the source and of the mount point have to agree.
-/

namespace PartitionUnits

open Text

/-! ## The chain -/

/-- Whether there is a generated file with a text. -/
def Destination.HasFile (d : Destination) (t : Tree) (name text : String) : Prop :=
  t.find false (d.directory.join (Path.ofText name)) = .ok (textFile text)

/-- Whether the directory of a unit, of a kind that the ending tells, has a link to another one. -/
def Destination.HasLink (d : Destination) (t : Tree) (owner ending name : String) : Prop :=
  t.find false ((d.directory.join (Path.ofText (owner ++ ending))).join (Path.ofText name)) =
    .ok (.link (Path.ofText ("../" ++ name)).octets)

/-- Whether the directory of a unit has a file with more settings for it. -/
def Destination.HasDropIn (d : Destination) (t : Tree) (unit name text : String) : Prop :=
  t.find false ((d.directory.join (Path.ofText (unit ++ ".d"))).join (Path.ofText name)) =
    .ok (textFile text)

/-- The units through which an encrypted partition is mounted. -/
structure UnlockChain where
  mount : String
  service : String
  /-- The unit of the device that is unlocked. -/
  source : String
  /-- What is mounted. -/
  node : String
  /-- The unit of the device that is mounted. -/
  mapped : String
  /-- The service that checks the device that is mounted. -/
  check : String

/-- **What the file of the mount says**: it mounts a node of whatever type, and waits for a check
of it. -/
structure MountSays (node check text : String) : Prop where
  what : valuesOf text "Mount" "What" = [node]
  noType : ∀ s ∈ settingsOf text, s.key ≠ "Type"
  requires : wordsOf text "Unit" "Requires" = [check]
  after : wordsOf text "Unit" "After" = [check]

/-- **What the file of the service says**: it comes and goes with both devices, starts between the
source and the mount, and unlocks a device as a volume. -/
structure ServiceSays (id device : String) (rw : Bool) (mount source mapped text : String) :
    Prop where
  bindsTo : wordsOf text "Unit" "BindsTo" = [mapped, source]
  after : wordsOf text "Unit" "After" = [source]
  before : mount ∈ wordsOf text "Unit" "Before"
  execStart : valuesOf text "Service" "ExecStart" =
    [" ".intercalate [cryptsetupPath, "attach", singleQuoted id, singleQuoted device,
      singleQuoted "", singleQuoted (if rw then "" else "read-only")]]

/-- **On disk each unit of the chain leads to the next**: a milestone requires the mount, the mount
mounts a node and waits for its check, the device of that node requires the service, and the service
is bound to that device and to the source, which it unlocks as the volume of the node. -/
structure UnlockChain.IsClosed (c : UnlockChain) (d : Destination) (t : Tree) (r : MountRequest)
    (m : Milestone) : Prop where
  mountUnit : UnitName.ofPath r.mountPoint ".mount" = .ok c.mount
  sourceUnit : UnitName.ofPath r.device ".device" = .ok c.source
  mappedUnit : UnitName.ofPath c.node ".device" = .ok c.mapped
  checkUnit : UnitName.ofPathInstance "systemd-fsck" c.node ".service" = .ok c.check
  volume : c.node = "/dev/mapper/" ++ r.id
  mountFile : ∃ text, d.HasFile t c.mount text ∧ MountSays c.node c.check text
  serviceFile : ∃ text, d.HasFile t c.service text ∧
    ServiceSays r.id r.device r.rw c.mount c.source c.mapped text
  mountLink : d.HasLink t m.unit ".requires" c.mount
  mappedLink : d.HasLink t c.mapped ".requires" c.service
  milestoneLink : d.HasLink t Milestone.cryptsetup.unit ".requires" c.service
  sourceLink : d.HasLink t c.source ".wants" c.service
  dropIn : ∃ text, d.HasDropIn t c.mapped "50-job-timeout-sec-0.conf" text ∧
    settingsOf text = [⟨"Unit", "JobTimeoutSec", "0"⟩]

/-! ## The name of the mapped device -/

/-- A name that a volume can have: one step of a path that is not hidden. -/
structure IsVolumeName (id : String) : Prop where
  ne_empty : id ≠ ""
  slash_notMem : '/' ∉ id.toList
  notHidden : id.toList.head? ≠ some '.'

/-- The node of such a volume is spelled without anything to leave out. -/
theorem IsVolumeName.isVolumePath {id : String} (h : IsVolumeName id) : IsVolumePath id where
  ne_empty := h.ne_empty
  notHidden := h.notHidden
  nil_notMem := by
    rw [List.splitOn_eq_singleton h.slash_notMem, List.mem_singleton, eq_comm,
      String.toList_eq_nil_iff]
    exact h.ne_empty
  dots_notMem := by
    rw [List.splitOn_eq_singleton h.slash_notMem, List.mem_singleton]
    intro hid
    apply h.notHidden
    rw [← hid]
    rfl

variable {d : Destination} {t u : Tree} {rendered : List Destination.Rendered}
  {dropIns : List DropIn} {directories : List Path}

/-! ## What a plan leaves on disk -/

theorem Extends.hasFile (h : Extends t (d.entries rendered dropIns) directories u)
    {r : Destination.Rendered} (hr : r ∈ rendered) :
    ∃ text, text = r.unit.text r.check ∧ d.HasFile u r.unit.name text := by
  refine ⟨_, rfl, h.found (d.unitEntry r) ?_⟩
  exact List.mem_append_left _ (List.mem_append_left _ (List.mem_map_of_mem hr))

theorem Extends.hasLink (h : Extends t (d.entries rendered dropIns) directories u)
    {r : Destination.Rendered} (hr : r ∈ rendered) {e : Edge} (he : e ∈ r.unit.edges)
    (hsource : e.source ≠ r.unit.name) (htarget : e.target = r.unit.name) {ending : String}
    (hending : e.relation.linkSuffix? = some ending) :
    d.HasLink u e.source ending r.unit.name := by
  have hreverse : e ∈ r.unit.reverseEdges := List.mem_filter.mpr ⟨he, by simp [hsource, htarget]⟩
  have hentry : d.edgeEntry? r.unit e =
      some ((d.directory.join (Path.ofText (e.source ++ ending))).join (Path.ofText r.unit.name),
        .link (Path.ofText ("../" ++ r.unit.name)).octets) := by
    rw [Destination.edgeEntry?, Destination.edgeDirectory?, hending]
    rfl
  refine h.found (_, _) (List.mem_append_right _ (List.mem_flatMap.mpr ⟨r, hr, ?_⟩))
  exact List.mem_append_left _ (List.mem_filterMap.mpr ⟨e, hreverse, hentry⟩)

theorem Extends.hasDropIn (h : Extends t (d.entries rendered dropIns) directories u)
    {x : DropIn} (hx : x ∈ dropIns) (hunit : '/' ∉ x.unit.toList) (hname : '/' ∉ x.name.toList) :
    d.HasDropIn u x.unit (x.name ++ ".conf") x.content := by
  have hfound := h.found (d.dropInEntry x)
    (List.mem_append_left _ (List.mem_append_right _ (List.mem_map_of_mem hx)))
  rwa [Destination.dropInEntry, DropIn.join_path hunit hname] at hfound

/-! ## The units of the chain -/

namespace Unlocking

variable {id source consumer sourceUnit : String} {rw : Bool}

theorem isWord_deviceUnit : IsWord (deviceUnit id) := by
  have hstart : Unbroken "dev-mapper-" := by decide
  exact .of_append (hstart.append UnitName.unbroken_escape) (by decide)

theorem isWord_serviceUnit : IsWord (serviceUnit id) :=
  UnitName.isWord_instantiate (by decide) UnitName.unbroken_escape (by decide)

/-- What the service does is said in one line each. -/
theorem oneLine_settings (hid : OneLine id) (hsource : OneLine source) (readOnly : Bool) :
    ∀ s ∈ (UnitBody.unlock id source readOnly).settings, OneLine s.2 := by
  have hquoted : ∀ {s : String}, OneLine s → OneLine (singleQuoted s) := fun h =>
    (OneLine.append (by decide) h).append (by decide)
  intro s hs
  simp only [UnitBody.settings, List.mem_cons, List.not_mem_nil, or_false] at hs
  rcases hs with rfl | rfl | rfl | rfl | rfl
  · decide
  · decide
  · decide
  · refine oneLine_intercalate ?_
    have hmode : OneLine (singleQuoted (if readOnly then "read-only" else "")) := by
      cases readOnly <;> decide
    simp only [List.forall_mem_cons]
    exact ⟨by decide, by decide, hquoted hid, hquoted hsource, by decide, hmode,
      fun _ h => absurd h List.not_mem_nil⟩
  · refine oneLine_intercalate ?_
    simp only [List.forall_mem_cons]
    exact ⟨by decide, by decide, hquoted hid, fun _ h => absurd h List.not_mem_nil⟩

/-- What the service's file says is read as it was meant. -/
theorem service_readable (hid : OneLine id) (hsource : OneLine source) (hconsumer : IsWord consumer)
    (hunit : IsWord sourceUnit) : (service id source rw consumer sourceUnit).Readable .none where
  description := by
    show OneLine "Cryptography Setup for %I"
    decide
  documentation := by
    show ∀ page ∈ [generatorManual, "man:systemd-cryptsetup@.service(8)"], OneLine page
    decide
  target := by
    have hmilestone : ∀ m : Milestone, IsWord m.unit := by
      intro m
      cases m <;> decide
    rw [edges_service]
    simp only [List.forall_mem_cons]
    exact ⟨hmilestone _, isWord_deviceUnit, hunit, hmilestone _, hmilestone _, hconsumer, hunit,
      isWord_serviceUnit, isWord_serviceUnit, isWord_serviceUnit,
      fun _ h => absurd h List.not_mem_nil⟩
  check := by simp
  body := oneLine_settings hid hsource !rw

/-- **What the file of the service says** about the devices and the mount. -/
theorem text_service (hid : OneLine id) (hsource : OneLine source) (hconsumer : IsWord consumer)
    (hunit : IsWord sourceUnit) (hne : sourceUnit ≠ serviceUnit id) {text : String}
    (htext : text = (service id source rw consumer sourceUnit).text .none) :
    ServiceSays id source rw consumer sourceUnit (deviceUnit id) text := by
  have hreadable : (service id source rw consumer sourceUnit).Readable .none :=
    service_readable hid hsource hconsumer hunit
  have hwords : ∀ relation, wordsOf text "Unit" relation.setting =
      (service id source rw consumer sourceUnit).targets relation := by
    intro relation
    rw [htext, hreadable.wordsOf_relation]
    exact List.append_nil _
  have hbindsTo := hwords .bindsTo
  have hafter := hwords .after
  have hbefore := hwords .before
  rw [targets_service hne] at hbindsTo hafter hbefore
  refine ⟨hbindsTo, hafter, ?_, ?_⟩
  · show consumer ∈ wordsOf text "Unit" Relation.before.setting
    rw [hbefore]
    simp
  · have hvalues := hreadable.valuesOf_body "ExecStart"
    rw [← htext] at hvalues
    refine hvalues.trans ?_
    cases rw <;> rfl

/-- The links to the service from the source, from the mapped device and from its milestone. -/
theorem links_service {u : Tree} (hne : sourceUnit ≠ serviceUnit id)
    (h : Extends t (d.entries rendered dropIns) directories u)
    (hr : ⟨service id source rw consumer sourceUnit, .none⟩ ∈ rendered) :
    d.HasLink u sourceUnit ".wants" (serviceUnit id) ∧
      d.HasLink u (deviceUnit id) ".requires" (serviceUnit id) ∧
      d.HasLink u Milestone.cryptsetup.unit ".requires" (serviceUnit id) := by
  have hlink : ∀ (owner : String) (relation : Relation),
      ⟨owner, relation, serviceUnit id⟩ ∈ (service id source rw consumer sourceUnit).edges →
      owner ≠ serviceUnit id → ∀ ending, relation.linkSuffix? = some ending →
      d.HasLink u owner ending (serviceUnit id) :=
    fun _ _ hedge howner _ hending => h.hasLink hr hedge howner rfl hending
  rw [edges_service] at hlink
  exact ⟨hlink _ .wants (by simp) hne _ rfl,
    hlink _ .requires (by simp) deviceUnit_ne_serviceUnit _ rfl,
    hlink _ .requires (by simp) (milestone_ne_serviceUnit _) _ rfl⟩

/-- The settings that leave the waiting for the mapped device to the service. -/
theorem dropIn_noTimeout (h : Extends t (d.entries rendered dropIns) directories u)
    (hx : noTimeout id ∈ dropIns) :
    ∃ text, d.HasDropIn u (deviceUnit id) "50-job-timeout-sec-0.conf" text ∧
      settingsOf text = [⟨"Unit", "JobTimeoutSec", "0"⟩] := by
  have hname : (noTimeout id).name ++ ".conf" = "50-job-timeout-sec-0.conf" := by
    show "50-job-timeout-sec-0" ++ ".conf" = _
    decide
  have hfile := h.hasDropIn hx (slash_notMem_deviceUnit id)
    (show '/' ∉ "50-job-timeout-sec-0".toList by decide)
  rw [hname] at hfile
  refine ⟨_, hfile, settingsOf_settingsText (by decide) ?_⟩
  simp only [Legible, List.forall_mem_cons]
  exact ⟨⟨by decide, by decide⟩, fun _ h => absurd h List.not_mem_nil⟩

end Unlocking

/-- No text of a request has more than one line. -/
structure MountRequest.HasOneLiners (r : MountRequest) : Prop where
  id : OneLine r.id
  device : OneLine r.device
  mountPoint : OneLine r.mountPoint
  options : ∀ options, r.options = some options → OneLine options
  description : OneLine r.description

namespace MountRequest

variable {r : MountRequest} {m : Milestone} {name device check : String}

/-- A mount for a milestone is before the milestone, which requires it. -/
theorem unit_of_milestone (h : r.milestone = some m) {fsType : Option String} :
    r.unit name device fsType =
      { name
        description := r.description
        body := .mount device r.mountPoint fsType (mountOptions r.options r.rw)
        edges := [⟨name, .before, m.unit⟩, ⟨m.unit, .requires, name⟩]
        check := some ⟨device, r.mountPoint, fsType⟩ } := by
  unfold unit
  simp only [h]
  rfl

theorem unit_name (h : r.milestone = some m) {fsType : Option String} :
    (r.unit name device fsType).name = name := by
  rw [unit_of_milestone h]

/-- The link to a mount from its milestone. -/
theorem link_unit (hmilestone : r.milestone = some m) (hne : m.unit ≠ name)
    {fsType : Option String} {checked : CheckDependency}
    (h : Extends t (d.entries rendered dropIns) directories u)
    (hr : ⟨r.unit name device fsType, checked⟩ ∈ rendered) :
    d.HasLink u m.unit ".requires" name := by
  rw [unit_of_milestone hmilestone] at hr
  exact h.hasLink hr (List.mem_cons_of_mem _ List.mem_cons_self) hne rfl rfl

/-- What the file of a mount for a milestone declares, besides its check. -/
theorem targets_unit (h : r.milestone = some m) (hname : m.unit ≠ name) (relation : Relation)
    {fsType : Option String} :
    (r.unit name device fsType).targets relation =
      if relation = .before then [m.unit] else [] := by
  rw [unit_of_milestone h]
  cases relation <;> simp [UnitFile.targets, UnitFile.ownEdges, hname]

theorem oneLine_mountOptions {options : Option String} {rw : Bool}
    (h : ∀ text, options = some text → OneLine text) : OneLine (mountOptions options rw) := by
  have hmode : OneLine (if rw then "rw" else "ro") := by
    cases rw <;> decide
  unfold mountOptions
  cases hsome : options with
  | none => exact hmode
  | some text => exact ((h text hsome).append (by decide)).append hmode

/-- What the file of a mount says is read as it was meant. -/
theorem unit_readable (h : r.HasOneLiners) {fsType : Option String} {checked : CheckDependency}
    (hdevice : OneLine device) (htype : ∀ text, fsType = some text → OneLine text)
    (hname : IsWord name) (hcheck : ∀ check, checked = .service check → IsWord check) :
    (r.unit name device fsType).Readable checked := by
  have hbody : ∀ s ∈ (UnitBody.mount device r.mountPoint fsType
      (mountOptions r.options r.rw)).settings, OneLine s.2 := by
    simp only [UnitBody.settings, List.forall_mem_append, List.forall_mem_cons, List.mem_map,
      Option.mem_toList]
    refine ⟨⟨⟨hdevice, h.mountPoint, by simp⟩, ?_⟩, oneLine_mountOptions h.options, by simp⟩
    rintro s ⟨text, htext, rfl⟩
    exact htype text htext
  have hpages : ∀ page ∈ [generatorManual], OneLine page := by decide
  cases hmilestone : r.milestone with
  | none =>
      unfold unit
      simp only [hmilestone]
      exact ⟨h.description, hpages, by simp, hcheck, hbody⟩
  | some m =>
      have hm : IsWord m.unit := by cases m <;> decide
      rw [unit_of_milestone hmilestone]
      refine ⟨h.description, hpages, ?_, hcheck, hbody⟩
      simp only [List.forall_mem_cons]
      exact ⟨hm, hname, fun _ h => absurd h List.not_mem_nil⟩

/-- **What the file of a mount without a type says** about its device and its check. -/
theorem text_unit (h : r.HasOneLiners) (hmilestone : r.milestone = some m) (hne : m.unit ≠ name)
    (hdevice : OneLine device) (hname : IsWord name) (hcheck : IsWord check) {text : String}
    (htext : text = (r.unit name device none).text (.service check)) :
    MountSays device check text := by
  have hreadable : (r.unit name device none).Readable (.service check) :=
    unit_readable h hdevice (by simp) hname fun name heq => by cases heq; exact hcheck
  have hunit : r.unit name device none = _ := unit_of_milestone hmilestone
  refine ⟨?_, ?_, ?_, ?_⟩
  · have hvalues := hreadable.valuesOf_body "What"
    rw [← htext, hunit] at hvalues
    exact hvalues
  · intro s hs hkey
    rw [htext, hreadable.settingsOf_text, List.mem_append] at hs
    rcases hs with hs | hs
    · obtain ⟨s', hs', rfl⟩ := List.mem_map.mp hs
      have hunitKey : "Type" ∈ unitKeys := hkey ▸ UnitFile.key_unitSettings _ _ s' hs'
      exact absurd hunitKey (by decide)
    · rw [hunit] at hs
      obtain ⟨s', hs', rfl⟩ := List.mem_map.mp hs
      have hbodyKey : s'.1 ∈ ["What", "Where", "Options"] := by
        simp only [UnitBody.settings, Option.toList_none, List.map_nil, List.append_nil,
          List.cons_append, List.nil_append, List.mem_cons, List.not_mem_nil, or_false] at hs'
        rcases hs' with rfl | rfl | rfl <;> simp
      rw [show s'.1 = "Type" from hkey] at hbodyKey
      exact absurd hbodyKey (by decide)
  · have hwords := hreadable.wordsOf_relation .requires
    rw [← htext, targets_unit hmilestone hne] at hwords
    exact hwords
  · have hwords := hreadable.wordsOf_relation .after
    rw [← htext, targets_unit hmilestone hne] at hwords
    exact hwords

end MountRequest

/-- A mapped device that is mounted where nothing is special has a check of its own. -/
theorem CheckRequest.resolve_mapper {id mountPoint name : String} {inInitrd : Bool}
    {hasHelper : String → Bool} {check : CheckDependency} (hroot : mountPoint ≠ "/")
    (hsysroot : mountPoint ≠ "/sysroot")
    (hname : UnitName.ofPathInstance "systemd-fsck" ("/dev/mapper/" ++ id) ".service" = .ok name)
    (h : ((⟨"/dev/mapper/" ++ id, mountPoint, none⟩ : CheckRequest).resolve inInitrd
      hasHelper).run.value = .ok check) : check = .service name := by
  have hdevice : isDevicePath ("/dev/mapper/" ++ id) = true := by
    simp [isDevicePath, String.toList_append]
  unfold CheckRequest.resolve CheckRequest.missingHelper? at h
  simp only [hdevice, Bool.not_true, Bool.false_eq_true, if_false, hroot, hsysroot, and_false,
    hname] at h
  exact (Attempt.pure_eq_ok.mp h).symm

/-! ## Submissions -/

namespace MountRequest

variable {r : MountRequest} {m : Milestone} {name sourceUnit : String} {plan : Plan}

/-- The service that checks what a volume appears as. -/
def mappedCheck (id : String) : String :=
  UnitName.instantiate "systemd-fsck" ("dev-mapper-" ++ UnitName.escape id) ".service"

/-- The units that a request to mount an encrypted partition comes to. -/
def chain (r : MountRequest) (name sourceUnit : String) : UnlockChain where
  mount := name
  service := Unlocking.serviceUnit r.id
  source := sourceUnit
  node := "/dev/mapper/" ++ r.id
  mapped := Unlocking.deviceUnit r.id
  check := mappedCheck r.id

/-- What is decided about the checks of such units. -/
theorem rendered_of_decided (hid : IsVolumeName r.id) (hroot : r.mountPoint ≠ "/")
    (hsysroot : r.mountPoint ≠ "/sysroot") (hmilestone : r.milestone = some m)
    (h : d.Decided [Unlocking.service r.id r.device r.rw name sourceUnit,
      r.unit name ("/dev/mapper/" ++ r.id) none] rendered) :
    rendered = [⟨Unlocking.service r.id r.device r.rw name sourceUnit, .none⟩,
      ⟨r.unit name ("/dev/mapper/" ++ r.id) none, .service (mappedCheck r.id)⟩] := by
  cases h with
  | @cons _ first _ _ hfirst hrest =>
  cases hrest with
  | @cons _ second _ _ hsecond hnil =>
  cases hnil
  obtain ⟨hunit, hnone⟩ := hfirst
  obtain ⟨hunit', hresolve⟩ := hsecond
  rw [unit_of_milestone hmilestone] at hresolve
  have hname : UnitName.ofPathInstance "systemd-fsck" ("/dev/mapper/" ++ r.id) ".service" =
      .ok (mappedCheck r.id) := by
    rw [UnitName.ofPathInstance, UnitName.escapePath_mapper_iff.mpr hid.isVolumePath]
    rfl
  have hcheck := CheckRequest.resolve_mapper hroot hsysroot hname hresolve
  obtain ⟨unit, check⟩ := first
  obtain ⟨unit', check'⟩ := second
  cases hunit
  cases hunit'
  cases hnone
  cases hcheck
  rfl

/-- **What such units leave on disk is a closed chain.** -/
theorem chain_isClosed (hid : IsVolumeName r.id) (hlines : r.HasOneLiners)
    (hmilestone : r.milestone = some m) (hname : UnitName.ofPath r.mountPoint ".mount" = .ok name)
    (hsource : UnitName.ofPath r.device ".device" = .ok sourceUnit)
    (h : Extends t (d.entries rendered dropIns) directories u)
    (hservice : ⟨Unlocking.service r.id r.device r.rw name sourceUnit, .none⟩ ∈ rendered)
    (hmount : ⟨r.unit name ("/dev/mapper/" ++ r.id) none,
      .service (mappedCheck r.id)⟩ ∈ rendered)
    (hdropIn : Unlocking.noTimeout r.id ∈ dropIns) :
    (r.chain name sourceUnit).IsClosed d u r m := by
  have hmountWord : IsWord name := UnitName.isWord_ofPath hname (by decide)
  have hsourceWord : IsWord sourceUnit := UnitName.isWord_ofPath hsource (by decide)
  have hcheckWord : IsWord (mappedCheck r.id) :=
    UnitName.isWord_instantiate (by decide)
      (UnitName.unbroken_escapePath (UnitName.escapePath_mapper_iff.mpr hid.isVolumePath))
      (by decide)
  have hnode : OneLine ("/dev/mapper/" ++ r.id) := OneLine.append (by decide) hlines.id
  have hsourceName : sourceUnit ≠ Unlocking.serviceUnit r.id :=
    Unlocking.sourceUnit_ne_serviceUnit hsource
  have hmountName : m.unit ≠ name := by
    obtain ⟨escaped, -, rfl⟩ := UnitName.ofPath_eq_ok hname
    rw [← String.empty_append (s := m.unit)]
    cases m <;> exact ne_of_endings (by decide) (by decide)
  obtain ⟨serviceText, hserviceText, hserviceFile⟩ := h.hasFile hservice
  obtain ⟨mountText, hmountText, hmountFile⟩ := h.hasFile hmount
  obtain ⟨hsourceLink, hmappedLink, hmilestoneLink⟩ :=
    Unlocking.links_service hsourceName h hservice
  rw [unit_name hmilestone] at hmountFile
  constructor
  · exact hname
  · exact hsource
  · show UnitName.ofPath ("/dev/mapper/" ++ r.id) ".device" = .ok (Unlocking.deviceUnit r.id)
    rw [UnitName.ofPath, UnitName.escapePath_mapper_iff.mpr hid.isVolumePath]
    rfl
  · show UnitName.ofPathInstance "systemd-fsck" ("/dev/mapper/" ++ r.id) ".service" = _
    rw [UnitName.ofPathInstance, UnitName.escapePath_mapper_iff.mpr hid.isVolumePath]
    rfl
  · rfl
  · exact ⟨mountText, hmountFile,
      text_unit hlines hmilestone hmountName hnode hmountWord hcheckWord hmountText⟩
  · exact ⟨serviceText, hserviceFile, Unlocking.text_service hlines.id hlines.device hmountWord
      hsourceWord hsourceName hserviceText⟩
  · exact link_unit hmilestone hmountName h hmount
  · exact hmappedLink
  · exact hmilestoneLink
  · exact hsourceLink
  · exact Unlocking.dropIn_noTimeout h hdropIn

/-- **A submission of an encrypted partition closes the chain of its units.** -/
theorem submit_closes_chain {d : Destination} {t : Tree} (hluks : r.fsType = some luksType)
    (hmilestone : r.milestone = some m) (hid : IsVolumeName r.id) (hroot : r.mountPoint ≠ "/")
    (hsysroot : r.mountPoint ≠ "/sysroot") (hlines : r.HasOneLiners)
    (hplan : r.plan.run.value = .ok plan) (h : ((d.submit plan).run t).1.value = .ok ()) :
    ∃ c : UnlockChain, plan.units.map (·.name) = [c.service, c.mount] ∧
      c.IsClosed d ((d.submit plan).run t).2 r m := by
  have hnames := (r.plan_isPlain plan hplan).names
  have houtcome := submit_outcome d plan t
  rw [h] at houtcome
  generalize ((d.submit plan).run t).2 = final at houtcome ⊢
  cases houtcome with
  | @applied rendered made _ hrender hdone =>
  have hdecided := render_eq_ok_iff.mp hrender
  have hextends := hdone.extends_plan hdecided hnames
  obtain ⟨name, hname, hplanned⟩ := plan_eq_ok_iff.mp hplan
  cases hplanned with
  | plain hplain => exact absurd hluks hplain
  | @unlocked sourceUnit _ hsource =>
      rw [rendered_of_decided hid hroot hsysroot hmilestone hdecided] at hextends
      refine ⟨r.chain name sourceUnit, ?_,
        chain_isClosed hid hlines hmilestone hname hsource hextends (by simp) (by simp) (by simp)⟩
      rw [unit_of_milestone hmilestone]
      rfl

end MountRequest

/-- An encrypted home partition. -/
def encryptedHome : MountRequest where
  id := "home"
  device := "/dev/sda3"
  mountPoint := "/home"
  fsType := some luksType
  rw := true
  description := "Home Partition"
  milestone := some .localFs

/-- What mounting it comes to. -/
def encryptedHomePlan : Plan where
  units := [Unlocking.service "home" "/dev/sda3" true "home.mount" "dev-sda3.device",
    encryptedHome.unit "home.mount" "/dev/mapper/home" none]
  dropIns := [Unlocking.noTimeout "home"]

theorem encryptedHome_plan : encryptedHome.plan.run.value = .ok encryptedHomePlan := by
  have hmount : UnitName.ofPath "/home" ".mount" = .ok "home.mount" := by decide +kernel
  have hsource : UnitName.ofPath "/dev/sda3" ".device" = .ok "dev-sda3.device" := by
    decide +kernel
  exact MountRequest.plan_eq_ok_iff.mpr ⟨"home.mount", hmount, .unlocked rfl hsource⟩

theorem encryptedHome_hasOneLiners : encryptedHome.HasOneLiners := by
  refine ⟨by decide, by decide, by decide, ?_, by decide⟩
  rintro _ ⟨⟩

/-- The chain of an encrypted home partition is closed in an empty directory. -/
theorem encryptedHome_chain :
    encryptedHome.plan.run.value = .ok encryptedHomePlan ∧
      ((bareDestination.submit encryptedHomePlan).run bareTree).1.value = .ok () ∧
      ∃ c : UnlockChain, encryptedHomePlan.units.map (·.name) = [c.service, c.mount] ∧
        c.IsClosed bareDestination ((bareDestination.submit encryptedHomePlan).run bareTree).2
          encryptedHome .localFs := by
  have hvalue : ((bareDestination.submit encryptedHomePlan).run bareTree).1.value = .ok () := by
    decide +kernel
  have hid : IsVolumeName encryptedHome.id := by constructor <;> decide
  exact ⟨encryptedHome_plan, hvalue, MountRequest.submit_closes_chain rfl rfl hid (by decide)
    (by decide) encryptedHome_hasOneLiners encryptedHome_plan hvalue⟩

end PartitionUnits
