import PartitionUnits.Proofs.DeviceTree
import PartitionUnits.Proofs.PartitionFlags
import PartitionUnits.Proofs.Signature
import PartitionUnits.Proofs.Text.Lines
import PartitionUnits.Proofs.Text.Utf8
import PartitionUnits.Proofs.TidyPlans
import PartitionUnits.Proofs.Unit.Template
import PartitionUnits.Proofs.UnlockChain

/-!
# Nothing that is read adds a line

A unit file is put together from texts that were read from devices and from the kernel's device
tree.  None of them has a line feed, so none can end a line and begin another one.

## Main Definitions

* `World.oneLine_node` — the node of a partition, whatever the device tree says
* `World.oneLine_fsType` — the type of a file system, whatever the probe prints
* `Plan.HasOneLiners` — plans whose texts have no line feeds
* `Site.hasOneLiners_submitted` — all plans that a pass hands over are such
* `unit_files_keep_template` — so the files that are written have the lines of their templates

## Design Notes

Both texts are cut out of a line, and what happens to them afterwards takes characters away or
encodes and decodes them, but makes no new ones.  A name that is made of a text is escaped, and
escaping leaves no blank of any kind.
-/

namespace PartitionUnits

open Attempt Signature Text

variable {σ : Type} {site : Site σ} {settings : Settings} {s : σ} {w : World} {program : Path}
  {plan : Plan}

/-! ## Texts that were read -/

/-- Undoing escapes takes characters away. -/
theorem Properties.mem_of_mem_unescape {c : Char} {cs : List Char}
    (h : c ∈ Properties.unescape cs) : c ∈ cs := by
  fun_induction Properties.unescape cs with
  | case1 => exact h
  | case2 => cases h
  | case3 escaped rest ih =>
      rcases List.mem_cons.mp h with rfl | h
      · simp
      · simp [ih h]
  | case4 first rest _ _ ih =>
      rcases List.mem_cons.mp h with rfl | h
      · simp
      · simp [ih h]

/-- What a line tells stands in the line. -/
theorem Signature.LastSets.oneLine {cs : List Char} {key value : String}
    (h : LastSets (lines cs) key value) : OneLine value := by
  obtain ⟨before, line, after, hsplit, ⟨name, text, rfl, -, -, rfl⟩, -⟩ := h
  have hmem : name ++ '=' :: text ∈ lines cs := by simp [hsplit]
  have hline := lineFeed_notMem_lines hmem
  rw [OneLine, String.toList_ofList]
  intro hfeed
  have htext := Properties.mem_of_mem_unescape hfeed
  exact hline (List.mem_append_right _ (List.mem_cons_of_mem _ htext))

namespace World

/-- **The type of a file system has no line feed**, whatever the probe prints. -/
theorem oneLine_fsType {device : Path} {info : FilesystemInfo} {fsType : String}
    (h : ((w.probe program).filesystem device).run.value = .ok (.found info))
    (hfsType : info.fsType = some fsType) : OneLine fsType := by
  have hprobe : (Signature.probe w.start program device).map filesystem = .ok (.found info) := h
  rcases three_ways "TYPE" (w.start (command program device)) with hway | hway | ⟨value, hway⟩
  · obtain ⟨failure, herror⟩ := probe_of_failsToLook hway
    rw [herror] at hprobe
    cases hprobe
  · rcases filesystem_of_leavesOpen hway with hnone | hnone
    · cases hnone.symm.trans hprobe
    · cases hnone.symm.trans hprobe
  · obtain ⟨info', hfound, hvalue⟩ := filesystem_of_tells hway
    cases hfound.symm.trans hprobe
    cases hvalue.symm.trans hfsType
    generalize w.start (command program device) = started at hway
    cases hway with
    | found _ hlast => exact hlast.oneLine

/-- The value of a property of a device stands in one line of a file. -/
theorem HasProperty.oneLine {directory : Path} {key value : String}
    (h : w.HasProperty directory key value) : OneLine value := by
  obtain ⟨content, -, before, line, after, hsplit, rfl, -⟩ := h
  have hmem : key.toList ++ '=' :: value.toList ∈ lines content := by simp [hsplit]
  intro hfeed
  exact lineFeed_notMem_lines hmem (List.mem_append_right _ (List.mem_cons_of_mem _ hfeed))

/-- The node of a device is its name in the directory of device nodes, or its name alone if that is
absolute. -/
theorem text_node (name : String) : (deviceNodes.join (Path.ofText name)).text =
    if (Path.ofText name).isAbsolute then name else "/dev/" ++ name := by
  have hread : ∀ text : String, (Path.ofText text).text = text := by
    intro text
    rw [Path.text, Path.ofText, decodeLossy_encode, String.ofList_toList]
  by_cases habsolute : (Path.ofText name).isAbsolute = true
  · rw [if_pos habsolute, Path.join, if_pos habsolute, hread]
  · have hjoin : deviceNodes.join (Path.ofText name) = Path.ofText ("/dev/" ++ name) := by
      rw [Path.join, if_neg habsolute, if_neg (by decide)]
      exact congrArg Path.mk (Path.ofText_append "/dev/" name).symm
    rw [if_neg habsolute, hjoin, hread]

theorem ShowsPartition.oneLine_node {directory : Path} {b : Device.Block}
    (h : w.ShowsPartition directory b) : OneLine b.node.text := by
  obtain ⟨name, hname, hnode⟩ := h.node
  rw [hnode, text_node]
  split
  · exact hname.oneLine
  · exact OneLine.append (by decide) hname.oneLine

/-- **The node of a partition has no line feed**, whatever the device tree says. -/
theorem oneLine_node {disk b : Device.Block} {partitions : List Device.Block}
    (h : (w.devices.partitions disk).run.value = .ok partitions) (hb : b ∈ partitions) :
    OneLine b.node.text :=
  (showsPartition_of_mem (Attempt.ofExcept_eq_ok.mp h) hb).oneLine_node

end World

/-! ## Plans -/

/-- The texts that a unit's body is made of. -/
def UnitBody.texts : UnitBody → List String
  | .mount device mountPoint fsType options => [device, mountPoint, options] ++ fsType.toList
  | .automount mountPoint _ => [mountPoint]
  | .swap device => [device]
  | .unlock volume source _ => [volume, source]

/-- **A unit whose texts have no line feeds**, in whatever place of its file they are. -/
structure UnitFile.HasOneLiners (u : UnitFile) : Prop where
  name : IsWord u.name
  source : ∀ e ∈ u.edges, OneLine e.source
  body : ∀ text ∈ u.body.texts, OneLine text
  readable : u.Readable .none

/-- A plan whose texts have no line feeds. -/
def Plan.HasOneLiners (plan : Plan) : Prop := ∀ u ∈ plan.units, u.HasOneLiners

theorem isWord_milestone (m : Milestone) : IsWord m.unit := by
  cases m <;> decide

namespace MountRequest

variable {r : MountRequest} {name device : String} {fsType : Option String}

theorem unit_hasOneLiners (h : r.HasOneLiners) (hname : IsWord name) (hdevice : OneLine device)
    (htype : ∀ text, fsType = some text → OneLine text) :
    (r.unit name device fsType).HasOneLiners := by
  have hreadable : (r.unit name device fsType).Readable .none :=
    unit_readable h hdevice htype hname fun _ heq => by cases heq
  have hbody : ∀ text ∈ (UnitBody.mount device r.mountPoint fsType
      (mountOptions r.options r.rw)).texts, OneLine text := by
    simp only [UnitBody.texts, List.forall_mem_append, List.forall_mem_cons, Option.mem_toList]
    exact ⟨⟨hdevice, h.mountPoint, oneLine_mountOptions h.options, by simp⟩, htype⟩
  refine ⟨?_, ?_, ?_, hreadable⟩
  · rw [name_unit]
    exact hname
  · unfold unit
    simp only
    split
    · next m hm =>
        simp only [UnitFile.depends, UnitFile.dependedOnBy, List.nil_append, List.cons_append,
          List.forall_mem_cons]
        exact ⟨hname.oneLine, (isWord_milestone m).oneLine, by simp⟩
    · simp
  · rw [body_unit]
    exact hbody

/-- **A plan for a mount has no line feeds** if its request has none. -/
theorem plan_hasOneLiners (h : r.HasOneLiners)
    (htype : ∀ text, r.fsType = some text → OneLine text) :
    Ensures r.plan Plan.HasOneLiners := by
  intro plan hplan
  obtain ⟨name, hname, hplanned⟩ := plan_eq_ok_iff.mp hplan
  have hword := UnitName.isWord_ofPath hname (by decide)
  cases hplanned with
  | plain =>
      intro u hu
      rw [List.mem_singleton.mp hu]
      exact unit_hasOneLiners h hword h.device htype
  | @unlocked sourceUnit _ hsource =>
      have hunit := UnitName.isWord_ofPath hsource (by decide)
      intro u hu
      rcases List.mem_cons.mp hu with rfl | hu
      · refine ⟨Unlocking.isWord_serviceUnit, ?_, ?_,
          Unlocking.service_readable h.id h.device hword hunit⟩
        · rw [Unlocking.edges_service]
          simp only [List.forall_mem_cons]
          have hservice : OneLine (Unlocking.serviceUnit r.id) :=
            Unlocking.isWord_serviceUnit.oneLine
          exact ⟨hservice, hservice, hservice, hservice, hservice, hservice, hservice,
            hunit.oneLine, (isWord_milestone _).oneLine, Unlocking.isWord_deviceUnit.oneLine,
            by simp⟩
        · show ∀ text ∈ [r.id, r.device], OneLine text
          simp only [List.forall_mem_cons]
          exact ⟨h.id, h.device, by simp⟩
      · rw [List.mem_singleton.mp hu]
        have hnode : OneLine ("/dev/mapper/" ++ r.id) := OneLine.append (by decide) h.id
        exact unit_hasOneLiners h hword hnode (by simp)

end MountRequest

/-- A unit with no more than one dependency on a milestone and one of a milestone on it. -/
theorem UnitFile.HasOneLiners.of_milestone {u : UnitFile} {m m' : Milestone}
    {relation relation' : Relation} (hname : IsWord u.name) (hedges : u.edges = [])
    (hdescription : OneLine u.description) (hpages : u.documentation = [generatorManual])
    (hbody : ∀ text ∈ u.body.texts, OneLine text)
    (hsettings : ∀ s ∈ u.body.settings, OneLine s.2) :
    ((u.depends relation m.unit).dependedOnBy m'.unit relation').HasOneLiners := by
  have hall : ((u.depends relation m.unit).dependedOnBy m'.unit relation').edges =
      [⟨u.name, relation, m.unit⟩, ⟨m'.unit, relation', u.name⟩] := by
    simp [UnitFile.depends, UnitFile.dependedOnBy, hedges]
  refine ⟨hname, ?_, hbody, hdescription, ?_, ?_, by simp, hsettings⟩
  · rw [hall]
    simp only [List.forall_mem_cons]
    exact ⟨hname.oneLine, (isWord_milestone m').oneLine, by simp⟩
  · show ∀ page ∈ u.documentation, OneLine page
    rw [hpages]
    decide
  · rw [hall]
    simp only [List.forall_mem_cons]
    exact ⟨isWord_milestone m, hname, by simp⟩

theorem MountRequest.planOnAccess_hasOneLiners {r : MountRequest} {idleSeconds : Nat}
    (h : r.HasOneLiners) (htype : ∀ text, r.fsType = some text → OneLine text)
    (hidle : OneLine (toString idleSeconds)) :
    Ensures (r.planOnAccess idleSeconds) Plan.HasOneLiners := by
  intro plan hplan
  obtain ⟨inner, name, hinner, hname, rfl⟩ := planOnAccess_eq_ok_iff.mp hplan
  have hbehind : r.behindAutomount.HasOneLiners := by
    refine ⟨h.id, h.device, h.mountPoint, ?_, h.description⟩
    intro options hoptions
    cases hoptions
    split
    · next options hsome => exact (h.options options hsome).append (by decide)
    · decide
  intro u hu
  rcases List.mem_append.mp hu with hu | hu
  · exact plan_hasOneLiners hbehind htype inner hinner u hu
  · rw [List.mem_singleton.mp hu]
    refine .of_milestone (UnitName.isWord_ofPath hname (by decide)) rfl h.description rfl ?_ ?_
    · show ∀ text ∈ [r.mountPoint], OneLine text
      simpa using h.mountPoint
    · show ∀ s ∈ [("Where", r.mountPoint), ("TimeoutIdleSec", toString idleSeconds)], OneLine s.2
      simp only [List.forall_mem_cons]
      exact ⟨h.mountPoint, hidle, by simp⟩

theorem planSwap_hasOneLiners {device : String} (h : OneLine device) :
    Ensures (planSwap device) Plan.HasOneLiners := by
  intro plan hplan
  obtain ⟨name, hname, rfl⟩ := planSwap_eq_ok_iff.mp hplan
  intro u hu
  rw [List.mem_singleton.mp hu]
  refine .of_milestone (UnitName.isWord_ofPath hname (by decide)) rfl ?_ rfl ?_ ?_
  · show OneLine "Swap Partition"
    decide
  · show ∀ text ∈ [device], OneLine text
    simpa using h
  · show ∀ s ∈ [("What", device)], OneLine s.2
    simpa using h

/-! ## The plans of a pass -/

theorem rootRequest_hasOneLiners (inInitrd rw : Bool) :
    (rootRequest inInitrd rw).HasOneLiners where
  id := show OneLine "root" by decide
  device := show OneLine "/dev/gpt-auto-root" by decide
  mountPoint := by
    cases inInitrd
    · show OneLine "/"
      decide
    · show OneLine "/sysroot"
      decide
  options := fun _ h => by cases h
  description := show OneLine "Root Partition" by decide

theorem bootRequest_hasOneLiners {node : String} (h : OneLine node) :
    (bootRequest node).HasOneLiners where
  id := show OneLine "boot" by decide
  device := h
  mountPoint := show OneLine "/boot" by decide
  options := fun _ heq => by
    cases heq
    decide
  description := show OneLine "EFI System Partition Automount" by decide

theorem dataRequest_hasOneLiners {role : Role} {a : Assignment} {mountPoint fsType : String}
    (hplace : role.mountPoint? false = some mountPoint) (h : OneLine a.node) :
    (dataRequest role a mountPoint fsType).HasOneLiners where
  id := by
    show OneLine role.id
    cases role <;> decide
  device := h
  mountPoint := by
    show OneLine mountPoint
    cases role <;> cases hplace <;> decide
  options := fun _ heq => by cases heq
  description := by
    show OneLine role.description
    cases role <;> decide

section

variable {world : σ → World} (hdevices : ∀ s, (site.machine s).devices = (world s).devices)
  (hprobe : ∀ s, (site.machine s).probe = (world s).probe program)
include hdevices

/-- A partition that a pass comes to has a node without line feeds. -/
theorem Site.Reaches.oneLine_node {rule : Rule} {a : Assignment} {s' : σ}
    (h : site.Reaches settings s rule a s') : OneLine a.node := by
  obtain ⟨-, b, _, hsibling, hnode, -⟩ := h.exists_sibling
  obtain ⟨_, _, partitions, _, _, hsurveyed, hb, -⟩ := hsibling.listed
  have hlisted := hsurveyed.listed
  rw [Site.searched, hdevices] at hlisted
  rw [hnode]
  exact World.oneLine_node hlisted hb

include hprobe

/-- **The plans that a pass hands over have no line feeds.** -/
theorem Site.hasOneLiners_submitted (hplan : plan ∈ site.submitted settings s) :
    plan.HasOneLiners := by
  rcases submitted_cases hplan with ⟨-, hroot⟩ | ⟨rule, a, s', hreaches, hdecided⟩
  · exact decideRoot_emits (MountRequest.plan_hasOneLiners (rootRequest_hasOneLiners _ _)
      fun _ heq => by cases heq) _ hroot plan rfl
  have hnode := hreaches.oneLine_node hdevices
  unfold Rule.decide at hdecided
  split at hdecided
  · exact decideSwap_emits (planSwap_hasOneLiners hnode) _ hdecided plan rfl
  · refine decideBoot_emits (MountRequest.planOnAccess_hasOneLiners
      (bootRequest_hasOneLiners hnode) ?_ (by decide)) _ hdecided plan rfl
    rintro _ ⟨⟩
    decide
  · obtain ⟨mountPoint, info, fsType, hplace, -, hfound, hfsType, hrequest⟩ :=
      decideData_eq_emit_iff.mp hdecided
    rw [hprobe] at hfound
    refine MountRequest.plan_hasOneLiners (dataRequest_hasOneLiners hplace hnode) ?_ plan hrequest
    rintro _ ⟨⟩
    exact World.oneLine_fsType hfound hfsType

end

/-! ## The files -/

/-- A service that checks a device is a word. -/
theorem CheckRequest.isWord_resolve {r : CheckRequest} {inInitrd : Bool}
    {hasHelper : String → Bool} {name : String}
    (h : (r.resolve inInitrd hasHelper).run.value = .ok (.service name)) : IsWord name := by
  unfold CheckRequest.resolve at h
  split at h
  · cases h
  split at h
  · cases h
  split at h
  · cases h
  split at h
  · cases h
    decide
  split at h
  · next instanceName hname =>
      cases h
      unfold UnitName.ofPathInstance at hname
      cases hescaped : UnitName.escapePath r.device with
      | error e =>
          rw [hescaped] at hname
          cases hname
      | ok escaped =>
          rw [hescaped] at hname
          cases hname
          exact UnitName.isWord_instantiate (by decide) (UnitName.unbroken_escapePath hescaped)
            (by decide)
  · cases h

namespace Destination.Rendered

/-- The texts that a unit's file is made of. -/
def texts (r : Destination.Rendered) : List String :=
  [r.unit.name, r.unit.description] ++ r.unit.edges.flatMap (fun e => [e.source, e.target]) ++
    r.unit.body.texts ++
    match r.check with
    | .service name => [name]
    | .none | .rootLink => []

end Destination.Rendered

namespace Plan.HasOneLiners

variable {d : Destination} {rendered : List Destination.Rendered} {r : Destination.Rendered}

/-- A unit for which a check was decided can still be read. -/
theorem readable (h : plan.HasOneLiners) (hdecided : d.Decided plan.units rendered)
    (hr : r ∈ rendered) : r.unit.Readable r.check := by
  have hcheck : ∀ name, r.check = .service name → IsWord name := by
    intro name hname
    have hresolved := hdecided.resolved_of_mem hr
    split at hresolved
    · rw [hresolved] at hname
      cases hname
    · rw [hname] at hresolved
      exact CheckRequest.isWord_resolve hresolved
  have hunit := (h r.unit (hdecided.unit_mem hr)).readable
  exact ⟨hunit.description, hunit.documentation, hunit.target, hcheck, hunit.body⟩

theorem oneLine_texts (h : plan.HasOneLiners) (hdecided : d.Decided plan.units rendered)
    (hr : r ∈ rendered) : ∀ text ∈ r.texts, OneLine text := by
  have hunit := h r.unit (hdecided.unit_mem hr)
  have hreadable := h.readable hdecided hr
  simp only [Destination.Rendered.texts, List.forall_mem_append, List.forall_mem_cons,
    List.mem_flatMap]
  refine ⟨⟨⟨⟨hunit.name.oneLine, hreadable.description, by simp⟩, ?_⟩, hunit.body⟩, ?_⟩
  · rintro text ⟨e, he, htext⟩
    simp only [List.mem_cons, List.not_mem_nil, or_false] at htext
    rcases htext with rfl | rfl
    · exact hunit.source e he
    · exact (hreadable.target e he).oneLine
  · cases hcheck : r.check with
    | none | rootLink => simp
    | service name => simpa using (hreadable.check name hcheck).oneLine

end Plan.HasOneLiners

/-- The settings for other units are the same for every plan of a pass. -/
theorem content_of_submitted (hplan : plan ∈ site.submitted settings s) {x : DropIn}
    (hx : x ∈ plan.dropIns) : x.content = settingsText "Unit" [("JobTimeoutSec", "0")] := by
  have hrole : ∃ role, plan.IsForRole role := by
    rcases submitted_cases hplan with ⟨-, hroot⟩ | ⟨rule, a, s', -, hdecided⟩
    · exact ⟨.root, decideRoot_ensures _ _ _ hroot plan rfl⟩
    · exact ⟨rule.role, rule.decide_ensures _ _ _ hdecided plan rfl⟩
  obtain ⟨role, hrole⟩ := hrole
  rcases hrole.dropIns with hnone | hone
  · rw [hnone] at hx
    cases hx
  · rw [hone] at hx
    rw [List.mem_singleton.mp hx]
    rfl

/-- A file that a plan makes is that of one of its units or of its settings for other units. -/
theorem Destination.makeFile_mem_actions {d : Destination}
    {rendered : List Destination.Rendered} {dropIns : List DropIn} {path : Path}
    {content : String} {draws : List Draw}
    (h : .makeFile path content draws ∈ d.actions rendered dropIns) :
    (∃ r ∈ rendered, path = d.directory.join (Path.ofText r.unit.name) ∧
        content = r.unit.text r.check) ∨
      ∃ x ∈ dropIns, path = d.directory.join x.path ∧ content = x.content := by
  unfold Destination.actions at h
  rcases List.mem_append.mp h with h | hlinks
  · rcases List.mem_append.mp h with hunits | hdropIns
    · obtain ⟨r, hr, heq⟩ := List.mem_map.mp hunits
      obtain ⟨hpath, hcontent, -⟩ := Action.makeFile.inj heq
      exact Or.inl ⟨r, hr, hpath.symm, hcontent.symm⟩
    · obtain ⟨x, hx, hfile⟩ := List.mem_flatMap.mp hdropIns
      unfold Destination.dropInFile Destination.withDirectory at hfile
      rcases List.mem_append.mp hfile with hdirectory | hfile
      · obtain ⟨_, -, heq⟩ := List.mem_map.mp hdirectory
        cases heq
      · obtain ⟨hpath, hcontent, -⟩ := Action.makeFile.inj (List.mem_singleton.mp hfile)
        exact Or.inr ⟨x, hx, hpath, hcontent⟩
  · exact absurd rfl (linkActions_make_no_file hlinks path content draws)

/-- **Nothing that is read adds a line to a unit file.**  In a pass that finds devices in the
kernel's device tree and probes them, whatever these say, no text that a unit file is made of has a
line feed, and a file that is written has the lines of the template of its unit, each with its own
key, and no others.  The only other files are settings for other units, which are always the
same. -/
theorem unit_files_keep_template {world : σ → World}
    (hdevices : ∀ s, (site.machine s).devices = (world s).devices)
    (hprobe : ∀ s, (site.machine s).probe = (world s).probe program)
    (hplan : plan ∈ site.submitted settings s) (d : Destination)
    {rendered : List Destination.Rendered}
    (hrendered : (d.render plan.units).run.value = .ok rendered) :
    (∀ r ∈ rendered, r.unit ∈ plan.units ∧ ∀ text ∈ r.texts, OneLine text) ∧
    ∀ path content draws, .makeFile path content draws ∈ d.actions rendered plan.dropIns →
      (∃ r ∈ rendered, path = d.directory.join (Path.ofText r.unit.name) ∧
          content.toList.splitOn '\n' =
            (r.unit.template r.check).map (fun row => row.text.toList) ++ [[]]) ∨
        ∃ x ∈ plan.dropIns, path = d.directory.join x.path ∧
          content = settingsText "Unit" [("JobTimeoutSec", "0")] := by
  have honeLiners := Site.hasOneLiners_submitted hdevices hprobe hplan
  have hdecided := render_eq_ok_iff.mp hrendered
  refine ⟨fun r hr => ⟨hdecided.unit_mem hr, honeLiners.oneLine_texts hdecided hr⟩, ?_⟩
  intro path content draws hfile
  rcases Destination.makeFile_mem_actions hfile with ⟨r, hr, hpath, rfl⟩ | ⟨x, hx, hpath, rfl⟩
  · exact Or.inl ⟨r, hr, hpath, (honeLiners.readable hdecided hr).splitOn_text⟩
  · exact Or.inr ⟨x, hx, hpath, content_of_submitted hplan hx⟩

/-- The plan for `/home` on a machine with a whole disk. -/
def plainHomePlan : Plan :=
  let a : Assignment := ⟨.home, "/dev/sda1", 1, true⟩
  { units := [(dataRequest .home a "/home" "ext4").unit "home.mount" "/dev/sda1" (some "ext4")] }

set_option maxRecDepth 20000 in
/-- The file for `/home` on that machine, line by line. -/
theorem unit_files_keep_template_home :
    let site := liveSite ⟨false, Path.ofText "/bin/blkid"⟩ (Path.ofText "/dest")
    let d : Destination := ⟨Path.ofText "/dest", false, fun _ => false, fun _ => Draw.standard⟩
    plainHomePlan ∈ site.submitted {} World.withHomeDisk ∧
      ∃ u content draws, (d.render plainHomePlan.units).run.value = .ok [⟨u, .none⟩] ∧
        .makeFile (Path.ofText "/dest/home.mount") content draws ∈ d.actions [⟨u, .none⟩] [] ∧
        content.toList.splitOn '\n' =
          ["# Automatically generated by gpt-auto-generator", "", "[Unit]",
            "Description=Home Partition", "Documentation=man:systemd-gpt-auto-generator(8)",
            "Before=local-fs.target", "", "[Mount]", "What=/dev/sda1", "Where=/home",
            "Type=ext4", "Options=rw", ""].map String.toList := by
  intro site d
  have hplan : plainHomePlan ∈ site.submitted {} World.withHomeDisk := by decide +kernel
  let u := (dataRequest .home ⟨.home, "/dev/sda1", 1, true⟩ "/home" "ext4").unit "home.mount"
    "/dev/sda1" (some "ext4")
  have hrendered : (d.render plainHomePlan.units).run.value = .ok [⟨u, .none⟩] := by
    decide +kernel
  have hfile : .makeFile (Path.ofText "/dest/home.mount") (u.text .none) Draw.standard ∈
      d.actions [⟨u, .none⟩] [] := by
    have hpath : d.directory.join (Path.ofText "home.mount") = Path.ofText "/dest/home.mount" := by
      decide +kernel
    rw [← hpath]
    exact List.mem_append_left _ (List.mem_append_left _ List.mem_cons_self)
  refine ⟨hplan, u, u.text .none, Draw.standard, hrendered, hfile, ?_⟩
  obtain ⟨-, hfiles⟩ := unit_files_keep_template (fun _ => rfl) (fun _ => rfl) hplan d hrendered
  rcases hfiles _ _ _ hfile with ⟨r, hr, -, hlines⟩ | ⟨x, hx, -⟩
  · rw [hlines, List.mem_singleton.mp hr]
    decide +kernel
  · cases hx

end PartitionUnits
