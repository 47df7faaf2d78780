import PartitionUnits.Proofs.MountPlan
import PartitionUnits.Proofs.Unit.Faithful
import PartitionUnits.Proofs.Unit.Reading

/-!
# The service that unlocks a volume

The service is tied to two devices, that of the encrypted partition and the mapped one that the
volume appears as.  The mapped device does not exist yet when the units are written, so its unit is
named after the volume; once it exists, it goes by the unit of its node.

## Main Definitions

* `IsVolumePath` — the volumes whose node is spelled without anything to leave out
* `UnitName.escapePath_mapper_iff` — for which volumes both names of the unit agree
* `Unlocking.edges_service`, `Unlocking.targets_service` — what the service is tied to
* `Unlocking.mappedUnit_iff` — the service waits for the unit of the mapped device just for these

## Design Notes

The name of a volume is escaped as it is.  A path is tidied up first: slashes that say nothing are
left out, and two dots are refused.  What an escaped name stands for can be read back
(`eq_of_escape_eq`), so the two names can only agree where there is nothing to tidy up, and then all
that is left to compare is the first octet of the volume, which starts the one name and is in the
middle of the other.
-/

namespace PartitionUnits

open Attempt Text

/-! ## The name of the mapped device -/

/-- **A volume whose node is spelled without anything to leave out**: names between single slashes,
none of them two dots, and no dot at the start. -/
structure IsVolumePath (id : String) : Prop where
  ne_empty : id ≠ ""
  notHidden : id.toList.head? ≠ some '.'
  nil_notMem : [] ∉ id.toList.splitOn '/'
  dots_notMem : ['.', '.'] ∉ id.toList.splitOn '/'

namespace UnitName

variable {id s : String}

/-- A text is the spelling of names just if it is cut into them. -/
theorem spelling_eq_iff {names : List (List Char)} (hne : names ≠ [])
    (hslash : ∀ name ∈ names, '/' ∉ name) : spelling names = s ↔ s.toList.splitOn '/' = names := by
  rw [spelling, if_neg hne]
  constructor
  · rintro rfl
    rw [String.toList_ofList, List.splitOn_intercalate '/' hslash hne]
  · rintro rfl
    rw [List.intercalate_splitOn, String.ofList_toList]

theorem splitOn_mapper (id : String) : ("dev/mapper/" ++ id).toList.splitOn '/' =
    "dev".toList :: "mapper".toList :: id.toList.splitOn '/' := by
  have hchars : ("dev/mapper/" ++ id).toList =
      "dev".toList ++ '/' :: ("mapper".toList ++ '/' :: id.toList) := by
    rw [String.toList_append]
    rfl
  rw [hchars, List.splitOn_append_cons_self, List.splitOn_append_cons_self,
    List.splitOn_eq_singleton (by decide), List.splitOn_eq_singleton (by decide)]
  rfl

/-- The node of a volume is two directories down. -/
theorem segments_mapper (id : String) :
    segments ("/dev/mapper/" ++ id) = "dev".toList :: "mapper".toList :: segments id := by
  have hchars : ("/dev/mapper/" ++ id).toList = [] ++ '/' :: ("dev/mapper/" ++ id).toList := by
    rw [String.toList_append, String.toList_append]
    rfl
  rw [segments, hchars, List.splitOn_append_cons_self, splitOn_mapper]
  rfl

/-- Nothing of a node is left out just if no slash of the volume says nothing. -/
theorem spelling_mapper_iff :
    spelling (segments ("/dev/mapper/" ++ id)) = "dev/mapper/" ++ id ↔
      [] ∉ id.toList.splitOn '/' := by
  have hnames : Spells ("/dev/mapper/" ++ id).toList (segments ("/dev/mapper/" ++ id)) :=
    spells_iff.mpr rfl
  have hslash := hnames.ne_nil_and_slash_notMem
  rw [spelling_eq_iff (by simp [segments_mapper]) fun name hname => (hslash name hname).2,
    splitOn_mapper, segments_mapper, List.cons_inj_right, List.cons_inj_right, eq_comm, segments,
    List.filter_eq_self]
  constructor
  · exact fun hall hnil => of_decide_eq_true (hall [] hnil) rfl
  · exact fun hnil name hname => decide_eq_true fun heq => hnil (heq ▸ hname)

/-- What comes before the name of a volume is escaped like any octets in the middle of a text. -/
theorem flatMap_escapeOctet_mapper :
    (encode "dev/mapper/".toList).flatMap escapeOctet = "dev-mapper-".toList := by
  decide

/-- **A text that is escaped like the node of a volume** is that node. -/
theorem eq_of_escape_eq (h : escape s = "dev-mapper-" ++ escape id) : s = "dev/mapper/" ++ id := by
  have hoctets := congrArg (fun name => unescape name.toList) h
  simp only [String.toList_append, toList_escape] at hoctets
  rw [← flatMap_escapeOctet_mapper, unescape_escapeOctets, unescape_flatMap_append,
    unescape_escapeOctets, ← encode_append, ← String.toList_append] at hoctets
  exact String.toList_inj.mp (encode_injective hoctets)

/-- A text is escaped octet by octet unless it starts with a dot. -/
theorem escapeOctets_encode_iff {cs : List Char} :
    escapeOctets (encode cs) = (encode cs).flatMap escapeOctet ↔ cs.head? ≠ some '.' := by
  rw [ne_eq, ← Path.head?_encode_iff (b := dot) (by decide) rfl]
  cases encode cs with
  | nil => simp [escapeOctets]
  | cons b bs =>
      rw [escapeOctets, List.flatMap_cons, List.append_cancel_right_eq, List.head?_cons,
        Option.some.injEq, escapeFirst]
      split
      · next hdot =>
          rw [hdot]
          decide
      · next hdot => exact iff_of_true rfl hdot

/-- The name of a volume is escaped alike behind its directories and by itself, unless it starts
with a dot. -/
theorem escape_mapper_iff :
    escape ("dev/mapper/" ++ id) = "dev-mapper-" ++ escape id ↔ id.toList.head? ≠ some '.' := by
  have hstart : ("dev/mapper/" ++ id).toList.head? ≠ some '.' := by
    rw [String.toList_append]
    show some 'd' ≠ some '.'
    decide
  rw [← String.toList_inj, String.toList_append (s := "dev-mapper-"), toList_escape, toList_escape,
    escapeOctets_encode_iff.mpr hstart, String.toList_append, encode_append, List.flatMap_append,
    flatMap_escapeOctet_mapper, List.append_cancel_left_eq, ← escapeOctets_encode_iff]
  exact eq_comm

/-- **The node of a volume is escaped like the volume** just if there is nothing to leave out. -/
theorem escapePath_mapper_iff :
    escapePath ("/dev/mapper/" ++ id) = .ok ("dev-mapper-" ++ escape id) ↔ IsVolumePath id := by
  have hhead : ("/dev/mapper/" ++ id).toList.head? = some '/' := by
    rw [String.toList_append]
    rfl
  have hdots : ['.', '.'] ∉ segments ("/dev/mapper/" ++ id) ↔
      ['.', '.'] ∉ id.toList.splitOn '/' := by
    rw [segments_mapper]
    simp [segments]
  rw [escapePath_eq_ok_iff, hdots]
  constructor
  · rintro ⟨-, hdots, hname⟩
    have hspelling := eq_of_escape_eq hname.symm
    rw [hspelling] at hname
    have hnil := spelling_mapper_iff.mp hspelling
    exact ⟨fun hid => hnil (by rw [hid]; decide), escape_mapper_iff.mp hname.symm, hnil, hdots⟩
  · intro h
    refine ⟨hhead, h.dots_notMem, ?_⟩
    rw [spelling_mapper_iff.mpr h.nil_notMem, escape_mapper_iff.mpr h.notHidden]

/-- So is the unit of the node named like that of the mapped device. -/
theorem ofPath_mapper_iff :
    ofPath ("/dev/mapper/" ++ id) ".device" = .ok (Unlocking.deviceUnit id) ↔ IsVolumePath id :=
  ofPath_eq_ok_append_iff.trans escapePath_mapper_iff

end UnitName

/-! ## What the service is tied to -/

/-- The units that require a unit without being changed, in order. -/
def UnitFile.requirers (u : UnitFile) : List String :=
  (u.reverseEdges.filter (·.relation = .requires)).map (·.source)

/-- Names with endings of which neither ends in the other one are different. -/
theorem ne_of_endings {s s' a b : String} (h : ¬ a.toList <:+ b.toList)
    (h' : ¬ b.toList <:+ a.toList) : s ++ a ≠ s' ++ b := by
  intro heq
  have ha : a.toList <:+ (s ++ a).toList := by
    rw [String.toList_append]
    exact List.suffix_append _ _
  have hb : b.toList <:+ (s ++ a).toList := by
    rw [heq, String.toList_append]
    exact List.suffix_append _ _
  exact (List.suffix_or_suffix_of_suffix ha hb).elim h h'

namespace Unlocking

variable {id source consumer sourceUnit : String} {rw : Bool} {layer : Unlocking}

theorem deviceUnit_ne_serviceUnit {id' : String} : deviceUnit id' ≠ serviceUnit id :=
  ne_of_endings (by decide) (by decide)

theorem milestone_ne_serviceUnit (m : Milestone) : m.unit ≠ serviceUnit id := by
  have hunit : m.unit = "" ++ m.unit := String.empty_append.symm
  rw [hunit]
  cases m <;> exact ne_of_endings (by decide) (by decide)

/-- The unit of the source's device is not the service. -/
theorem sourceUnit_ne_serviceUnit (h : UnitName.ofPath source ".device" = .ok sourceUnit) :
    sourceUnit ≠ serviceUnit id := by
  obtain ⟨escaped, -, rfl⟩ := UnitName.ofPath_eq_ok h
  exact ne_of_endings (by decide) (by decide)

/-- All dependencies that the service takes part in. -/
theorem edges_service : (service id source rw consumer sourceUnit).edges =
    [⟨serviceUnit id, .conflicts, Milestone.umount.unit⟩,
      ⟨serviceUnit id, .bindsTo, deviceUnit id⟩,
      ⟨serviceUnit id, .bindsTo, sourceUnit⟩,
      ⟨serviceUnit id, .before, Milestone.umount.unit⟩,
      ⟨serviceUnit id, .before, Milestone.cryptsetup.unit⟩,
      ⟨serviceUnit id, .before, consumer⟩,
      ⟨serviceUnit id, .after, sourceUnit⟩,
      ⟨sourceUnit, .wants, serviceUnit id⟩,
      ⟨Milestone.cryptsetup.unit, .requires, serviceUnit id⟩,
      ⟨deviceUnit id, .requires, serviceUnit id⟩] :=
  rfl

/-- What the service's own file declares. -/
theorem targets_service (hsource : sourceUnit ≠ serviceUnit id) (relation : Relation) :
    (service id source rw consumer sourceUnit).targets relation =
      match relation with
      | .conflicts => [Milestone.umount.unit]
      | .bindsTo => [deviceUnit id, sourceUnit]
      | .before => [Milestone.umount.unit, Milestone.cryptsetup.unit, consumer]
      | .after => [sourceUnit]
      | .requires | .wants => [] := by
  unfold service
  simp only
  rw [UnitFile.targets_dependedOnBy deviceUnit_ne_serviceUnit,
    UnitFile.targets_dependedOnBy (milestone_ne_serviceUnit _),
    UnitFile.targets_dependedOnBy hsource]
  simp only [UnitFile.targets_depends]
  cases relation <;> rfl

/-- Which units require the service. -/
theorem requirers_service (hsource : sourceUnit ≠ serviceUnit id) :
    (service id source rw consumer sourceUnit).requirers =
      [Milestone.cryptsetup.unit, deviceUnit id] := by
  have hname : (service id source rw consumer sourceUnit).name = serviceUnit id := rfl
  rw [UnitFile.requirers, UnitFile.reverseEdges, edges_service, hname]
  simp [hsource, milestone_ne_serviceUnit, deviceUnit_ne_serviceUnit]

/-- **The unit of the mapped device is the one that the service waits for** just for volumes whose
node is spelled without anything to leave out.  The unit that gets the settings, the first one that
the service is bound to and the one that requires the service besides the milestone are the same for
every volume; the node of the mapped device goes by that unit just for these volumes. -/
theorem mappedUnit_iff (h : (Unlocking.plan id source rw consumer).run.value = .ok layer) :
    (layer.unit.targets .bindsTo).head? = some layer.dropIn.unit ∧
      layer.unit.requirers = [Milestone.cryptsetup.unit, layer.dropIn.unit] ∧
      (UnitName.ofPath layer.mappedDevice ".device" = .ok layer.dropIn.unit ↔
        id ≠ "" ∧ id.toList.head? ≠ some '.' ∧ [] ∉ id.toList.splitOn '/' ∧
          ['.', '.'] ∉ id.toList.splitOn '/') := by
  obtain ⟨sourceUnit, hsource, rfl⟩ := plan_eq_ok_iff.mp h
  have hne : sourceUnit ≠ serviceUnit id := sourceUnit_ne_serviceUnit hsource
  refine ⟨?_, requirers_service hne, UnitName.ofPath_mapper_iff.trans ⟨fun hid => ?_, ?_⟩⟩
  · rw [targets_service hne]
    rfl
  · exact ⟨hid.ne_empty, hid.notHidden, hid.nil_notMem, hid.dots_notMem⟩
  · rintro ⟨hempty, hhidden, hnil, hdots⟩
    exact ⟨hempty, hhidden, hnil, hdots⟩

/-- A dot matters at the start of a volume, and not after a slash. -/
theorem mappedUnit_of_dots :
    (∃ layer, (Unlocking.plan "vg/.data" "/dev/sda3" true "data.mount").run.value = .ok layer ∧
      UnitName.ofPath layer.mappedDevice ".device" = .ok layer.dropIn.unit) ∧
    ∃ layer, (Unlocking.plan ".data" "/dev/sda3" true "data.mount").run.value = .ok layer ∧
      UnitName.ofPath layer.mappedDevice ".device" ≠ .ok layer.dropIn.unit := by
  have hplan : ∀ id, (Unlocking.plan id "/dev/sda3" true "data.mount").run.value =
      .ok ⟨"/dev/mapper/" ++ id, service id "/dev/sda3" true "data.mount" "dev-sda3.device",
        noTimeout id⟩ :=
    fun id => plan_eq_ok_iff.mpr ⟨"dev-sda3.device", by decide, rfl⟩
  obtain ⟨-, -, hgroup⟩ := mappedUnit_iff (hplan "vg/.data")
  obtain ⟨-, -, hhidden⟩ := mappedUnit_iff (hplan ".data")
  exact ⟨⟨_, hplan "vg/.data", hgroup.mpr (by decide)⟩,
    ⟨_, hplan ".data", fun h => (hhidden.mp h).2.1 rfl⟩⟩

end Unlocking

end PartitionUnits
