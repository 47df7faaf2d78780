import PartitionUnits.Path

/-!
# Units

The units to generate, the dependencies they take part in, and everything that has to be written
for one role.

## Main Definitions

* `Relation`, `Edge` — a dependency between two units
* `UnitBody`, `UnitFile` — a unit to generate
* `DropIn` — extra settings for a unit that is not generated
* `Plan` — everything for one role

## Design Notes

A unit holds the dependencies in both directions.  Those of its own are written into its file, the
others become links in the directories of the units that they belong to; both are read off one list
so that their order is kept.
-/

namespace PartitionUnits

/-- The first line of every generated file. -/
def generatedHeader : String := "# Automatically generated by gpt-auto-generator"

/-- The manual page that every generated unit refers to. -/
def generatorManual : String := "man:systemd-gpt-auto-generator(8)"

/-- Well-known synchronization points of the boot. -/
inductive Milestone where
  | localFs
  | initrdRootFs
  | swap
  | cryptsetup
  | umount
deriving DecidableEq, Repr

/-- The name of a milestone's unit. -/
def Milestone.unit : Milestone → String
  | .localFs => "local-fs.target"
  | .initrdRootFs => "initrd-root-fs.target"
  | .swap => "swap.target"
  | .cryptsetup => "cryptsetup.target"
  | .umount => "umount.target"

/-- The milestone with a unit name. -/
def Milestone.ofUnit? (name : String) : Option Milestone :=
  [localFs, initrdRootFs, swap, cryptsetup, umount].find? (·.unit = name)

/-- The kinds of dependency. -/
inductive Relation where
  | conflicts
  | bindsTo
  | requires
  | wants
  | before
  | after
deriving DecidableEq, Repr

namespace Relation

/-- The setting that expresses a dependency. -/
def setting : Relation → String
  | conflicts => "Conflicts"
  | bindsTo => "BindsTo"
  | requires => "Requires"
  | wants => "Wants"
  | before => "Before"
  | after => "After"

/-- All kinds, in the order they are written in. -/
def all : List Relation := [conflicts, bindsTo, requires, wants, before, after]

/-- The kind with a setting. -/
def ofSetting? (name : String) : Option Relation := all.find? (·.setting = name)

/-- The ending of the directory through which a unit takes on a dependency without being changed,
for the kinds that have one. -/
def linkSuffix? : Relation → Option String
  | requires => some ".requires"
  | wants => some ".wants"
  | _ => none

end Relation

/-- A dependency of one unit on another. -/
structure Edge where
  source : String
  relation : Relation
  target : String
deriving DecidableEq, Repr

/-- The wish to have the device of a mount checked before it is mounted. -/
structure CheckRequest where
  device : String
  mountPoint : String
  fsType : Option String
deriving DecidableEq, Repr

/-- What a unit does. -/
inductive UnitBody where
  | mount (device mountPoint : String) (fsType : Option String) (options : String)
  | automount (mountPoint : String) (idleSeconds : Nat)
  | swap (device : String)
  | unlock (volume source : String) (readOnly : Bool)
deriving DecidableEq, Repr

/-- A unit to generate, together with the dependencies it takes part in. -/
structure UnitFile where
  name : String
  description : String
  body : UnitBody
  documentation : List String := [generatorManual]
  defaultDependencies : Bool := true
  ignoreOnIsolate : Bool := false
  edges : List Edge := []
  check : Option CheckRequest := none
deriving DecidableEq, Repr

namespace UnitFile

/-- Add a dependency of this unit on another one. -/
def depends (u : UnitFile) (relation : Relation) (target : String) : UnitFile :=
  { u with edges := u.edges ++ [⟨u.name, relation, target⟩] }

/-- Add a dependency of another unit on this one. -/
def dependedOnBy (u : UnitFile) (source : String) (relation : Relation) : UnitFile :=
  { u with edges := u.edges ++ [⟨source, relation, u.name⟩] }

/-- The dependencies that the unit's own file declares. -/
def ownEdges (u : UnitFile) : List Edge := u.edges.filter fun e => e.source = u.name

/-- The dependencies that other units take on this one. -/
def reverseEdges (u : UnitFile) : List Edge :=
  u.edges.filter fun e => e.source ≠ u.name ∧ e.target = u.name

end UnitFile

/-- Extra settings for a unit that is not generated. -/
structure DropIn where
  unit : String
  name : String
  content : String
deriving DecidableEq, Repr

/-- Where a drop-in goes, below the destination. -/
def DropIn.path (d : DropIn) : Path :=
  (Path.ofText (d.unit ++ ".d")).join (Path.ofText (d.name ++ ".conf"))

/-- Everything that has to be written for one role. -/
structure Plan where
  units : List UnitFile := []
  dropIns : List DropIn := []
deriving DecidableEq, Repr

/-- The first unit of a plan with a name. -/
def Plan.unit? (p : Plan) (name : String) : Option UnitFile := p.units.find? (·.name = name)

end PartitionUnits
