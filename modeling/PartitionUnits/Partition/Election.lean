import PartitionUnits.Device.Block
import PartitionUnits.Log
import PartitionUnits.Partition.Role
import PartitionUnits.Text.Quoted

/-!
# Election

Among the partitions next to the root partition, at most one is elected for each role.

## Main Definitions

* `Candidacy` — what becomes of one partition
* `candidacy` — the partition's table entry, type and flags decide
* `elect` — the winner for each rule, in the order of the rules

## Design Notes

The lowest partition number wins, not the first partition listed.  Two partitions that claim the
same number for one role make the role's disk layout untrustworthy, so the role is abandoned even
if a lower number stands for it.
-/

namespace PartitionUnits

open Text
open Device (Block)
open PartitionUnits.Partition (Table Entry)

/-- What becomes of one partition in the election. -/
inductive Candidacy where
  /-- It is the root device, the disk itself, of no number, or of a type nobody asked for. -/
  | irrelevant
  | notInTable (number : Nat)
  | badType (text : String)
  | refused (role : Role) (reason : Refusal)
  | stands (rule : Rule) (assignment : Assignment)

/-- What becomes of a partition next to the root device. -/
def candidacy (guids : Guid.Reader) (root : Device.Number) (disk : Block) (table : Table)
    (b : Block) : Candidacy :=
  if b.number = root ∨ b.number = disk.number then .irrelevant
  else
    match b.partition with
    | none => .irrelevant
    | some number =>
      match table.entry? number with
      | none => .notInTable number
      | some entry =>
        match Guid.parse? guids entry.typeText with
        | none => .badType entry.typeText
        | some typeId =>
          match rule? typeId with
          | none => .irrelevant
          | some rule =>
            match rule.admission entry.flags with
            | .refused reason => .refused rule.role reason
            | .admitted rw => .stands rule ⟨rule.role, b.node.text, number, rw⟩

/-- The event that a candidacy leaves. -/
def Candidacy.events (node : String) : Candidacy → List Event
  | .irrelevant | .stands .. => []
  | .notInTable number =>
    [⟨.debug, .election, s!"{node}: no entry for partition {number} in the partition table"⟩]
  | .badType text =>
    [⟨.debug, .election, s!"{node}: bad partition type {quoted text}, ignoring"⟩]
  | .refused role reason =>
    [⟨.debug, .election, s!"{node}: {reason.message}, not using it for {role.id}"⟩]

/-- The assignment a candidacy offers to a rule. -/
def Candidacy.offer? (rule : Rule) : Candidacy → Option Assignment
  | .stands r a => if r.typeId = rule.typeId then some a else none
  | _ => none

/-- The first two neighbours of one number in a list. -/
def firstClash? : List Assignment → Option (Assignment × Assignment)
  | a :: b :: rest => if a.number = b.number then some (a, b) else firstClash? (b :: rest)
  | _ => none

/-- The candidates in order of their numbers, those of one number as they were listed. -/
def ranked (offers : List Assignment) : List Assignment :=
  offers.mergeSort fun a b => decide (a.number ≤ b.number)

/-- The winner among the offers to one role, unless two of them claim one number. -/
def winner? (role : Role) (offers : List Assignment) : Traced (Option Assignment) :=
  match firstClash? (ranked offers) with
  | some (a, b) => do
    Traced.log .warning .election
      (s!"{a.node} and {b.node} both claim to be partition {a.number}, " ++
        s!"not using either for {role.id}")
    return none
  | none =>
    match (ranked offers).head? with
    | none => return none
    | some a => do
      Traced.log .debug .election s!"Using partition {a.number} ({a.node}) for {role.id}"
      return some a

/-- The winner for each rule that has one, in the order of the rules. -/
def elect (guids : Guid.Reader) (root : Device.Number) (disk : Block) (partitions : List Block)
    (table : Table) : Traced (List (Rule × Assignment)) := do
  let candidacies := partitions.map fun b => (b.node.text, candidacy guids root disk table b)
  Traced.report (candidacies.flatMap fun (node, c) => c.events node)
  let winners ← rules.mapM fun rule => do
    let winner ← winner? rule.role (candidacies.filterMap fun (_, c) => c.offer? rule)
    return winner.map fun a => (rule, a)
  return winners.filterMap id

end PartitionUnits
