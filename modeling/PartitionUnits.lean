import PartitionUnits.Main
import PartitionUnits.Proofs.FileSystem.Tree
import PartitionUnits.Proofs.FileSystem.Walk
import PartitionUnits.Proofs.FileSystem.Slot
import PartitionUnits.Proofs.FileSystem.Change
import PartitionUnits.Proofs.FileSystem.Script
import PartitionUnits.Proofs.FileSystem.NewFile
import PartitionUnits.Proofs.FileSystem.AllOrNothing
import PartitionUnits.Proofs.Submission.Journal
import PartitionUnits.Proofs.Submission.Actions
import PartitionUnits.Proofs.Submission.Atomicity
import PartitionUnits.Proofs.Attempt
import PartitionUnits.Proofs.Submission.Footprint
import PartitionUnits.Proofs.Submission.Interruption
import PartitionUnits.Proofs.MountPlan
import PartitionUnits.Proofs.Submission.Restoration
import PartitionUnits.Proofs.Pass
import PartitionUnits.Proofs.Partition.Election
import PartitionUnits.Proofs.Discovery
import PartitionUnits.Proofs.RolePlans
import PartitionUnits.Proofs.Turns
import PartitionUnits.Proofs.BootMount
import PartitionUnits.Proofs.FileSystem.Place
import PartitionUnits.Proofs.Submission.Completion
import PartitionUnits.Proofs.Submission.Part
import PartitionUnits.Proofs.Submission.Parts
import PartitionUnits.Proofs.Submission.PlanParts
import PartitionUnits.Proofs.RoleParts
import PartitionUnits.Proofs.TreePass
import PartitionUnits.Proofs.Rerun
import PartitionUnits.Proofs.NonInterference
import PartitionUnits.Proofs.ListingOrder
import PartitionUnits.Proofs.Inquiry
import PartitionUnits.Proofs.History
import PartitionUnits.Proofs.Text.Words
import PartitionUnits.Proofs.Unit.Reading
import PartitionUnits.Proofs.Unlocking
import PartitionUnits.Proofs.UnlockChain
import PartitionUnits.Proofs.Concurrency.Interleaving
import PartitionUnits.Proofs.Concurrency.Ownership
import PartitionUnits.Proofs.Concurrency.Making
import PartitionUnits.Proofs.Concurrency.Submitting
import PartitionUnits.Proofs.Concurrency.Submissions
import PartitionUnits.Proofs.Ordering
import PartitionUnits.Proofs.Unit.Escape
import PartitionUnits.Proofs.Agreement
import PartitionUnits.Proofs.StaticMounts
import PartitionUnits.Proofs.TidyPlans
import PartitionUnits.Proofs.Submission.Collision
import PartitionUnits.Proofs.Submission.Room
import PartitionUnits.Proofs.PartitionFlags
import PartitionUnits.Proofs.RolesApart
import PartitionUnits.Proofs.LivePass
import PartitionUnits.Proofs.Text.Utf8
import PartitionUnits.Proofs.Unit.Faithful
import PartitionUnits.Proofs.LastTold
import PartitionUnits.Proofs.Signature
import PartitionUnits.Proofs.Probing
import PartitionUnits.Proofs.Text.Lines
import PartitionUnits.Proofs.Unit.Template
import PartitionUnits.Proofs.LineSafety
import PartitionUnits.Proofs.Usage
import PartitionUnits.Proofs.Program
import PartitionUnits.Proofs.Confinement
import PartitionUnits.Proofs.Dependencies
import PartitionUnits.Proofs.MountTable
import PartitionUnits.Proofs.Occupancy
import PartitionUnits.Proofs.MountPoints
import PartitionUnits.Proofs.WrittenMounts
import PartitionUnits.Proofs.KernelArguments
import PartitionUnits.Proofs.Settings
import PartitionUnits.Proofs.Text.Numeral
import PartitionUnits.Proofs.Device.Number
import PartitionUnits.Proofs.Guid
import PartitionUnits.Proofs.FirmwareVariable
import PartitionUnits.Proofs.DeviceTree
import PartitionUnits.Proofs.Distinguishable
import PartitionUnits.Proofs.UnlockCommand
import PartitionUnits.Proofs.WrittenProperties
