import PartitionUnits.World

/-!
# A plain machine

A machine with a shell and its utilities and nothing else of note.

## Main Definitions

* `World.bare` — the directories that every machine has
* `World.plain` — the plain machine
-/

namespace PartitionUnits

namespace World

/-- The directories that every machine has, and the file that swallows everything. -/
def bare : World :=
  let directories := ["/dev", "/usr/sbin", "/etc", "/dest", "/tmp"]
  let locations := (directories.map fun d => (Path.ofText d).names) ++ [(Path.ofText "/usr").names]
  let entries := locations.map fun l => (l, Entry.directory Tree.directoryMode)
  { tree := ⟨((Path.ofText "/dev/null").names, .file Tree.fileMode (.octets [])) :: entries⟩ }

/-- The directory of the programs of the plain machine. -/
def plainPrograms : Path := Path.ofText "/bin"

/-- The utilities of the plain machine. -/
def plainUtilities : List String := ["cat", "echo", "false", "kill", "printf", "true"]

/-- The plain machine. -/
def plain : World :=
  let program (name : String) (p : Program) : Location × Entry :=
    ((plainPrograms.join (Path.ofText name)).names, .file 0o755 (.program p))
  { tree := ⟨program "sh" .shell :: plainUtilities.map (fun name => program name (.utility name)) ++
      (plainPrograms.names, .directory Tree.directoryMode) :: bare.tree.entries⟩
    environment := [("PATH", plainPrograms.octets)] }

end World

end PartitionUnits
