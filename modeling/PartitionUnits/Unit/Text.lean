import PartitionUnits.Unit.Check

/-!
# The text of units

Unit files and drop-ins as they are written.

## Main Definitions

* `UnitFile.text` — a unit file
* `settingsText` — a file of one section

## Design Notes

A file is put together from lines; `UnitFile.unitLines` holds those of the `[Unit]` section and
`UnitBody.lines` the others, so that statements can speak of lines and not of characters.
-/

namespace PartitionUnits

/-- A line that sets a key. -/
def settingLine (key value : String) : String := key ++ "=" ++ value

/-- Lines as the text of a file. -/
def linesText (lines : List String) : String := String.join (lines.map (· ++ "\n"))

/-- The program that locks and unlocks volumes. -/
def cryptsetupPath : String := "/usr/lib/systemd/systemd-cryptsetup"

/-- The line for the dependencies of one kind; none if there are none. -/
def UnitFile.relationLines (u : UnitFile) (relation : Relation) : List String :=
  match (u.ownEdges.filter (·.relation = relation)).map (·.target) with
  | [] => []
  | targets => [settingLine relation.setting (" ".intercalate targets)]

/-- The lines that make a unit wait for a check. -/
def CheckDependency.lines : CheckDependency → List String
  | .service name => [settingLine "Requires" name, settingLine "After" name]
  | .none | .rootLink => []

/-- The lines of the `[Unit]` section. -/
def UnitFile.unitLines (u : UnitFile) (check : CheckDependency) : List String :=
  ["[Unit]", settingLine "Description" u.description] ++
    (if u.documentation = [] then []
      else [settingLine "Documentation" (" ".intercalate u.documentation)]) ++
    (if u.defaultDependencies then [] else ["DefaultDependencies=no"]) ++
    Relation.all.flatMap u.relationLines ++
    check.lines ++
    (if u.ignoreOnIsolate then ["IgnoreOnIsolate=true"] else [])

/-- A text between apostrophes. -/
def singleQuoted (s : String) : String := "\x27" ++ s ++ "\x27"

/-- The lines of the section that says what a unit does. -/
def UnitBody.lines : UnitBody → List String
  | .mount device mountPoint fsType options =>
    ["[Mount]", settingLine "What" device, settingLine "Where" mountPoint] ++
      fsType.toList.map (settingLine "Type") ++
      [settingLine "Options" options]
  | .automount mountPoint idleSeconds =>
    ["[Automount]", settingLine "Where" mountPoint,
      settingLine "TimeoutIdleSec" (toString idleSeconds)]
  | .swap device => ["[Swap]", settingLine "What" device]
  | .unlock volume source readOnly =>
    ["[Service]", "Type=oneshot", "RemainAfterExit=yes", "TimeoutSec=0",
      settingLine "ExecStart" (" ".intercalate [cryptsetupPath, "attach", singleQuoted volume,
        singleQuoted source, singleQuoted "", singleQuoted (if readOnly then "read-only" else "")]),
      settingLine "ExecStop" (" ".intercalate [cryptsetupPath, "detach", singleQuoted volume])]

/-- The lines of a unit file. -/
def UnitFile.lines (u : UnitFile) (check : CheckDependency) : List String :=
  [generatedHeader, ""] ++ u.unitLines check ++ [""] ++ u.body.lines

/-- The text of a unit file. -/
def UnitFile.text (u : UnitFile) (check : CheckDependency) : String := linesText (u.lines check)

/-- The text of a file of settings in one section. -/
def settingsText (section_ : String) (settings : List (String × String)) : String :=
  linesText ([generatedHeader, "", "[" ++ section_ ++ "]"] ++
    settings.map fun (key, value) => settingLine key value)

end PartitionUnits
