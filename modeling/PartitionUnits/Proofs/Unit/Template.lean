import PartitionUnits.Proofs.Unit.Reading

/-!
# The template of a unit file

What a unit file has to look like, row by row: some rows stand as they are, and in the others only
what follows the key is up to the unit.

## Main Definitions

* `Row` — a line of a template
* `UnitFile.template` — the rows of a unit file
* `UnitFile.Readable.splitOn_text` — a file that is cut at line feeds has these lines and no others

## Design Notes

The template is written down as a unit file looks, and not as the code puts it together; that both
come to the same lines is `template_text`.  Which rows there are is up to what the unit is and to
which relations it has, but not to any text, and a text shows in its own row only.
-/

namespace PartitionUnits

/-- A line of a template: one that stands as it is, or a key and what it is set to. -/
inductive Row where
  | fixed (line : String)
  | setting (key value : String)
deriving DecidableEq, Repr

/-- The line of a row. -/
def Row.text : Row → String
  | fixed line => line
  | setting key value => key ++ "=" ++ value

/-- The rows of the section that says what a unit does. -/
def UnitBody.template : UnitBody → List Row
  | .mount device mountPoint fsType options =>
    [.fixed "[Mount]", .setting "What" device, .setting "Where" mountPoint] ++
      (match fsType with
        | some fsType => [.setting "Type" fsType]
        | none => []) ++
      [.setting "Options" options]
  | .automount mountPoint idleSeconds =>
    [.fixed "[Automount]", .setting "Where" mountPoint,
      .setting "TimeoutIdleSec" (toString idleSeconds)]
  | .swap device => [.fixed "[Swap]", .setting "What" device]
  | .unlock volume source readOnly =>
    [.fixed "[Service]", .fixed "Type=oneshot", .fixed "RemainAfterExit=yes",
      .fixed "TimeoutSec=0",
      .setting "ExecStart" (" ".intercalate [cryptsetupPath, "attach", singleQuoted volume,
        singleQuoted source, singleQuoted "", singleQuoted (if readOnly then "read-only" else "")]),
      .setting "ExecStop" (" ".intercalate [cryptsetupPath, "detach", singleQuoted volume])]

/-- The rows for a check. -/
def CheckDependency.template : CheckDependency → List Row
  | .service name => [.setting "Requires" name, .setting "After" name]
  | .none | .rootLink => []

/-- The row for the units that a unit depends on in one way, if there are any. -/
def UnitFile.relationRow (u : UnitFile) (key : String) (relation : Relation) : List Row :=
  if u.targets relation = [] then [] else [.setting key (" ".intercalate (u.targets relation))]

/-- **The rows of a unit file**: a header, the section that all units have, with one row for each
relation in which the unit depends on anything, and the section that says what the unit does. -/
def UnitFile.template (u : UnitFile) (check : CheckDependency) : List Row :=
  [.fixed "# Automatically generated by gpt-auto-generator",
    .fixed "",
    .fixed "[Unit]",
    .setting "Description" u.description] ++
  (if u.documentation = [] then []
    else [.setting "Documentation" (" ".intercalate u.documentation)]) ++
  (if u.defaultDependencies then [] else [.fixed "DefaultDependencies=no"]) ++
  u.relationRow "Conflicts" .conflicts ++
  u.relationRow "BindsTo" .bindsTo ++
  u.relationRow "Requires" .requires ++
  u.relationRow "Wants" .wants ++
  u.relationRow "Before" .before ++
  u.relationRow "After" .after ++
  check.template ++
  (if u.ignoreOnIsolate then [.fixed "IgnoreOnIsolate=true"] else []) ++
  [.fixed ""] ++
  u.body.template

namespace UnitFile

variable {u : UnitFile} {check : CheckDependency}

theorem relationRow_text (u : UnitFile) (relation : Relation) :
    (u.relationRow relation.setting relation).map Row.text = u.relationLines relation := by
  unfold relationRow relationLines targets
  split
  · next h => rw [h]; rfl
  · next h =>
      split
      · next hnil => exact absurd hnil h
      · rfl

/-- **The lines of a unit file are those of its template.** -/
theorem template_text (u : UnitFile) (check : CheckDependency) :
    (u.template check).map Row.text = u.lines check := by
  have hbody : u.body.template.map Row.text = u.body.lines := by
    cases u.body with
    | mount device mountPoint fsType options => cases fsType <;> rfl
    | automount | swap | unlock => rfl
  have hcheck : check.template.map Row.text = check.lines := by
    cases check <;> rfl
  have hrelations : Relation.all.flatMap u.relationLines =
      (u.relationRow "Conflicts" .conflicts ++ u.relationRow "BindsTo" .bindsTo ++
        u.relationRow "Requires" .requires ++ u.relationRow "Wants" .wants ++
        u.relationRow "Before" .before ++ u.relationRow "After" .after).map Row.text := by
    simp only [Relation.all, List.flatMap_cons, List.flatMap_nil, ← relationRow_text,
      List.map_append, List.append_nil, List.append_assoc]
    rfl
  unfold template lines unitLines
  rw [hrelations]
  simp only [List.map_append, hbody, hcheck]
  split_ifs <;> simp [Row.text, settingLine, generatedHeader]

/-- **A unit file that is cut at line feeds has the lines of its template and no others.** -/
theorem Readable.splitOn_text (h : u.Readable check) :
    (u.text check).toList.splitOn '\n' =
      (u.template check).map (fun row => row.text.toList) ++ [[]] := by
  rw [text, splitOn_linesText h.oneLine_lines, ← template_text, List.map_map]
  rfl

end UnitFile

end PartitionUnits
