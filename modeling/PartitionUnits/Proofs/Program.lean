import PartitionUnits.Proofs.ListingOrder
import PartitionUnits.Proofs.LivePass
import PartitionUnits.Proofs.Usage
import PartitionUnits.Run

/-!
# How the program ends

Whatever the arguments, the environment and the files are, the program ends in one of four ways, and
it can be told beforehand in which.

## Main Definitions

* `World.configured` — the settings that a world asks for
* `Way` — the ways in which the program ends
* `Way.Applies`, `Way.Outcome` — when the program ends in a way, and what has come of it then
* `PassEnds` — what has come of a pass
* `program_ends_one_way` — exactly one way applies, and the program ends so

## Design Notes

The conditions are about what is there before the program starts and do not mention how it goes
about finding out.  In three of the ways nothing has been written; in the fourth one the files are
those that a pass leaves, and the exit code says whether the pass has recorded a failure.  How
arguments are read is up to a reader, of which nothing is used but what readers promise
(`ArgumentReader.IsDocumented`).
-/

namespace PartitionUnits

open Usage ArgumentReader

variable {reader : ArgumentReader} {arguments directories : List Octets} {w : World}

/-! ## What the program goes by -/

/-- The kernel command line that counts: the one in the environment if that is a text, or else the
kernel's own if that can be read. -/
def World.commandLine? (w : World) : Option String :=
  match w.textVariable? "SYSTEMD_PROC_CMDLINE" with
  | some line => some line
  | none => (w.readText (Path.ofText "/proc/cmdline")).toOption

/-- **The settings that a world asks for**, which are the standard ones if it asks for none. -/
def World.configured (w : World) : Settings :=
  match w.commandLine? with
  | some line => (Settings.ofCommandLine line).value
  | none => {}

/-- The directory that units are written to: the last one that was passed, if any was. -/
def destinationOf : List Octets → Path
  | [_, _, late] => ⟨late⟩
  | _ => Path.ofText "/tmp"

theorem value_programSettings (w : World) :
    (programSettings (ArgumentSource.standard w) w).value = w.configured := by
  unfold World.configured World.commandLine? ArgumentSource.standard ArgumentSource.overrideName
  cases w.textVariable? "SYSTEMD_PROC_CMDLINE" with
  | some line => rfl
  | none =>
      unfold programSettings ArgumentSource.settings ArgumentSource.line
      simp only [ArgumentSource.kernelFile]
      cases w.readText (Path.ofText "/proc/cmdline") with
      | ok line => rfl
      | error e => rfl

theorem destination_ofValues (h : Passes arguments directories) :
    (ofValues directories).destination = destinationOf directories := by
  rcases h.count with rfl | hcount
  · rfl
  · obtain ⟨normal, early, late, rfl⟩ := List.length_eq_three.mp hcount
    rfl

/-! ## The ways to end -/

/-- **The ways in which the program ends.** -/
inductive Way where
  /-- The arguments are wrong. -/
  | misused
  /-- The arguments ask for help or for the version. -/
  | asked
  /-- There is nothing to do here. -/
  | idle
  /-- A pass is made. -/
  | passed
deriving DecidableEq, Repr

/-- When the program ends in a way. -/
def Way.Applies (arguments : List Octets) (w : World) : Way → Prop
  | misused =>
      (¬ ∃ stop, Asks positionals arguments stop) ∧ ¬ ∃ directories, Passes arguments directories
  | asked => ∃ stop, Asks positionals arguments stop
  | idle => (∃ directories, Passes arguments directories) ∧
      (w.inContainer.value = true ∨ w.configured.enabled = false)
  | passed => (∃ directories, Passes arguments directories) ∧
      w.inContainer.value = false ∧ w.configured.enabled = true

/-- **What has come of a pass** into a directory when the program ends: the world is the one that
the pass leaves, and the exit code says whether it has recorded a failure.  Its failures are the
errors of its history, and what it has added to the files are the plans of the roles that it reports
as emitted. -/
structure PassEnds (settings : Settings) (directory : Path) (w : World) (e : Ended) : Prop where
  world : e.world = ((liveSite w.beginning directory).run settings w).state
  code : e.exitCode =
    if ((liveSite w.beginning directory).run settings w).status.value.failed = [] then 0 else 1
  failed : ((liveSite w.beginning directory).run settings w).status.value.failed =
    (((liveSite w.beginning directory).history settings w).filter fun x => x.2.isError).map Prod.fst
  wrote : w.tree.WellFormed →
    (∀ role : Role,
      (directory.join (Unlocking.noTimeout role.id).path).octets.length ≤ Path.maxLength) →
    ∃ emissions : List Emission,
      ((liveSite w.beginning directory).run settings w).status.value.emitted =
        emissions.map Emission.subject ∧
      Extends w.tree (emissions.flatMap Emission.entries) (emissions.flatMap Emission.directories)
        e.world.tree

/-- A pass without failures ends the program with success. -/
theorem PassEnds.exitCode_eq_zero {settings : Settings} {directory : Path} {e : Ended}
    (h : PassEnds settings directory w e)
    (hfailed : ((liveSite w.beginning directory).run settings w).status.value.failed = []) :
    e.exitCode = 0 := by
  rw [h.code, if_pos hfailed]

/-- What has come of the program when it ends in a way. -/
def Way.Outcome (arguments : List Octets) (w : World) (e : Ended) : Way → Prop
  | misused => e = { exitCode := 2, shown := [], world := w }
  | asked => e = { exitCode := 0, shown := [], world := w }
  | idle => e.exitCode = 0 ∧ e.world = w
  | passed => ∀ directories, Passes arguments directories →
      PassEnds w.configured (destinationOf directories) w e

/-! ## What a reader of the arguments finds -/

section

variable (hreader : reader.IsDocumented)
include hreader

theorem read_eq_ok_iff : reader.read positionals arguments = .ok directories ↔
    Passes arguments directories := by
  rw [hreader.read_eq_ok_iff, gives_positionals_iff]

/-- Arguments that ask for something do not pass directories. -/
theorem not_passes_of_asks {stop : UsageStop} (h : Asks positionals arguments stop) :
    ¬ ∃ directories, Passes arguments directories := by
  rintro ⟨directories, hpasses⟩
  have hok := (read_eq_ok_iff hreader).mpr hpasses
  cases ((hreader.read_eq_asked_iff _ _ _).mpr h).1.symm.trans hok

end

theorem exists_applies (arguments : List Octets) (w : World) :
    ∃ way : Way, way.Applies arguments w := by
  by_cases hpasses : ∃ directories, Passes arguments directories
  · cases hcontained : w.inContainer.value with
    | true => exact ⟨.idle, hpasses, Or.inl hcontained⟩
    | false =>
        cases henabled : w.configured.enabled with
        | false => exact ⟨.idle, hpasses, Or.inr henabled⟩
        | true => exact ⟨.passed, hpasses, hcontained, henabled⟩
  · by_cases hasks : ∃ stop, Asks positionals arguments stop
    · exact ⟨.asked, hasks⟩
    · exact ⟨.misused, hasks, hpasses⟩

theorem Way.Applies.unique (hreader : reader.IsDocumented) {way way' : Way}
    (h : way.Applies arguments w) (h' : way'.Applies arguments w) : way = way' := by
  have hexclusive : (∃ stop, Asks positionals arguments stop) →
      ¬ ∃ directories, Passes arguments directories :=
    fun ⟨_, hasks⟩ => not_passes_of_asks hreader hasks
  cases way <;> cases way' <;> simp only [Way.Applies] at h h' <;> grind

/-! ## What comes of it -/

theorem runProgram_of_error {stop : UsageStop}
    (h : reader.read positionals arguments = .error stop) :
    runProgram reader arguments w = { exitCode := reader.exitCode stop, world := w } := by
  unfold runProgram
  rw [h]

section

variable (hreader : reader.IsDocumented)
include hreader

theorem runProgram_of_misused (h : Way.misused.Applies arguments w) :
    runProgram reader arguments w = { exitCode := 2, world := w } := by
  obtain ⟨hasks, hpasses⟩ := h
  cases hread : reader.read positionals arguments with
  | ok directories => exact absurd ⟨directories, (read_eq_ok_iff hreader).mp hread⟩ hpasses
  | error stop =>
      rw [runProgram_of_error hread]
      by_cases hwrong : IsWrong stop
      · rw [hreader.exitCode_of_wrong stop hwrong]
      · exact absurd ⟨stop, (hreader.read_eq_asked_iff _ _ _).mp ⟨hread, hwrong⟩⟩ hasks

theorem runProgram_of_asked (h : Way.asked.Applies arguments w) :
    runProgram reader arguments w = { exitCode := 0, world := w } := by
  obtain ⟨stop, hasks⟩ := h
  obtain ⟨hread, hasked⟩ := (hreader.read_eq_asked_iff _ _ _).mpr hasks
  rw [runProgram_of_error hread, hreader.exitCode_of_asked stop hasked]

variable (hpasses : Passes arguments directories)
include hpasses

theorem runProgram_contained (hcontained : w.inContainer.value = true) :
    (runProgram reader arguments w).exitCode = 0 ∧ (runProgram reader arguments w).world = w := by
  unfold runProgram
  rw [(read_eq_ok_iff hreader).mpr hpasses]
  simp only [if_pos hcontained, and_self]

theorem runProgram_outside (hcontained : w.inContainer.value = false) :
    (runProgram reader arguments w).exitCode =
        (runOutside (destinationOf directories) w).exitCode ∧
      (runProgram reader arguments w).world =
        (runOutside (destinationOf directories) w).world := by
  have houtside : ¬ w.inContainer.value = true := by simp [hcontained]
  unfold runProgram
  rw [(read_eq_ok_iff hreader).mpr hpasses]
  simp only [if_neg houtside, destination_ofValues hpasses, and_self]

end

theorem runOutside_disabled (directory : Path) (h : w.configured.enabled = false) :
    (runOutside directory w).exitCode = 0 ∧ (runOutside directory w).world = w := by
  unfold runOutside runConfigured
  simp only [value_programSettings, h, Bool.not_false, if_true, and_self]

/-- A pass over the running machine ends as its status says. -/
theorem runOutside_enabled (directory : Path) (h : w.configured.enabled = true) :
    PassEnds w.configured directory w (runOutside directory w) := by
  have hrun : runOutside directory w = { (runOutside directory w) with
      exitCode := (livePass w.configured directory w).status.value.exitCode
      world := (livePass w.configured directory w).state } := by
    unfold runOutside runConfigured
    simp only [value_programSettings, h, Bool.not_true, Bool.false_eq_true, if_false]
  rw [hrun]
  refine ⟨rfl, ?_, failed_eq_history _ _, fun hwf hroom => ?_⟩
  · simp only [Status.exitCode, Status.isSuccess, decide_eq_true_eq]
    rfl
  · obtain ⟨emissions, hemitted, -, hextends⟩ :=
      livePass_extends w.beginning w.configured hwf hroom
    exact ⟨emissions, hemitted, hextends⟩

/-- What has come of the program is what the way that applies says. -/
theorem outcome_of_applies (hreader : reader.IsDocumented) {way : Way}
    (h : way.Applies arguments w) : way.Outcome arguments w (runProgram reader arguments w) := by
  cases way with
  | misused => exact runProgram_of_misused hreader h
  | asked => exact runProgram_of_asked hreader h
  | idle =>
      obtain ⟨⟨directories, hpasses⟩, hidle⟩ := h
      cases hcontained : w.inContainer.value with
      | true => exact runProgram_contained hreader hpasses hcontained
      | false =>
          have hdisabled := hidle.resolve_left (by simp [hcontained])
          obtain ⟨hcode, hworld⟩ := runProgram_outside hreader hpasses hcontained
          obtain ⟨hcode', hworld'⟩ :=
            runOutside_disabled (w := w) (destinationOf directories) hdisabled
          exact ⟨hcode.trans hcode', hworld.trans hworld'⟩
  | passed =>
      obtain ⟨-, hcontained, henabled⟩ := h
      intro directories hpasses
      obtain ⟨hcode, hworld⟩ := runProgram_outside hreader hpasses hcontained
      have hends := runOutside_enabled (destinationOf directories) henabled
      refine ⟨hworld.trans hends.world, hcode.trans hends.code, hends.failed, ?_⟩
      rw [hworld]
      exact hends.wrote

theorem exitCode_ne_two {e : Ended} {way : Way} (h : way.Outcome arguments w e)
    (happlies : way.Applies arguments w) (hway : way ≠ .misused) : e.exitCode ≠ 2 := by
  cases way with
  | misused => exact absurd rfl hway
  | asked =>
      have hcode : e.exitCode = 0 := by rw [h]
      rw [hcode]
      decide
  | idle =>
      rw [h.1]
      decide
  | passed =>
      obtain ⟨⟨directories, hpasses⟩, -⟩ := happlies
      rw [(h directories hpasses).code]
      split <;> decide

/-- **The program ends in exactly one way**, for all arguments in all worlds, and what has come of
it then is what the way says.  The exit code is that of wrong arguments just if they are wrong. -/
theorem program_ends_one_way (hreader : reader.IsDocumented) (arguments : List Octets) (w : World) :
    (∃! way : Way, way.Applies arguments w) ∧
      (∀ way : Way, way.Applies arguments w →
        way.Outcome arguments w (runProgram reader arguments w)) ∧
      ((runProgram reader arguments w).exitCode = 2 ↔ Way.misused.Applies arguments w) := by
  obtain ⟨way, happlies⟩ := exists_applies arguments w
  refine ⟨⟨way, happlies, fun way' h => h.unique hreader happlies⟩,
    fun _ => outcome_of_applies hreader, ?_, ?_⟩
  · intro hcode
    by_cases hway : way = .misused
    · rwa [hway] at happlies
    · exact absurd hcode (exitCode_ne_two (outcome_of_applies hreader happlies) happlies hway)
  · intro hmisused
    rw [runProgram_of_misused hreader hmisused]

/-- Arguments with which a service manager starts the program. -/
def threeDirectories : List Octets := [word "/normal", word "/early", word "/dest"]

set_option maxRecDepth 20000 in
/-- A pass over a machine with a partition for `/home` fails for nobody and leaves a unit for it. -/
theorem pass_withHomeDisk :
    ((liveSite World.withHomeDisk.beginning (Path.ofText "/dest")).run
      World.withHomeDisk.configured World.withHomeDisk).status.value.failed = [] ∧
    (((liveSite World.withHomeDisk.beginning (Path.ofText "/dest")).run
      World.withHomeDisk.configured World.withHomeDisk).state.tree.find false
        (Path.ofText "/dest/home.mount")).toBool = true := by
  decide +kernel

/-- **On such a machine** a pass is made into the last directory, and the program ends with
success. -/
theorem withHomeDisk_passed :
    conventional.IsDocumented ∧ Way.passed.Applies threeDirectories World.withHomeDisk ∧
      (runProgram conventional threeDirectories World.withHomeDisk).exitCode = 0 ∧
      ((runProgram conventional threeDirectories World.withHomeDisk).world.tree.find false
        (Path.ofText "/dest/home.mount")).toBool = true := by
  have hpasses : Passes threeDirectories threeDirectories :=
    ⟨.plain (by unfold IsPlain; decide), Or.inr rfl, by decide⟩
  have happlies : Way.passed.Applies threeDirectories World.withHomeDisk :=
    ⟨⟨_, hpasses⟩, by decide +kernel, by decide +kernel⟩
  obtain ⟨-, houtcome, -⟩ :=
    program_ends_one_way conventional_isDocumented threeDirectories World.withHomeDisk
  have hends : PassEnds World.withHomeDisk.configured (Path.ofText "/dest") World.withHomeDisk
      (runProgram conventional threeDirectories World.withHomeDisk) :=
    houtcome .passed happlies _ hpasses
  refine ⟨conventional_isDocumented, happlies, hends.exitCode_eq_zero pass_withHomeDisk.1, ?_⟩
  rw [hends.world]
  exact pass_withHomeDisk.2

/-- The first thing that is wrong or asked for counts. -/
example (w : World) :
    (runProgram conventional [word "/a", word "--help", word ""] w).exitCode = 0 ∧
      (runProgram conventional [word "/a", word "", word "--help"] w).exitCode = 2 := ⟨rfl, rfl⟩

end PartitionUnits
