import PartitionUnits.Proofs.LastTold
import PartitionUnits.Settings

/-!
# Which argument counts

Each field of the settings goes by the last argument of the kernel command line that tells something
about it, and by no other.

## Main Definitions

* `Settings.TellsEnabled`, `Settings.TellsRootEnabled`, `Settings.TellsRootWritable`,
  `Settings.TellsVerbose` — the arguments that tell something about a field, and what
* `Settings.governs_enabled` and others — an argument has an effect on a field just if it tells
  something about it
* `Settings.GoesByLast` — a field goes by the last argument that tells something about it
* `Settings.goes_by_last` — so does each of the four fields

## Design Notes

An argument is known by its key and by whether it has a value, hence a bare `root` and an `rw` with
a value are silent, like any argument that is not known at all.  So is a main switch with a value
that is no switch: it does not undo what an earlier one has told.
-/

namespace PartitionUnits.Settings

/-! ## What arguments tell -/

/-- **Whether to do anything** is told by both main switches, if the value is a switch. -/
inductive TellsEnabled : KernelArgument → Bool → Prop where
  | switch {key value : String} {b : Bool}
      (hkey : key = "systemd.gpt_auto" ∨ key = "rd.systemd.gpt_auto")
      (hvalue : parseSwitch? value = some b) : TellsEnabled ⟨key, some value⟩ b

/-- **Whether to mount the root partition** is told by a root, whatever its value is. -/
inductive TellsRootEnabled : KernelArgument → Bool → Prop where
  | root (value : String) : TellsRootEnabled ⟨"root", some value⟩ (value = "gpt-auto")

/-- **Whether to mount it writable** is told by two bare keys. -/
inductive TellsRootWritable : KernelArgument → Bool → Prop where
  | rw : TellsRootWritable ⟨"rw", none⟩ true
  | ro : TellsRootWritable ⟨"ro", none⟩ false

/-- **Whether to log at debug level** is told by a bare key, and by a log level. -/
inductive TellsVerbose : KernelArgument → Bool → Prop where
  | debug : TellsVerbose ⟨"debug", none⟩ true
  | level (value : String) : TellsVerbose ⟨"systemd.log_level", some value⟩ (value = "debug")

/-! ## One argument -/

theorem isMainSwitch_iff {key : String} :
    isMainSwitch key = true ↔ key = "systemd.gpt_auto" ∨ key = "rd.systemd.gpt_auto" := by
  simp [isMainSwitch]

theorem governs_enabled : Governs TellsEnabled apply enabled where
  told := by
    rintro s _ b ⟨hkey, hvalue⟩
    simp only [apply, isMainSwitch_iff.mpr hkey, if_true, hvalue, Option.getD_some]
  silent := by
    rintro s ⟨key, value⟩ h
    cases value with
    | none =>
        simp only [apply]
        split_ifs <;> rfl
    | some value =>
        by_cases hkey : isMainSwitch key = true
        · have hvalue : parseSwitch? value = none :=
            Option.eq_none_iff_forall_ne_some.mpr fun b hb =>
              h b (.switch (isMainSwitch_iff.mp hkey) hb)
          simp only [apply, hkey, if_true, hvalue, Option.getD_none]
        · simp only [apply, if_neg hkey]
          split_ifs <;> rfl

theorem governs_rootEnabled : Governs TellsRootEnabled apply rootEnabled where
  told := by
    rintro s _ _ ⟨value⟩
    rfl
  silent := by
    rintro s ⟨key, value⟩ h
    cases value with
    | none =>
        simp only [apply]
        split_ifs <;> rfl
    | some value =>
        have hkey : key ≠ "root" := by
          rintro rfl
          exact h _ (.root value)
        simp only [apply, if_neg hkey]
        split_ifs <;> rfl

theorem governs_rootWritable : Governs TellsRootWritable apply rootWritable where
  told := by
    rintro s _ _ (_ | _) <;> rfl
  silent := by
    rintro s ⟨key, value⟩ h
    cases value with
    | none =>
        have hrw : key ≠ "rw" := by
          rintro rfl
          exact h _ .rw
        have hro : key ≠ "ro" := by
          rintro rfl
          exact h _ .ro
        simp only [apply, if_neg hrw, if_neg hro]
        split_ifs <;> rfl
    | some value =>
        simp only [apply]
        split_ifs <;> rfl

theorem governs_verbose : Governs TellsVerbose apply verbose where
  told := by
    rintro s _ _ (_ | value) <;> rfl
  silent := by
    rintro s ⟨key, value⟩ h
    cases value with
    | none =>
        have hkey : key ≠ "debug" := by
          rintro rfl
          exact h _ .debug
        simp only [apply, if_neg hkey]
        split_ifs <;> rfl
    | some value =>
        have hkey : key ≠ "systemd.log_level" := by
          rintro rfl
          exact h _ (.level value)
        simp only [apply, if_neg hkey]
        split_ifs <;> rfl

/-! ## A whole command line -/

open KernelArgument (split)

/-- **A field goes by the last argument that tells something about it**, or by a default if all are
silent; and a silent argument can be left out of the line, wherever it stands. -/
structure GoesByLast (tells : KernelArgument → Bool → Prop) (field : Settings → Bool)
    (default : Bool) : Prop where
  decided : ∀ line b,
    field (ofCommandLine line).value = b ↔ DecidedBy tells (split line) default b
  undisturbed : ∀ line line' before a after, split line = before ++ a :: after →
    split line' = before ++ after → (∀ b, ¬ tells a b) →
      field (ofCommandLine line).value = field (ofCommandLine line').value

theorem goesByLast_of_governs {tells : KernelArgument → Bool → Prop} {field : Settings → Bool}
    (h : Governs tells apply field) : GoesByLast tells field (field {}) where
  decided line b := h.foldl_eq_iff (split line) {} b
  undisturbed := by
    rintro line line' before a after hline hline' hsilent
    simp only [ofCommandLine, hline, hline']
    exact h.foldl_silent hsilent before after {}

/-- **Each field goes by the last argument that tells something about it**: by default the program
and the root mount are switched on, and the root is mounted read-only without debugging. -/
theorem goes_by_last :
    GoesByLast TellsEnabled enabled true ∧ GoesByLast TellsRootEnabled rootEnabled true ∧
      GoesByLast TellsRootWritable rootWritable false ∧ GoesByLast TellsVerbose verbose false :=
  ⟨goesByLast_of_governs governs_enabled, goesByLast_of_governs governs_rootEnabled,
    goesByLast_of_governs governs_rootWritable, goesByLast_of_governs governs_verbose⟩

/-- A bare root and an `rw` with a value come last and change nothing. -/
example : (ofCommandLine "root=x ro root rw=1").value = ⟨true, false, false, false⟩ := by
  decide

end PartitionUnits.Settings
