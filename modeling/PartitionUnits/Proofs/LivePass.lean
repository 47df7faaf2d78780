import PartitionUnits.Proofs.RolesApart

/-!
# Passes over the running machine

What is shown of passes over any site that applies its plans to files, said of the machine that the
program runs on.

## Main Definitions

* `livePass_extends` — the files of the machine after a pass
* `livePass_never_collides` — what its plans fail for, and what they do not

## Design Notes

The machine looks at its files anew for every question, and its plans change them.  What the site of
such a pass has to promise for the general results is no more than that its plans go to those files
(`liveSite_applies`) and always to the same directory.
-/

namespace PartitionUnits

open PartitionUnits.Tree Site

variable {b : Beginning} {directory : Path} {w : World} {l : Location}

/-- No path of a pass into a directory is too long if those of the settings for unlocked volumes are
not. -/
theorem hasRoom_destinationAt (b : Beginning) (hroom : ∀ role : Role,
    (directory.join (Unlocking.noTimeout role.id).path).octets.length ≤ Path.maxLength) :
    HasRoom (b.destinationAt directory) := fun _ => hroom

/-- **A pass over the running machine** adds to its files what the plans of the roles that it
reports as emitted stand for, and nothing else. -/
theorem livePass_extends (b : Beginning) (settings : Settings) (hwf : w.tree.WellFormed)
    (hroom : ∀ role : Role,
      (directory.join (Unlocking.noTimeout role.id).path).octets.length ≤ Path.maxLength) :
    let finished := (liveSite b directory).run settings w
    ∃ emissions : List Emission, finished.status.value.emitted = emissions.map Emission.subject ∧
      Emits (liveSite b directory) World.tree (b.destinationAt directory) settings
        ((liveSite b directory).elected settings w) w.tree emissions finished.state.tree ∧
      Extends w.tree (emissions.flatMap Emission.entries) (emissions.flatMap Emission.directories)
        finished.state.tree := by
  intro finished
  obtain ⟨emissions, hwrote⟩ := run_wrote settings (liveSite_applies b directory) hwf
    (hasRoom_destinationAt b hroom)
  exact ⟨emissions, hwrote.emitted, hwrote.emits, hwrote.emits.extends⟩

/-- **The roles of the running machine never collide**: its plans keep apart, and if its directory
is empty at first, none of them fails because something exists already. -/
theorem livePass_never_collides (b : Beginning) (directory : Path) (settings : Settings)
    (w : World) :
    KeepApart ((liveSite b directory).emissions (b.destinationAt directory) settings w) ∧
      (w.tree.WellFormed → w.tree.LeadsTo directory l → w.tree.names l = [] →
        ∀ turn ∈ (liveSite b directory).turns settings w, ∀ plan, turn.plan? = some plan →
          ∀ failure, (liveSite b directory).result turn = .error failure →
            failure.BlamesOther) := by
  have hdirectory : ∀ w, (b.destinationAt directory w).directory = directory := fun _ => rfl
  refine ⟨keepApart_emissions hdirectory settings w, ?_⟩
  intro hwf hleads hempty turn hturn plan hplan
  exact (result_of_mem_turns (liveSite_applies b directory) hdirectory hwf hleads hempty hturn
    hplan).2

end PartitionUnits
