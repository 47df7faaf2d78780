import PartitionUnits.FileSystem.Script
import PartitionUnits.Proofs.FileSystem.Change

/-!
# Scripts and the trees on the way

How the trees that a script passes through follow from those of its parts.

## Main Definitions

* `mem_states_bind` — the trees of one script after another
* `forall_mem_states` — what every step keeps, every tree on the way has
-/

namespace PartitionUnits

namespace Script

variable {α β : Type} {t u : Tree}

@[simp] theorem run_pure (a : α) : (pure a : Script α).run t = (a, t) := rfl

@[simp] theorem run_perform (c : Change) : (perform c).run t = t.apply c := rfl

@[simp] theorem states_pure (a : α) : (pure a : Script α).states t = [t] := rfl

@[simp] theorem states_perform (c : Change) : (perform c).states t = [t, (t.apply c).2] := rfl

/-- A script passes through the tree that it begins with. -/
theorem mem_states_self (s : Script α) : t ∈ s.states t := by
  cases s <;> simp [states]

/-- A script passes through the tree that it ends with. -/
theorem run_mem_states (s : Script α) : (s.run t).2 ∈ s.states t := by
  induction s generalizing t with
  | done a => simp [states]
  | step c next ih => exact List.mem_cons_of_mem _ (ih _)

/-- **The trees of one script after another** are those of the first and then those of the other,
begun where the first one ends. -/
theorem mem_states_bind (s : Script α) (f : α → Script β) :
    u ∈ (s >>= f).states t ↔
      u ∈ s.states t ∨ u ∈ (f (s.run t).1).states (s.run t).2 := by
  induction s generalizing t with
  | done a =>
      constructor
      · exact Or.inr
      · rintro (hself | hrest)
        · rw [List.mem_singleton.mp hself]
          exact mem_states_self _
        · exact hrest
  | step c next ih =>
      show u ∈ t :: ((next (t.apply c).1) >>= f).states (t.apply c).2 ↔ _
      rw [List.mem_cons, ih]
      show _ ↔ u ∈ t :: (next (t.apply c).1).states (t.apply c).2 ∨ _
      rw [List.mem_cons, or_assoc]
      rfl

/-- The trees of a step and what comes after it. -/
theorem mem_states_perform_bind {c : Change} {f : Except FileError Path → Script α} :
    u ∈ (perform c >>= f).states t ↔ u = t ∨ u ∈ (f (t.apply c).1).states (t.apply c).2 := by
  rw [mem_states_bind, states_perform, run_perform, List.mem_cons, List.mem_singleton]
  constructor
  · rintro ((hu | rfl) | hu)
    · exact Or.inl hu
    · exact Or.inr (mem_states_self _)
    · exact Or.inr hu
  · rintro (hu | hu)
    · exact Or.inl (Or.inl hu)
    · exact Or.inr hu

theorem run_perform_bind {c : Change} {f : Except FileError Path → Script α} :
    (perform c >>= f).run t = (f (t.apply c).1).run (t.apply c).2 := by
  rw [run_bind, run_perform]

/-- What is only computed from the value of a script takes no steps. -/
theorem states_bind_pure {s : Script α} {f : α → Script β} (hf : ∀ a, ∃ b, f a = pure b) :
    u ∈ (s >>= f).states t ↔ u ∈ s.states t := by
  obtain ⟨b, hb⟩ := hf (s.run t).1
  rw [mem_states_bind, hb, states_pure, List.mem_singleton]
  constructor
  · rintro (hu | rfl)
    · exact hu
    · exact run_mem_states s
  · exact Or.inl

theorem run_bind_pure {s : Script α} {f : α → Script β} (hf : ∀ a, ∃ b, f a = pure b) :
    ((s >>= f).run t).2 = (s.run t).2 := by
  obtain ⟨b, hb⟩ := hf (s.run t).1
  rw [run_bind, hb, run_pure]

/-- **What every step keeps, every tree on the way has.** -/
theorem forall_mem_states {I : Tree → Prop} (hstep : ∀ t c, I t → I (t.apply c).2)
    (s : Script α) (ht : I t) : ∀ u ∈ s.states t, I u := by
  induction s generalizing t with
  | done a =>
      intro u hu
      rw [List.mem_singleton.mp hu]
      exact ht
  | step c next ih =>
      intro u hu
      rcases List.mem_cons.mp hu with rfl | hrest
      · exact ht
      · exact ih _ (hstep t c ht) u hrest

/-- Every tree on the way of a script that begins with a well-formed tree is well-formed. -/
theorem wellFormed_of_mem_states {s : Script α} (h : t.WellFormed) (hu : u ∈ s.states t) :
    u.WellFormed :=
  s.forall_mem_states (fun t c ht => ht.of_effect (t.apply_effect c)) h u hu

end Script

end PartitionUnits
