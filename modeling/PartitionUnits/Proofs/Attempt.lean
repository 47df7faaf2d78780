import Mathlib.Data.List.Forall2
import PartitionUnits.Failure

/-!
# Attempts that succeed

An attempt succeeds if each of its steps does, and fails as one of them does.

## Main Definitions

* `Traced` is a lawful monad
* `Attempt.bind_eq_ok` — the steps of an attempt that succeeds
* `Attempt.mapM_eq_ok` — the same for a list of attempts
* `Attempt.Ensures`, `Attempt.FailsWith` — what an attempt succeeds with, and what it fails with
* `Matches` — two results that are related, or two failures that a pass treats alike
-/

namespace PartitionUnits

instance : LawfulMonad Traced :=
  LawfulMonad.mk' Traced
    (by
      intro α x
      show Traced.mk x.value (x.events ++ []) = x
      rw [List.append_nil])
    (by
      intro α β x f
      show Traced.mk (f x).value ([] ++ (f x).events) = f x
      rw [List.nil_append])
    (by
      intro α β γ x f g
      exact congrArg (Traced.mk _) (List.append_assoc _ _ _))

namespace Attempt

variable {α β : Type}

/-- **An attempt of two steps succeeds if both do.** -/
theorem bind_eq_ok {x : Attempt α} {f : α → Attempt β} {b : β} :
    (x >>= f).run.value = .ok b ↔ ∃ a, x.run.value = .ok a ∧ (f a).run.value = .ok b := by
  rw [ExceptT.run_bind, Traced.value_bind]
  cases hx : x.run.value with
  | error e => simp
  | ok a => simp

theorem value_bind_of_ok {x : Attempt α} {f : α → Attempt β} {a : α} (h : x.run.value = .ok a) :
    (x >>= f).run.value = (f a).run.value := by
  rw [ExceptT.run_bind, Traced.value_bind, h]

theorem value_bind_of_error {x : Attempt α} {f : α → Attempt β} {failure : Failure}
    (h : x.run.value = .error failure) : (x >>= f).run.value = .error failure := by
  rw [ExceptT.run_bind, Traced.value_bind, h]
  rfl

theorem pure_eq_ok {a b : α} : (pure a : Attempt α).run.value = .ok b ↔ a = b := by
  rw [ExceptT.run_pure, Traced.value_pure, Except.ok.injEq]

theorem ofExcept_eq_ok {r : Except Failure α} {a : α} :
    (Attempt.ofExcept r).run.value = .ok a ↔ r = .ok a := Iff.rfl

/-- What an attempt succeeds with does not depend on the activity that it is seen from. -/
theorem during_eq_ok {activity : String} {x : Attempt α} {a : α} :
    (x.during activity).run.value = .ok a ↔ x.run.value = .ok a := by
  show x.run.value.mapError _ = .ok a ↔ _
  cases x.run.value <;> simp [Except.mapError]

/-- An attempt fails whatever the activity that it is seen from. -/
theorem during_error {activity : String} {x : Attempt α} {failure : Failure}
    (h : x.run.value = .error failure) :
    (x.during activity).run.value = .error (failure.during activity) := by
  show x.run.value.mapError _ = _
  rw [h]
  rfl

theorem liftM_eq_ok {x : Traced α} {a : α} :
    (liftM x : Attempt α).run.value = .ok a ↔ x.value = a := by
  show (Except.ok x.value : Except Failure α) = .ok a ↔ _
  rw [Except.ok.injEq]

/-- A list of attempts succeeds if each of them does. -/
theorem mapM_eq_ok {f : α → Attempt β} {xs : List α} {ys : List β} :
    (xs.mapM f).run.value = .ok ys ↔
      List.Forall₂ (fun x y => (f x).run.value = .ok y) xs ys := by
  induction xs generalizing ys with
  | nil =>
      rw [List.mapM_nil, pure_eq_ok, List.forall₂_nil_left_iff]
      exact eq_comm
  | cons x xs ih =>
      rw [List.mapM_cons, bind_eq_ok, List.forall₂_cons_left_iff]
      constructor
      · rintro ⟨y, hy, hrest⟩
        obtain ⟨ys', hys', hpure⟩ := bind_eq_ok.mp hrest
        exact ⟨y, ys', hy, ih.mp hys', (pure_eq_ok.mp hpure).symm⟩
      · rintro ⟨y, ys', hy, hys', rfl⟩
        exact ⟨y, hy, bind_eq_ok.mpr ⟨ys', ih.mpr hys', pure_eq_ok.mpr rfl⟩⟩

/-! ## What an attempt ensures -/

/-- Whatever an attempt succeeds with has a property. -/
def Ensures (x : Attempt α) (P : α → Prop) : Prop := ∀ a, x.run.value = .ok a → P a

namespace Ensures

variable {P : α → Prop}

theorem pure {a : α} (h : P a) : Ensures (Pure.pure a : Attempt α) P := by
  intro b hb
  rw [pure_eq_ok] at hb
  rwa [← hb]

theorem throw (f : Failure) : Ensures (throw f : Attempt α) P := by
  intro a ha
  cases ha

/-- **What every second step ensures, both steps ensure.** -/
theorem bind {x : Attempt β} {f : β → Attempt α} (hf : ∀ b, Ensures (f b) P) :
    Ensures (x >>= f) P := by
  intro a ha
  obtain ⟨b, -, hb⟩ := bind_eq_ok.mp ha
  exact hf b a hb

/-- A second step may use what the first one ensures. -/
theorem bind_of {Q : β → Prop} {x : Attempt β} {f : β → Attempt α} (hx : Ensures x Q)
    (hf : ∀ b, Q b → Ensures (f b) P) : Ensures (x >>= f) P := by
  intro a ha
  obtain ⟨b, hb, hrest⟩ := bind_eq_ok.mp ha
  exact hf b (hx b hb) a hrest

end Ensures

/-! ## What an attempt can fail with -/

/-- Whatever an attempt fails with has a property. -/
def FailsWith (x : Attempt α) (P : Failure → Prop) : Prop :=
  ∀ failure, x.run.value = .error failure → P failure

namespace FailsWith

variable {P : Failure → Prop}

theorem pure (a : α) : FailsWith (Pure.pure a : Attempt α) P := by
  intro failure h
  cases h

theorem throw {failure : Failure} (h : P failure) :
    FailsWith (throw failure : Attempt α) P := by
  intro failure' heq
  cases heq
  exact h

theorem bind {x : Attempt β} {f : β → Attempt α} (hx : FailsWith x P)
    (hf : ∀ b, FailsWith (f b) P) : FailsWith (x >>= f) P := by
  intro failure h
  cases hvalue : x.run.value with
  | error e =>
      rw [value_bind_of_error hvalue] at h
      cases h
      exact hx failure hvalue
  | ok b =>
      rw [value_bind_of_ok hvalue] at h
      exact hf b failure h

theorem mapM {f : α → Attempt β} {xs : List α} (hf : ∀ x ∈ xs, FailsWith (f x) P) :
    FailsWith (xs.mapM f) P := by
  induction xs with
  | nil =>
      rw [List.mapM_nil]
      exact .pure _
  | cons x xs ih =>
      rw [List.mapM_cons]
      refine .bind (hf x List.mem_cons_self) fun y => ?_
      exact .bind (ih fun x' hx' => hf x' (List.mem_cons_of_mem _ hx')) fun ys => .pure _

end FailsWith

end Attempt

/-! ## Results that match -/

section

variable {α β γ δ : Type} {R : α → β → Prop} {S : γ → δ → Prop}

/-- **Two results match**: values that are related, or failures of any kind. -/
inductive Matches (R : α → β → Prop) : Except Failure α → Except Failure β → Prop where
  | ok {a : α} {b : β} (h : R a b) : Matches R (.ok a) (.ok b)
  | error (f f' : Failure) : Matches R (.error f) (.error f')

namespace Matches

theorem refl (r : Except Failure α) : Matches Eq r r := by
  cases r with
  | ok a => exact .ok rfl
  | error f => exact .error f f

/-- **Two steps that match, followed by steps that match.** -/
theorem bind {x : Attempt α} {y : Attempt β} {f : α → Attempt γ} {g : β → Attempt δ}
    (hx : Matches R x.run.value y.run.value)
    (hf : ∀ a b, R a b → Matches S (f a).run.value (g b).run.value) :
    Matches S (x >>= f).run.value (y >>= g).run.value := by
  rw [ExceptT.run_bind, ExceptT.run_bind, Traced.value_bind, Traced.value_bind]
  generalize x.run.value = r at hx
  generalize y.run.value = r' at hx
  cases hx with
  | ok h => exact hf _ _ h
  | error f f' => exact .error _ _

theorem during {activity : String} {x : Attempt α} {y : Attempt β}
    (h : Matches R x.run.value y.run.value) :
    Matches R (x.during activity).run.value (y.during activity).run.value := by
  show Matches R (x.run.value.mapError _) (y.run.value.mapError _)
  generalize x.run.value = r at h
  generalize y.run.value = r' at h
  cases h with
  | ok h => exact .ok h
  | error f f' => exact .error _ _

end Matches

end

end PartitionUnits
