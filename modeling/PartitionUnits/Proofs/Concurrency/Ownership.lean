import Mathlib.Logic.Function.Basic
import PartitionUnits.Proofs.Concurrency.Interleaving

/-!
# What each script holds

Scripts that share a tree and change nothing in it but what they have made themselves.

## Main Definitions

* `Scene`, `Scene.Admits` — what scripts can count on, whatever others do
* `Holdings`, `Scene.Holds` — what a script has made and not removed again
* `Scene.Shifts` — a change of the tree that is a change of one script's holdings
* `Scene.Keeps` — a script whose steps are such changes, and what it holds in the end
* `Scene.Sound` — every entry that is new is held by just one script
* `Scene.Sound.run` — this is so after every schedule

## Design Notes

A script is looked at alone.  Before each of its steps, the tree may be any that the scene admits
and that has what the script holds: this is all that it may rely on, and `Scene.Shifts` is all that
it may do in return.  That scripts which keep to this can be put together is said once, in
`Scene.Sound.turn`; nothing else here speaks of more than one script.
-/

namespace PartitionUnits

open PartitionUnits.Tree Function

variable {α β : Type}

/-- **Where scripts run**: what is there already, which stays, and what they may put beside it. -/
structure Scene where
  tree : Tree
  allows : Location → Entry → Prop

/-- What a script has made and not removed again. -/
abbrev Holdings := Location → Option Entry

namespace Scene

variable {S : Scene} {u v w : Tree} {h h' h'' k : Holdings} {l : Location} {e : Entry}

/-- **The trees that a script may find**: all of the scene, and only what it allows beside it. -/
structure Admits (S : Scene) (u : Tree) : Prop where
  wellFormed : u.WellFormed
  le : S.tree ≤ u
  allowed : ∀ l e, u.entry? l = some e → S.tree.entry? l = some e ∨ S.allows l e

/-- **What a script holds is there**, is new and is allowed. -/
structure Holds (S : Scene) (h : Holdings) (u : Tree) : Prop where
  there : ∀ l e, h l = some e → u.entry? l = some e
  new : ∀ l e, h l = some e → S.tree.entry? l = none
  allowed : ∀ l e, h l = some e → S.allows l e

/-- Nothing is held where nothing is. -/
theorem Holds.eq_none (hh : S.Holds h u) (hvacant : u.entry? l = none) : h l = none := by
  cases hl : h l with
  | none => rfl
  | some e =>
      rw [hh.there l e hl] at hvacant
      cases hvacant

/-- **A change of the tree that is a change of holdings**: each location is as it was, or was and is
what the script holds there. -/
def Shifts (S : Scene) (u : Tree) (h : Holdings) (v : Tree) (h' : Holdings) : Prop :=
  ∀ l, v.entry? l = u.entry? l ∧ h' l = h l ∨
    h l = u.entry? l ∧ h' l = v.entry? l ∧ ∀ e, h' l = some e → S.allows l e

namespace Shifts

theorem refl (S : Scene) (u : Tree) (h : Holdings) : S.Shifts u h u h :=
  fun _ => Or.inl ⟨rfl, rfl⟩

theorem trans (h₁ : S.Shifts u h v h') (h₂ : S.Shifts v h' w h'') : S.Shifts u h w h'' := by
  intro l
  rcases h₁ l with ⟨hv, hh'⟩ | ⟨hown, hh', hallowed⟩
  · rcases h₂ l with ⟨hw, hh''⟩ | ⟨hown', hh'', hallowed'⟩
    · exact Or.inl ⟨hw.trans hv, hh''.trans hh'⟩
    · exact Or.inr ⟨hh'.symm.trans (hown'.trans hv), hh'', hallowed'⟩
  · rcases h₂ l with ⟨hw, hh''⟩ | ⟨-, hh'', hallowed'⟩
    · exact Or.inr ⟨hown, hh''.trans (hh'.trans hw.symm), hh'' ▸ hallowed⟩
    · exact Or.inr ⟨hown, hh'', hallowed'⟩

/-- Adding an entry where nothing is, or in place of what is held. -/
theorem insert (hl : l ≠ []) (hown : h l = u.entry? l) (hallowed : S.allows l e) :
    S.Shifts u h (u.insert l e) (update h l (some e)) := by
  intro l'
  by_cases heq : l' = l
  · subst heq
    rw [entry?_insert_self hl, update_self]
    refine Or.inr ⟨hown, rfl, fun e' he' => ?_⟩
    cases he'
    exact hallowed
  · rw [entry?_insert_of_ne heq, update_of_ne heq]
    exact Or.inl ⟨rfl, rfl⟩

/-- Removing what is held. -/
theorem erase (hl : l ≠ []) (hown : h l = u.entry? l) :
    S.Shifts u h (u.erase l) (update h l none) := by
  intro l'
  by_cases heq : l' = l
  · subst heq
    rw [entry?_erase_self hl, update_self]
    exact Or.inr ⟨hown, rfl, fun _ he' => by cases he'⟩
  · rw [entry?_erase_of_ne heq, update_of_ne heq]
    exact Or.inl ⟨rfl, rfl⟩

/-- What was there before all scripts stays. -/
theorem le (hshift : S.Shifts u h v h') (hh : S.Holds h u) (hle : S.tree ≤ u) : S.tree ≤ v := by
  intro l e hentry
  rcases hshift l with ⟨hv, -⟩ | ⟨hown, -⟩
  · rw [hv]
    exact hle l e hentry
  · have hnew := hh.new l e (hown.trans (hle l e hentry))
    rw [hnew] at hentry
    cases hentry

theorem holds (hshift : S.Shifts u h v h') (hh : S.Holds h u) (hle : S.tree ≤ u) :
    S.Holds h' v where
  there := by
    intro l e hl
    rcases hshift l with ⟨hv, hh'⟩ | ⟨-, hh', -⟩
    · rw [hv]
      exact hh.there l e (hh' ▸ hl)
    · exact hh' ▸ hl
  new := by
    intro l e hl
    rcases hshift l with ⟨-, hh'⟩ | ⟨hown, -, -⟩
    · exact hh.new l e (hh' ▸ hl)
    · cases hentry : u.entry? l with
      | none => exact entry?_eq_none_of_le hle hentry
      | some e' => exact hh.new l e' (hown.trans hentry)
  allowed := by
    intro l e hl
    rcases hshift l with ⟨-, hh'⟩ | ⟨-, -, hallowed⟩
    · exact hh.allowed l e (hh' ▸ hl)
    · exact hallowed e hl

/-- What others hold stays. -/
theorem holds_other (hshift : S.Shifts u h v h') (hk : S.Holds k u)
    (hapart : ∀ l, h l = none ∨ k l = none) : S.Holds k v where
  there := by
    intro l e hl
    rcases hshift l with ⟨hv, -⟩ | ⟨hown, -⟩
    · rw [hv]
      exact hk.there l e hl
    · rcases hapart l with hnone | hnone
      · rw [hown, hk.there l e hl] at hnone
        cases hnone
      · rw [hl] at hnone
        cases hnone
  new := hk.new
  allowed := hk.allowed

/-- Nothing is held that others hold. -/
theorem apart (hshift : S.Shifts u h v h') (hk : S.Holds k u)
    (hapart : ∀ l, h l = none ∨ k l = none) (l : Location) : h' l = none ∨ k l = none := by
  cases hl : k l with
  | none => exact Or.inr rfl
  | some e =>
      have hnone : h l = none := (hapart l).resolve_right (by simp [hl])
      rcases hshift l with ⟨-, hh'⟩ | ⟨hown, -⟩
      · exact Or.inl (hh'.trans hnone)
      · rw [hnone, hk.there l e hl] at hown
        cases hown

section

variable {own : Nat → Holdings} {i : Nat}

/-- What one of many holds is still nobody else's. -/
theorem apart_update (hshift : S.Shifts u (own i) v h') (hholds : ∀ j, S.Holds (own j) u)
    (hapart : ∀ j k, j ≠ k → ∀ l, own j l = none ∨ own k l = none) {j k : Nat} (hne : j ≠ k)
    (l : Location) : update own i h' j l = none ∨ update own i h' k l = none := by
  by_cases hj : j = i
  · subst hj
    rw [update_self, update_of_ne hne.symm]
    exact hshift.apart (hholds k) (hapart j k hne) l
  · rw [update_of_ne hj]
    by_cases hk : k = i
    · subst hk
      rw [update_self]
      exact (hshift.apart (hholds j) (hapart k j hne.symm) l).symm
    · rw [update_of_ne hk]
      exact hapart j k hne l

/-- What is there is still old or somebody's. -/
theorem covered_update (hshift : S.Shifts u (own i) v h')
    (hcovered : ∀ l e, u.entry? l = some e → S.tree.entry? l = some e ∨ ∃ j, own j l = some e)
    (hentry : v.entry? l = some e) :
    S.tree.entry? l = some e ∨ ∃ j, update own i h' j l = some e := by
  rcases hshift l with ⟨hv, hh'⟩ | ⟨-, hh', -⟩
  · -- Here nothing has changed, for whoever holds it.
    rw [hv] at hentry
    refine (hcovered l e hentry).imp_right fun ⟨j, hown⟩ => ⟨j, ?_⟩
    by_cases hj : j = i
    · subst hj
      rw [update_self, hh', hown]
    · rw [update_of_ne hj, hown]
  · refine Or.inr ⟨i, ?_⟩
    rw [update_self, hh', hentry]

end

end Shifts

/-! ## Scripts that keep to what they hold -/

/-- **A script keeps to what it holds**, whatever others do in between: each of its steps is a
change of its holdings, and in the end `Q` is true of its value and of what it holds then. -/
def Keeps (S : Scene) (Q : α → Holdings → Prop) : Script α → Holdings → Prop
  | .done a, h => Q a h
  | .step c next, h => ∀ u, S.Admits u → S.Holds h u →
      ∃ h', S.Shifts u h (u.apply c).2 h' ∧ Keeps S Q (next (u.apply c).1) h'

variable {Q : α → Holdings → Prop} {R : β → Holdings → Prop}

/-- A step and what comes after it. -/
theorem keeps_perform_bind {c : Change} {f : Except FileError Path → Script α} :
    S.Keeps Q (Script.perform c >>= f) h ↔ ∀ u, S.Admits u → S.Holds h u →
      ∃ h', S.Shifts u h (u.apply c).2 h' ∧ S.Keeps Q (f (u.apply c).1) h' := Iff.rfl

/-- One script after another. -/
theorem Keeps.bind {s : Script α} {f : α → Script β} (hs : S.Keeps Q s h)
    (hf : ∀ a h', Q a h' → S.Keeps R (f a) h') : S.Keeps R (s >>= f) h := by
  induction s generalizing h with
  | done a => exact hf a h hs
  | step c next ih =>
      intro u hu hh
      obtain ⟨h', hshift, hnext⟩ := hs u hu hh
      exact ⟨h', hshift, ih _ hnext⟩

theorem Keeps.mono {Q' : α → Holdings → Prop} {s : Script α} (hs : S.Keeps Q s h)
    (hQ : ∀ a h', Q a h' → Q' a h') : S.Keeps Q' s h := by
  induction s generalizing h with
  | done a => exact hQ a h hs
  | step c next ih =>
      intro u hu hh
      obtain ⟨h', hshift, hnext⟩ := hs u hu hh
      exact ⟨h', hshift, ih _ hnext⟩

/-! ## Many scripts -/

/-- **Every entry that is new is held by just one script**, and every script keeps to what it
holds. -/
structure Sound (S : Scene) (Q : Nat → α → Holdings → Prop) (s : System α)
    (own : Nat → Holdings) : Prop where
  wellFormed : s.tree.WellFormed
  le : S.tree ≤ s.tree
  holds : ∀ i, S.Holds (own i) s.tree
  apart : ∀ i j, i ≠ j → ∀ l, own i l = none ∨ own j l = none
  covered : ∀ l e, s.tree.entry? l = some e → S.tree.entry? l = some e ∨ ∃ i, own i l = some e
  keeps : ∀ i script, s.scripts[i]? = some script → S.Keeps (Q i) script (own i)
  idle : ∀ i, s.scripts[i]? = none → ∀ l, own i l = none

namespace Sound

variable {Q : Nat → α → Holdings → Prop} {s : System α} {own : Nat → Holdings} {i : Nat}

/-- At first nobody holds anything. -/
theorem start {scripts : List (Script α)} (hwf : S.tree.WellFormed)
    (h : ∀ i script, scripts[i]? = some script → S.Keeps (Q i) script fun _ => none) :
    S.Sound Q { tree := S.tree, scripts } fun _ _ => none where
  wellFormed := hwf
  le := le_refl S.tree
  holds := fun _ => ⟨by simp, by simp, by simp⟩
  apart := fun _ _ _ _ => Or.inl rfl
  covered := fun _ _ hentry => Or.inl hentry
  keeps := h
  idle := fun _ _ _ => rfl

theorem admits (h : S.Sound Q s own) : S.Admits s.tree where
  wellFormed := h.wellFormed
  le := h.le
  allowed := by
    intro l e hentry
    rcases h.covered l e hentry with hold | ⟨i, hown⟩
    · exact Or.inl hold
    · exact Or.inr ((h.holds i).allowed l e hown)

/-- A script's step, as a change of what it holds. -/
theorem shift {script : Script α} (h : S.Sound Q s own) (hi : i < s.scripts.length)
    (hwf : v.WellFormed) (hshift : S.Shifts s.tree (own i) v h')
    (hkeeps : S.Keeps (Q i) script h') :
    S.Sound Q { tree := v, scripts := s.scripts.set i script } (update own i h') where
  wellFormed := hwf
  le := hshift.le (h.holds i) h.le
  holds := by
    intro j
    by_cases hj : j = i
    · rw [hj, update_self]
      exact hshift.holds (h.holds i) h.le
    · rw [update_of_ne hj]
      exact hshift.holds_other (h.holds j) (h.apart i j (Ne.symm hj))
  apart := fun _ _ hne l => hshift.apart_update h.holds h.apart hne l
  covered := fun _ _ hentry => hshift.covered_update h.covered hentry
  keeps := by
    intro j script' hscript
    by_cases hj : j = i
    · subst hj
      rw [List.getElem?_set_self hi] at hscript
      cases hscript
      rwa [update_self]
    · rw [List.getElem?_set_ne (Ne.symm hj)] at hscript
      rw [update_of_ne hj]
      exact h.keeps j script' hscript
  idle := by
    intro j hnone l
    have hj : j ≠ i := by
      rintro rfl
      rw [List.getElem?_set_self hi] at hnone
      cases hnone
    rw [List.getElem?_set_ne (Ne.symm hj)] at hnone
    rw [update_of_ne hj]
    exact h.idle j hnone l

/-- **Whoever's turn it is**, every entry that is new is held by just one script. -/
theorem turn (h : S.Sound Q s own) (i : Nat) : ∃ own', S.Sound Q (s.turn i) own' := by
  cases hscript : s.scripts[i]? with
  | none =>
      rw [System.turn_of_none hscript]
      exact ⟨own, h⟩
  | some script =>
      rw [System.turn_of_some hscript]
      have hi := (List.getElem?_eq_some_iff.mp hscript).1
      have hkeeps := h.keeps i script hscript
      cases script with
      | done a => exact ⟨_, h.shift hi h.wellFormed (.refl S s.tree (own i)) hkeeps⟩
      | step c next =>
          obtain ⟨h', hshift, hnext⟩ := hkeeps s.tree h.admits (h.holds i)
          exact ⟨_, h.shift hi (h.wellFormed.of_effect (s.tree.apply_effect c)) hshift hnext⟩

/-- **Whatever the schedule**, every entry that is new is held by just one script. -/
theorem run (h : S.Sound Q s own) (schedule : List Nat) :
    ∃ own', S.Sound Q (s.run schedule) own' := by
  induction schedule generalizing s own with
  | nil => exact ⟨own, h⟩
  | cons i rest ih =>
      obtain ⟨own', h'⟩ := h.turn i
      exact ih h'

/-- A script that has returned is as it was to be. -/
theorem returned {a : α} (h : S.Sound Q s own) (ha : s.result? i = some a) : Q i a (own i) :=
  h.keeps i _ (System.result?_eq_some.mp ha)

end Sound

end Scene

end PartitionUnits
