import PartitionUnits.Proofs.MountPlan

/-!
# Whose units they are

Every unit of a plan belongs to the role that the plan was made for, and to no other.

## Main Definitions

* `Role.HasUnit` — the names of a role's units
* `Role.HasUnit.unique` — no name is that of two roles' units
* `Plan.IsOf` — a plan has the units of one role
* `decideRoot_isOf`, `Rule.decide_isOf` — so has every plan that is decided on

## Design Notes

The units of a role are named after where the role is mounted, after the volume that it is unlocked
as, or, for swap, after the device.  But for swap these are a handful of names, so that no two
roles share one can be looked up; a swap unit is told by its ending.
-/

namespace PartitionUnits

open Attempt

variable {role role' : Role} {name name' : String} {u : UnitFile} {plan : Plan}
  {relation : Relation} {source target : String}

/-- All roles. -/
def Role.every : List Role := [.root, .boot, .home, .serverData, .swap]

theorem Role.mem_every (role : Role) : role ∈ every := by
  cases role <;> decide

/-- What is said of all roles can be looked up.  The names of units are written out once for all
roles then, and not once for each two of them. -/
instance Role.decidableForall {P : Role → Prop} [DecidablePred P] : Decidable (∀ role, P role) :=
  decidable_of_iff (∀ role ∈ every, P role)
    ⟨fun h role => h role role.mem_every, fun h role _ => h role⟩

/-- Roles are told apart by their short names. -/
theorem Role.id_injective (h : role.id = role'.id) : role = role' := by
  cases role <;> cases role' <;> first | rfl | exact absurd h (by decide)

/-- A role is mounted somewhere, in the initrd or after it. -/
def Role.IsAt (role : Role) (mountPoint : String) : Prop :=
  ∃ inInitrd, role.mountPoint? inInitrd = some mountPoint

/-- **The names of a role's units.** -/
inductive Role.HasUnit : Role → String → Prop where
  | mount {role : Role} {mountPoint suffix name : String} (hplace : role.IsAt mountPoint)
      (hsuffix : suffix ∈ [".mount", ".automount"])
      (h : UnitName.ofPath mountPoint suffix = .ok name) : HasUnit role name
  | unlocking {role : Role} : HasUnit role (Unlocking.serviceUnit role.id)
  | swap {device name : String} (h : UnitName.ofPath device ".swap" = .ok name) : HasUnit .swap name

/-- The names of a role's units, but for those that swap on a device. -/
def Role.fixedUnits (role : Role) : List String :=
  Unlocking.serviceUnit role.id :: [false, true].flatMap fun inInitrd =>
    (role.mountPoint? inInitrd).toList.flatMap fun mountPoint =>
      [".mount", ".automount"].filterMap fun suffix =>
        (UnitName.ofPath mountPoint suffix).toOption

namespace Role.HasUnit

theorem tellsKind (h : role.HasUnit name) : TellsKind name := by
  cases h with
  | @mount _ _ suffix _ _ hsuffix h =>
      obtain ⟨escaped, -, rfl⟩ := UnitName.ofPath_eq_ok h
      have hkind : ∀ s ∈ [".mount", ".automount"], s ∈ unitSuffixes := by decide
      exact ⟨escaped, suffix, hkind suffix hsuffix, rfl⟩
  | unlocking => exact serviceUnit_tellsKind _
  | swap h =>
      obtain ⟨escaped, -, rfl⟩ := UnitName.ofPath_eq_ok h
      exact ⟨escaped, ".swap", by decide, rfl⟩

theorem mem_fixedUnits (h : role.HasUnit name) :
    name ∈ role.fixedUnits ∨ role = .swap ∧ ∃ base, name = base ++ ".swap" := by
  cases h with
  | mount hplace hsuffix h =>
      obtain ⟨inInitrd, hplace⟩ := hplace
      refine Or.inl (List.mem_cons_of_mem _ ?_)
      refine List.mem_flatMap.mpr ⟨inInitrd, by cases inInitrd <;> simp, ?_⟩
      refine List.mem_flatMap.mpr ⟨_, by rw [hplace]; exact List.mem_singleton.mpr rfl, ?_⟩
      exact List.mem_filterMap.mpr ⟨_, hsuffix, by rw [h]; rfl⟩
  | unlocking => exact Or.inl List.mem_cons_self
  | swap h =>
      obtain ⟨escaped, -, rfl⟩ := UnitName.ofPath_eq_ok h
      exact Or.inr ⟨rfl, escaped, rfl⟩

theorem fixedUnits_disjoint : ∀ role role' : Role, role ≠ role' →
    ∀ name ∈ role.fixedUnits, ∀ name' ∈ role'.fixedUnits,
      (Path.ofText name).octets ≠ (Path.ofText name').octets := by
  decide +kernel

/-- The name of a unit that swaps on a device ends like no other. -/
theorem getLast?_fixedUnits : ∀ role : Role, ∀ name ∈ role.fixedUnits,
    (Path.ofText name).octets.getLast? ≠ some 0x70 := by
  decide +kernel

theorem getLast?_swap (base : String) :
    (Path.ofText (base ++ ".swap")).octets.getLast? = some 0x70 := by
  rw [Path.ofText_append, List.getLast?_append, show (Path.ofText ".swap").octets.getLast? =
    some 0x70 by decide, Option.some_or]

/-- **No name is that of two roles' units**, not even as octets. -/
theorem unique (h : role.HasUnit name) (h' : role'.HasUnit name')
    (heq : (Path.ofText name).octets = (Path.ofText name').octets) : role = role' := by
  by_contra hne
  rcases h.mem_fixedUnits with hfixed | ⟨rfl, base, rfl⟩
  · rcases h'.mem_fixedUnits with hfixed' | ⟨rfl, base, rfl⟩
    · exact fixedUnits_disjoint _ _ hne _ hfixed _ hfixed' heq
    · exact getLast?_fixedUnits _ _ hfixed (heq ▸ getLast?_swap base)
  · rcases h'.mem_fixedUnits with hfixed' | ⟨rfl, -⟩
    · exact getLast?_fixedUnits _ _ hfixed' (heq ▸ getLast?_swap base)
    · exact hne rfl

end Role.HasUnit

/-! ## Units -/

/-- What a unit mounts something at. -/
def UnitBody.mountPoint? : UnitBody → Option String
  | .mount _ mountPoint _ _ | .automount mountPoint _ => some mountPoint
  | .swap _ | .unlock .. => none

/-- **A unit of a role**: its name is one of the role's, what it mounts and has checked is where the
role is mounted, and links can express all dependencies of other units on it. -/
structure UnitFile.IsOf (u : UnitFile) (role : Role) : Prop where
  name : role.HasUnit u.name
  mountPoint : ∀ mountPoint, u.body.mountPoint? = some mountPoint → role.IsAt mountPoint
  check : ∀ request, u.check = some request → role.IsAt request.mountPoint
  links : ∀ e ∈ u.edges, e.source = u.name ∨ e.relation.linkSuffix? ≠ none

namespace UnitFile.IsOf

theorem depends (h : u.IsOf role) : (u.depends relation target).IsOf role where
  name := h.name
  mountPoint := h.mountPoint
  check := h.check
  links := UnitFile.IsLinked.depends h.links

theorem dependedOnBy (h : u.IsOf role) (hrelation : relation.linkSuffix? ≠ none) :
    (u.dependedOnBy source relation).IsOf role where
  name := h.name
  mountPoint := h.mountPoint
  check := h.check
  links := UnitFile.IsLinked.dependedOnBy h.links hrelation

end UnitFile.IsOf

theorem MountRequest.unit_isOf {r : MountRequest} {device : String} {fsType : Option String}
    (hname : role.HasUnit name) (hplace : role.IsAt r.mountPoint) :
    (r.unit name device fsType).IsOf role := by
  have hbase : ({
      name
      description := r.description
      body := .mount device r.mountPoint fsType (mountOptions r.options r.rw)
      check := some ⟨device, r.mountPoint, fsType⟩ } : UnitFile).IsOf role := by
    refine ⟨hname, ?_, ?_, by simp⟩
    · intro mountPoint h
      cases h
      exact hplace
    · intro request h
      cases h
      exact hplace
  unfold MountRequest.unit
  simp only
  split
  · exact hbase.depends.dependedOnBy (by decide)
  · exact hbase

theorem Unlocking.service_isOf {role : Role} {source consumer sourceUnit : String} {rw : Bool} :
    (Unlocking.service role.id source rw consumer sourceUnit).IsOf role := by
  refine .dependedOnBy (.dependedOnBy (.dependedOnBy ?_ (by decide)) (by decide)) (by decide)
  refine .depends (.depends (.depends (.depends (.depends (.depends (.depends ?_))))))
  exact ⟨.unlocking, fun _ h => (by cases h), fun _ h => (by cases h), by simp⟩

theorem swapUnit_isOf {device : String} (hname : Role.swap.HasUnit name) :
    (swapUnit name device).IsOf .swap := by
  refine .dependedOnBy (.depends ?_) (by decide)
  exact ⟨hname, fun _ h => (by cases h), fun _ h => (by cases h), by simp⟩

theorem MountRequest.automountUnit_isOf {r : MountRequest} {idleSeconds : Nat}
    (hname : role.HasUnit name) (hplace : role.IsAt r.mountPoint) :
    (r.automountUnit name idleSeconds).IsOf role := by
  refine .dependedOnBy (.depends ?_) (by decide)
  refine ⟨hname, fun mountPoint h => ?_, fun _ h => (by cases h), by simp⟩
  cases h
  exact hplace

/-! ## Plans -/

/-- **A plan of a role**: it has units, and all of them are the role's. -/
structure Plan.IsOf (plan : Plan) (role : Role) : Prop where
  forRole : plan.IsForRole role
  units_ne_nil : plan.units ≠ []
  unit : ∀ u ∈ plan.units, u.IsOf role

theorem MountRequest.plan_isOf {r : MountRequest} (hid : r.id = role.id)
    (hplace : role.IsAt r.mountPoint) : Ensures r.plan (·.IsOf role) := by
  intro plan h
  have hrole := MountRequest.plan_ensures hid plan h
  obtain ⟨name, hname, hplanned⟩ := MountRequest.plan_eq_ok_iff.mp h
  have hunit : role.HasUnit name := .mount hplace (by simp) hname
  cases hplanned with
  | plain =>
      refine ⟨hrole, by simp, fun u hu => ?_⟩
      rw [List.mem_singleton.mp hu]
      exact MountRequest.unit_isOf hunit hplace
  | unlocked =>
      refine ⟨hrole, by simp, fun u hu => ?_⟩
      rcases List.mem_cons.mp hu with rfl | hu
      · rw [hid]
        exact Unlocking.service_isOf
      · rw [List.mem_singleton.mp hu]
        exact MountRequest.unit_isOf hunit hplace

theorem MountRequest.planOnAccess_isOf {r : MountRequest} {idleSeconds : Nat} (hid : r.id = role.id)
    (hplace : role.IsAt r.mountPoint) : Ensures (r.planOnAccess idleSeconds) (·.IsOf role) := by
  intro plan h
  have hrole := MountRequest.planOnAccess_ensures hid plan h
  obtain ⟨inner, name, hinner, hname, rfl⟩ := MountRequest.planOnAccess_eq_ok_iff.mp h
  have hof := MountRequest.plan_isOf (r := r.behindAutomount) hid hplace inner hinner
  refine ⟨hrole, by simp, fun u hu => ?_⟩
  rcases List.mem_append.mp hu with hu | hu
  · exact hof.unit u hu
  · rw [List.mem_singleton.mp hu]
    exact MountRequest.automountUnit_isOf (.mount hplace (by simp) hname) hplace

theorem planSwap_isOf {device : String} : Ensures (planSwap device) (·.IsOf .swap) := by
  intro plan h
  have hrole : plan.IsForRole .swap := planSwap_ensures plan h
  obtain ⟨name, hname, rfl⟩ := planSwap_eq_ok_iff.mp h
  refine ⟨hrole, by simp, fun u hu => ?_⟩
  rw [List.mem_singleton.mp hu]
  exact swapUnit_isOf (.swap hname)

/-! ## Decisions -/

theorem decideRoot_isOf (settings : Settings) (h : Host) :
    Ensures (decideRoot settings h) (·.Emits (·.IsOf .root)) := by
  refine decideRoot_emits (MountRequest.plan_isOf rfl ⟨h.inInitrd, ?_⟩)
  cases h.inInitrd <;> rfl

/-- **The decision for an elected partition has no plan but one of its role.** -/
theorem Rule.decide_isOf (r : Rule) (m : Machine) (a : Assignment) :
    Ensures (r.decide m a) (·.Emits (·.IsOf r.role)) := by
  unfold Rule.decide
  split
  · next h =>
      rw [h]
      exact decideSwap_emits planSwap_isOf
  · next h =>
      rw [h]
      exact decideBoot_emits (MountRequest.planOnAccess_isOf rfl ⟨false, rfl⟩)
  · exact decideData_emits fun _ _ hplace => MountRequest.plan_isOf rfl ⟨false, hplace⟩

end PartitionUnits
