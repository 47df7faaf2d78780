import PartitionUnits.FileSystem.Change
import PartitionUnits.Proofs.FileSystem.Tree

/-!
# Walks

Where a path leads, as a relation, and what a walk depends on.

## Main Definitions

* `Tree.Leads` — a walk that arrives, step by step
* `Tree.Leads.LastStep` — what the last step of a walk can be

## Design Notes

`Tree.walk` is a recursion on the number of links inside a recursion on the names.  `Tree.Leads` is
the same walk as one inductive relation with a constructor for each way to take a step, and
`walk_eq_ok_iff` says that they agree.  Everything below is an induction on that relation.
-/

namespace PartitionUnits

namespace Tree

/-- A name that an entry of a directory can have: it is no lone dot or double dot, and it is not
too long. -/
structure IsPlainName (name : Name) : Prop where
  ne_dot : name ≠ [dot]
  ne_dots : name ≠ [dot, dot]
  length_le : name.length ≤ maxNameLength

/-- **A walk that arrives.**  `t.Leads follow links here names l` walks the names from `here` to
`l`, past at most `links` links. -/
inductive Leads (t : Tree) (follow : Bool) : Nat → Location → List Name → Location → Prop where
  | arrived {links : Nat} {here : Location} : Leads t follow links here [] here
  | stay {links : Nat} {here l : Location} {rest : List Name}
      (hdir : t.isDirectoryAt here = true) (next : Leads t follow links here rest l) :
      Leads t follow links here ([dot] :: rest) l
  | up {links : Nat} {here l : Location} {rest : List Name}
      (hdir : t.isDirectoryAt here = true) (next : Leads t follow links here.dropLast rest l) :
      Leads t follow links here ([dot, dot] :: rest) l
  | enter {links : Nat} {here l : Location} {name : Name} {rest : List Name} {e : Entry}
      (hdir : t.isDirectoryAt here = true) (hplain : IsPlainName name)
      (hentry : t.entry? (here ++ [name]) = some e) (hlink : ∀ target, e ≠ .link target)
      (next : Leads t follow links (here ++ [name]) rest l) :
      Leads t follow links here (name :: rest) l
  | endAtLink {links : Nat} {here : Location} {name : Name} {target : Octets}
      (hdir : t.isDirectoryAt here = true) (hplain : IsPlainName name)
      (hentry : t.entry? (here ++ [name]) = some (.link target)) (hfollow : follow = false) :
      Leads t follow links here [name] (here ++ [name])
  | through {links : Nat} {here l : Location} {name : Name} {rest : List Name} {target : Octets}
      (hdir : t.isDirectoryAt here = true) (hplain : IsPlainName name)
      (hentry : t.entry? (here ++ [name]) = some (.link target))
      (hfollow : rest ≠ [] ∨ follow = true)
      (next : Leads t follow links
        (if (⟨target⟩ : Path).isAbsolute then [] else here) ((⟨target⟩ : Path).steps ++ rest) l) :
      Leads t follow (links + 1) here (name :: rest) l

variable {t t' : Tree} {follow : Bool} {links : Nat} {here l d : Location} {name : Name}
  {names rest : List Name} {p : Path}

/-- What a walk does at a link, by the number of links that it may still pass. -/
def atLink (t : Tree) (follow : Bool) :
    Nat → Location → Path → List Name → Except FileError Location
  | 0, _, _, _ => .error .tooManyLinks
  | links + 1, here, target, rest =>
    t.walk follow links (if target.isAbsolute then [] else here) (target.steps ++ rest)

theorem walk_eq_walkWith : t.walk follow links = t.walkWith follow (t.atLink follow links) := by
  cases links with
  | zero => rfl
  | succ links => rfl

@[simp] theorem walk_nil : t.walk follow links here [] = .ok here := by
  rw [walk_eq_walkWith]
  rfl

/-- The walk of one name and the names after it. -/
theorem walk_cons : t.walk follow links here (name :: rest) =
    if !t.isDirectoryAt here then .error .notDirectory
    else if name = [dot] then t.walk follow links here rest
    else if name = [dot, dot] then t.walk follow links here.dropLast rest
    else if name.length > maxNameLength then .error .nameTooLong
    else
      match t.entry? (here ++ [name]) with
      | none => .error .notFound
      | some (.link target) =>
        if rest = [] && !follow then .ok (here ++ [name])
        else t.atLink follow links here ⟨target⟩ rest
      | some _ => t.walk follow links (here ++ [name]) rest := by
  rw [walk_eq_walkWith]
  rfl

/-- A plain name leads to the entry with that name, or on from the link with that name. -/
theorem walk_cons_of_isPlainName (hdir : t.isDirectoryAt here = true) (hplain : IsPlainName name) :
    t.walk follow links here (name :: rest) =
      match t.entry? (here ++ [name]) with
      | none => .error .notFound
      | some (.link target) =>
        if rest = [] && !follow then .ok (here ++ [name])
        else t.atLink follow links here ⟨target⟩ rest
      | some _ => t.walk follow links (here ++ [name]) rest := by
  have hlength : ¬ maxNameLength < name.length := by
    have := hplain.length_le
    omega
  rw [walk_cons]
  simp [hdir, hplain.ne_dot, hplain.ne_dots, hlength]

/-- A walk does not end at a link that it is to follow. -/
theorem not_ends_at_link (h : rest ≠ [] ∨ follow = true) :
    (decide (rest = []) && !follow) = false := by
  rcases h with hrest | rfl
  · simp [hrest]
  · simp

/-- The step from a walk that arrives to the relation, given what walks through links do. -/
theorem leads_of_walk_of_atLink
    (hatLink : ∀ here target rest, t.atLink follow links here target rest = .ok l →
      ∃ fewer, links = fewer + 1 ∧ t.Leads follow fewer
        (if target.isAbsolute then [] else here) (target.steps ++ rest) l)
    (h : t.walk follow links here names = .ok l) : t.Leads follow links here names l := by
  induction names generalizing here with
  | nil =>
      rw [walk_nil] at h
      cases h
      exact .arrived
  | cons name rest ih =>
      by_cases hdir : t.isDirectoryAt here = false
      · rw [walk_cons] at h
        simp [hdir] at h
      rw [Bool.not_eq_false] at hdir
      by_cases hdot : name = [dot]
      · subst hdot
        rw [walk_cons] at h
        exact .stay hdir (ih (by simpa [hdir] using h))
      by_cases hdots : name = [dot, dot]
      · subst hdots
        rw [walk_cons] at h
        exact .up hdir (ih (by simpa [hdir, dot] using h))
      by_cases hlength : maxNameLength < name.length
      · rw [walk_cons] at h
        simp [hdir, hdot, hdots, hlength] at h
      have hplain : IsPlainName name := ⟨hdot, hdots, by omega⟩
      rw [walk_cons_of_isPlainName hdir hplain] at h
      cases hentry : t.entry? (here ++ [name]) with
      | none => simp [hentry] at h
      | some e =>
          cases e with
          | directory mode =>
              exact .enter hdir hplain hentry (by simp) (ih (by simpa [hentry] using h))
          | file mode content =>
              exact .enter hdir hplain hentry (by simp) (ih (by simpa [hentry] using h))
          | link target =>
              simp only [hentry] at h
              by_cases hend : rest = [] ∧ follow = false
              · obtain ⟨rfl, rfl⟩ := hend
                cases h
                exact .endAtLink hdir hplain hentry rfl
              · -- The rest of the walk is the one that `hatLink` is about.
                have hfollow : rest ≠ [] ∨ follow = true := by
                  cases follow <;> simp_all
                rw [not_ends_at_link hfollow, if_neg Bool.false_ne_true] at h
                obtain ⟨fewer, rfl, hleads⟩ := hatLink _ _ _ h
                exact .through hdir hplain hentry hfollow hleads

/-- **The relation is the walk.** -/
theorem walk_eq_ok_iff :
    t.walk follow links here names = .ok l ↔ t.Leads follow links here names l := by
  constructor
  · intro h
    induction links generalizing here names with
    | zero => exact leads_of_walk_of_atLink (fun _ _ _ hnone => by cases hnone) h
    | succ links ih =>
        exact leads_of_walk_of_atLink (fun _ _ _ hnext => ⟨links, rfl, ih hnext⟩) h
  · intro h
    induction h with
    | arrived => exact walk_nil
    | stay hdir _ ih =>
        rw [walk_cons]
        simpa [hdir] using ih
    | up hdir _ ih =>
        rw [walk_cons]
        simpa [hdir, dot] using ih
    | @enter links here l name rest e hdir hplain hentry hlink _ ih =>
        rw [walk_cons_of_isPlainName hdir hplain, hentry]
        cases e with
        | link target => exact absurd rfl (hlink target)
        | directory mode => exact ih
        | file mode content => exact ih
    | endAtLink hdir hplain hentry hfollow =>
        rw [walk_cons_of_isPlainName hdir hplain, hentry]
        simp [hfollow]
    | @through links here l name rest target hdir hplain hentry hfollow _ ih =>
        rw [walk_cons_of_isPlainName hdir hplain, hentry]
        simp only [not_ends_at_link hfollow, Bool.false_eq_true, if_false]
        exact ih

namespace Leads

/-- Two walks of the same names arrive at the same location. -/
theorem unique {l' : Location} (h : t.Leads follow links here names l)
    (h' : t.Leads follow links here names l') : l = l' := by
  have heq := (walk_eq_ok_iff.mpr h).symm.trans (walk_eq_ok_iff.mpr h')
  exact Except.ok.inj heq

/-- A walk that takes a step starts at a directory. -/
theorem isDirectoryAt_of_cons (h : t.Leads follow links here (name :: rest) l) :
    t.isDirectoryAt here = true := by
  cases h <;> assumption

/-- A walk arrives at the same location in a tree that has more. -/
theorem of_le (h : t.Leads follow links here names l) (hle : t ≤ t') :
    t'.Leads follow links here names l := by
  induction h with
  | arrived => exact .arrived
  | stay hdir _ ih => exact .stay (isDirectoryAt_of_le hle hdir) ih
  | up hdir _ ih => exact .up (isDirectoryAt_of_le hle hdir) ih
  | enter hdir hplain hentry hlink _ ih =>
      exact .enter (isDirectoryAt_of_le hle hdir) hplain (entry?_of_le hle hentry) hlink ih
  | endAtLink hdir hplain hentry hfollow =>
      exact .endAtLink (isDirectoryAt_of_le hle hdir) hplain (entry?_of_le hle hentry) hfollow
  | through hdir hplain hentry hfollow _ ih =>
      exact .through (isDirectoryAt_of_le hle hdir) hplain (entry?_of_le hle hentry) hfollow ih

/-- **A walk passes only directories and links** on the way to where it arrives.  It arrives at the
same location in every tree that has those, and has what is there. -/
theorem of_keepsWays_of_end (h : t.Leads follow links here names l)
    (hend : ∀ e, t.entry? l = some e → t'.entry? l = some e) (hways : t.KeepsWays t') :
    t'.Leads follow links here names l := by
  induction h with
  | arrived => exact .arrived
  | stay hdir _ ih => exact .stay (hways.isDirectoryAt hdir) (ih hend)
  | up hdir _ ih => exact .up (hways.isDirectoryAt hdir) (ih hend)
  | @enter links here l name rest e hdir hplain hentry hlink next ih =>
      have hkept : t'.entry? (here ++ [name]) = some e := by
        cases rest with
        | nil =>
            cases next
            exact hend e hentry
        | cons =>
            -- A file is where no walk goes on.
            obtain ⟨mode, hmode⟩ := isDirectoryAt_iff.mp next.isDirectoryAt_of_cons
            rw [hentry] at hmode
            exact hways _ e (by simp [Option.some.inj hmode]) hentry
      exact .enter (hways.isDirectoryAt hdir) hplain hkept hlink (ih hend)
  | endAtLink hdir hplain hentry hfollow =>
      exact .endAtLink (hways.isDirectoryAt hdir) hplain (hways _ _ (by simp) hentry) hfollow
  | through hdir hplain hentry hfollow _ ih =>
      exact .through (hways.isDirectoryAt hdir) hplain (hways _ _ (by simp) hentry) hfollow
        (ih hend)

/-- A walk that arrives at a directory arrives there in every tree that has the same directories and
links. -/
theorem of_keepsWays (h : t.Leads follow links here names l) (hd : t.isDirectoryAt l = true)
    (hways : t.KeepsWays t') : t'.Leads follow links here names l := by
  obtain ⟨mode, hmode⟩ := isDirectoryAt_iff.mp hd
  refine h.of_keepsWays_of_end (fun e he => ?_) hways
  rw [hmode] at he
  exact hways l e (by simp [← Option.some.inj he]) (hmode.trans he)

/-- **A walk goes on where a walk of its first names has arrived**, with the links that are left. -/
theorem walk_append {first : List Name} (h : t.Leads true links here first d) (follow : Bool)
    (hrest : rest ≠ []) :
    ∃ left, t.walk follow links here (first ++ rest) = t.walk follow left d rest := by
  induction h with
  | @arrived links here => exact ⟨links, rfl⟩
  | stay hdir _ ih =>
      obtain ⟨left, hleft⟩ := ih
      refine ⟨left, ?_⟩
      rw [List.cons_append, walk_cons]
      simpa [hdir] using hleft
  | up hdir _ ih =>
      obtain ⟨left, hleft⟩ := ih
      refine ⟨left, ?_⟩
      rw [List.cons_append, walk_cons]
      simpa [hdir, dot] using hleft
  | @enter links here l name names e hdir hplain hentry hlink _ ih =>
      obtain ⟨left, hleft⟩ := ih
      refine ⟨left, ?_⟩
      rw [List.cons_append, walk_cons_of_isPlainName hdir hplain, hentry]
      cases e with
      | link target => exact absurd rfl (hlink target)
      | directory mode => exact hleft
      | file mode content => exact hleft
  | endAtLink _ _ _ hfollow => cases hfollow
  | @through links here l name names target hdir hplain hentry _ _ ih =>
      obtain ⟨left, hleft⟩ := ih
      refine ⟨left, ?_⟩
      have hmore : names ++ rest ≠ [] := by simp [hrest]
      rw [List.cons_append, walk_cons_of_isPlainName hdir hplain, hentry]
      simp only [not_ends_at_link (Or.inl hmore), Bool.false_eq_true, if_false]
      rw [List.append_assoc] at hleft
      exact hleft

/-- What a walk arrives at from there, it arrives at. -/
theorem append {first : List Name} (h : t.Leads true links here first d) (follow : Bool)
    (rest : List Name) (hrest : rest ≠ []) :
    ∃ left, ∀ l, t.Leads follow left d rest l → t.Leads follow links here (first ++ rest) l := by
  obtain ⟨left, hleft⟩ := h.walk_append follow hrest
  exact ⟨left, fun l hl => walk_eq_ok_iff.mp (hleft.trans (walk_eq_ok_iff.mpr hl))⟩

private theorem split_nil (h : t.Leads follow links here names l) (hnames : [] ++ rest = names) :
    ∃ left d, t.Leads true links here [] d ∧ t.Leads follow left d rest l := by
  rw [List.nil_append] at hnames
  exact ⟨links, here, .arrived, hnames ▸ h⟩

/-- Every walk can be cut after its first names. -/
theorem split {first : List Name} (h : t.Leads follow links here (first ++ rest) l)
    (hrest : rest ≠ []) :
    ∃ left d, t.Leads true links here first d ∧ t.Leads follow left d rest l := by
  generalize hnames : first ++ rest = names at h
  induction h generalizing first with
  | arrived => simp_all
  | @stay links here l names hdir next ih =>
      cases first with
      | nil => exact split_nil (.stay hdir next) hnames
      | cons name first =>
          obtain ⟨rfl, rfl⟩ := List.cons.inj hnames
          obtain ⟨left, d, hfirst, hlast⟩ := ih rfl
          exact ⟨left, d, .stay hdir hfirst, hlast⟩
  | @up links here l names hdir next ih =>
      cases first with
      | nil => exact split_nil (.up hdir next) hnames
      | cons name first =>
          obtain ⟨rfl, rfl⟩ := List.cons.inj hnames
          obtain ⟨left, d, hfirst, hlast⟩ := ih rfl
          exact ⟨left, d, .up hdir hfirst, hlast⟩
  | @enter links here l name names e hdir hplain hentry hlink next ih =>
      cases first with
      | nil => exact split_nil (.enter hdir hplain hentry hlink next) hnames
      | cons name first =>
          obtain ⟨rfl, rfl⟩ := List.cons.inj hnames
          obtain ⟨left, d, hfirst, hlast⟩ := ih rfl
          exact ⟨left, d, .enter hdir hplain hentry hlink hfirst, hlast⟩
  | @endAtLink links here name target hdir hplain hentry hfollow =>
      cases first with
      | nil => exact split_nil (.endAtLink hdir hplain hentry hfollow) hnames
      | cons name first => simp_all
  | @through links here l name names target hdir hplain hentry hfollow next ih =>
      cases first with
      | nil => exact split_nil (.through hdir hplain hentry hfollow next) hnames
      | cons name first =>
          obtain ⟨rfl, rfl⟩ := List.cons.inj hnames
          obtain ⟨left, d, hfirst, hlast⟩ := ih (List.append_assoc _ _ _)
          exact ⟨left, d, .through hdir hplain hentry (Or.inr rfl) hfirst, hlast⟩

/-- **The last step of a walk**, from where the names before it have led. -/
inductive LastStep (t : Tree) (follow : Bool) (here : Location) (name : Name) (l : Location) :
    Prop where
  | stay (hname : name = [dot]) (hdir : t.isDirectoryAt here = true) (hl : l = here)
  | up (hname : name = [dot, dot]) (hdir : t.isDirectoryAt here = true) (hl : l = here.dropLast)
  | entry {e : Entry} (hplain : IsPlainName name) (hentry : t.entry? (here ++ [name]) = some e)
      (hl : l = here ++ [name])
  | through {target : Octets} (hplain : IsPlainName name)
      (hentry : t.entry? (here ++ [name]) = some (.link target)) (hfollow : follow = true)

theorem lastStep (h : t.Leads follow links here [name] l) : LastStep t follow here name l := by
  cases h with
  | stay hdir next =>
      cases next
      exact .stay rfl hdir rfl
  | up hdir next =>
      cases next
      exact .up rfl hdir rfl
  | enter _ hplain hentry _ next =>
      cases next
      exact .entry hplain hentry rfl
  | endAtLink _ hplain hentry _ => exact .entry hplain hentry rfl
  | through _ hplain hentry hfollow =>
      exact .through hplain hentry (hfollow.resolve_left (not_not.mpr rfl))

/-- A walk of one plain name ends at the entry of that name. -/
theorem eq_of_singleton (h : t.Leads false links here [name] l) (hplain : IsPlainName name) :
    l = here ++ [name] ∧ ∃ e, t.entry? l = some e := by
  cases h.lastStep with
  | stay hname => exact absurd hname hplain.ne_dot
  | up hname => exact absurd hname hplain.ne_dots
  | entry _ hentry hl => exact ⟨hl, _, hl ▸ hentry⟩
  | through _ _ hfollow => cases hfollow

/-- A walk of one name takes a plain name, unless it is a lone dot or a double dot. -/
theorem isPlainName (h : t.Leads follow links here [name] l) (hdot : name ≠ [dot])
    (hdots : name ≠ [dot, dot]) : IsPlainName name := by
  cases h.lastStep with
  | stay hname => exact absurd hname hdot
  | up hname => exact absurd hname hdots
  | entry hplain => exact hplain
  | through hplain => exact hplain

/-- One plain name leads to the entry of that name. -/
theorem singleton {e : Entry} (hdir : t.isDirectoryAt here = true) (hplain : IsPlainName name)
    (hentry : t.entry? (here ++ [name]) = some e) :
    t.Leads false links here [name] (here ++ [name]) := by
  cases e with
  | directory mode => exact .enter hdir hplain hentry (by simp) .arrived
  | file mode content => exact .enter hdir hplain hentry (by simp) .arrived
  | link target => exact .endAtLink hdir hplain hentry rfl

end Leads

end Tree

end PartitionUnits
