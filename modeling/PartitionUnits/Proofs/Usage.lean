import Mathlib.Data.List.Basic
import PartitionUnits.Usage.Reader

/-!
# What arguments mean

A reader goes through arguments one by one.  What they come to in the end can be told from the
arguments as a whole, and that is what readers promise.

## Main Definitions

* `ArgumentReader.Names` — arguments that are values, a separator apart
* `ArgumentReader.Gives` — arguments that give all the values that are required
* `ArgumentReader.Asks` — arguments that ask for help or for the version before anything is wrong
* `ArgumentReader.IsDocumented` — what a reader promises
* `conventional_isDocumented` — the conventional reader keeps to it
* `Usage.gives_positionals_iff` — what the program's own declarations ask for

## Design Notes

`IsDocumented` is about any declarations, so it does not say how many directories the program takes:
that comes from the first one requiring the last one.  Arguments that neither give values nor ask
for anything are wrong; there is no more to say about them, as only their exit code tells.
-/

namespace PartitionUnits

namespace ArgumentReader

variable {declared : List Positional} {a : Octets}
  {arguments before after rest values vs more : List Octets} {stop : UsageStop} {behind : Bool}

/-- An argument that is not an option: it does not begin with a hyphen, or is nothing else. -/
def IsPlain (a : Octets) : Prop := a.head? ≠ some 0x2D ∨ a = [0x2D]

/-- **Arguments that are values.**  Behind a separator, options are values as well. -/
inductive Names : List Octets → List Octets → Prop where
  | plain {vs : List Octets} (h : ∀ a ∈ vs, IsPlain a) : Names vs vs
  | separated {before after : List Octets} (h : ∀ a ∈ before, IsPlain a) :
    Names (before ++ word "--" :: after) (before ++ after)

/-- **Arguments that give values** to what is declared: there are not too many of them, none is
empty, and what they require is given. -/
structure Gives (declared : List Positional) (arguments values : List Octets) : Prop where
  names : Names arguments values
  room : values.length ≤ declared.length
  named : [] ∉ values
  complete : IsComplete declared values.length

/-- What a single argument asks for. -/
inductive AsksFor : Octets → UsageStop → Prop where
  | help : AsksFor (word "--help") .help
  | version : AsksFor (word "--version") .version
  | shortHelp (more : Octets) : AsksFor (word "-h" ++ more) .help
  | shortVersion (more : Octets) : AsksFor (word "-V" ++ more) .version

/-- **Arguments that ask for something**, with no more in front of that than can be right. -/
inductive Asks (declared : List Positional) : List Octets → UsageStop → Prop where
  | intro {before after : List Octets} {a : Octets} {stop : UsageStop}
    (plain : ∀ a ∈ before, IsPlain a) (room : before.length ≤ declared.length)
    (named : [] ∉ before) (asks : AsksFor a stop) : Asks declared (before ++ a :: after) stop

/-- The program is stopped because arguments are wrong. -/
def IsWrong (stop : UsageStop) : Prop := ∃ e, stop = .error e

/-- **What a reader of arguments promises**, whatever is declared: it gives the values that are
given, stops for help or the version just if that is asked for, and ends with success then and with
a failure of its own when the arguments are wrong. -/
structure IsDocumented (reader : ArgumentReader) : Prop where
  read_eq_ok_iff : ∀ declared arguments values,
    reader.read declared arguments = .ok values ↔ Gives declared arguments values
  read_eq_asked_iff : ∀ declared arguments stop,
    reader.read declared arguments = .error stop ∧ ¬ IsWrong stop ↔ Asks declared arguments stop
  exitCode_of_asked : ∀ stop, ¬ IsWrong stop → reader.exitCode stop = 0
  exitCode_of_wrong : ∀ stop, IsWrong stop → reader.exitCode stop = 2

/-! ## Single arguments -/

theorem isOption_eq_false_iff : isOption a = false ↔ IsPlain a := by
  unfold isOption IsPlain
  by_cases hhead : a.head? = some 0x2D <;> by_cases hhyphen : a = [0x2D] <;> simp [hhead, hhyphen]

/-- The separator and the words that ask for something, in octets. -/
theorem word_separator : word "--" = [0x2D, 0x2D] := by decide

theorem word_help : word "--help" = [0x2D, 0x2D, 0x68, 0x65, 0x6C, 0x70] := by decide

theorem word_version :
    word "--version" = [0x2D, 0x2D, 0x76, 0x65, 0x72, 0x73, 0x69, 0x6F, 0x6E] := by decide

theorem word_helpValue : word "--help=" = word "--help" ++ [0x3D] := by decide

theorem word_versionValue : word "--version=" = word "--version" ++ [0x3D] := by decide

theorem word_shortHelp : word "-h" = [0x2D, 0x68] := by decide

theorem word_shortVersion : word "-V" = [0x2D, 0x56] := by decide

theorem IsPlain.ne_separator (h : IsPlain a) : a ≠ word "--" := by
  rintro rfl
  simp [IsPlain, word_separator] at h

theorem AsksFor.isOption (h : AsksFor a stop) : isOption a = true := by
  cases h <;>
    simp [ArgumentReader.isOption, word_help, word_version, word_shortHelp, word_shortVersion]

theorem AsksFor.ne_separator (h : AsksFor a stop) : a ≠ word "--" := by
  cases h <;>
    simp [word_separator, word_help, word_version, word_shortHelp, word_shortVersion]

theorem isWrong_error (e : UsageError) : IsWrong (.error e) := ⟨e, rfl⟩

theorem not_isWrong_help : ¬ IsWrong .help := by simp [IsWrong]

theorem not_isWrong_version : ¬ IsWrong .version := by simp [IsWrong]

theorem AsksFor.not_isWrong (h : AsksFor a stop) : ¬ IsWrong stop := by
  cases h with
  | help | shortHelp => exact not_isWrong_help
  | version | shortVersion => exact not_isWrong_version

/-- What an option stops the program with, unless that is an error. -/
theorem optionStop_eq_iff : optionStop a = stop ∧ ¬ IsWrong stop ↔ AsksFor a stop := by
  constructor
  · rintro ⟨rfl, hasked⟩
    unfold optionStop at hasked ⊢
    split at hasked
    · next h => rw [if_pos h, h]; exact .help
    next hhelp =>
    rw [if_neg hhelp]
    split at hasked
    · next h => rw [if_pos h, h]; exact .version
    next hversion =>
    rw [if_neg hversion]
    split at hasked
    · exact absurd (isWrong_error _) hasked
    next hvalue =>
    rw [if_neg hvalue]
    split at hasked
    · next h =>
        obtain ⟨more, rfl⟩ := List.isPrefixOf_iff_prefix.mp h
        rw [if_pos h]
        exact .shortHelp more
    next hshort =>
    rw [if_neg hshort]
    split at hasked
    · next h =>
        obtain ⟨more, rfl⟩ := List.isPrefixOf_iff_prefix.mp h
        rw [if_pos h]
        exact .shortVersion more
    · exact absurd (isWrong_error _) hasked
  · intro h
    refine ⟨?_, h.not_isWrong⟩
    cases h with
    | help => exact if_pos rfl
    | version => decide
    | shortHelp more =>
        simp [optionStop, word_help, word_version, word_helpValue, word_versionValue,
          word_shortHelp]
    | shortVersion more =>
        simp [optionStop, word_help, word_version, word_helpValue, word_versionValue,
          word_shortHelp, word_shortVersion]

/-! ## Steps of the conventional reader -/

/-- An argument that is no option, or is behind the separator, is a value. -/
theorem readFrom_cons (behind : Bool) (vs rest : List Octets)
    (hplain : behind = false → IsPlain a) : readFrom declared behind vs (a :: rest) =
      if declared.length ≤ vs.length then .error (.error .unknownArgument)
      else if a = [] then .error (.error .emptyValue)
      else readFrom declared behind (vs ++ [a]) rest := by
  rw [readFrom]
  cases behind with
  | true => rfl
  | false =>
      have hseparator := (hplain rfl).ne_separator
      have hoption := isOption_eq_false_iff.mpr (hplain rfl)
      exact (if_neg (by simp [hseparator])).trans (if_neg (by simp [hoption]))

theorem readFrom_value (behind : Bool) (rest : List Octets) (hplain : behind = false → IsPlain a)
    (hroom : vs.length < declared.length) (ha : a ≠ []) :
    readFrom declared behind vs (a :: rest) = readFrom declared behind (vs ++ [a]) rest := by
  rw [readFrom_cons behind _ rest hplain, if_neg (Nat.not_le.mpr hroom), if_neg ha]

/-- **A value is found, or the arguments are wrong.** -/
theorem readFrom_cons_cases (declared : List Positional) (behind : Bool) (vs rest : List Octets)
    (hplain : behind = false → IsPlain a) :
    (∃ stop, IsWrong stop ∧ readFrom declared behind vs (a :: rest) = .error stop) ∨
      (vs.length < declared.length ∧ a ≠ [] ∧
        readFrom declared behind vs (a :: rest) = readFrom declared behind (vs ++ [a]) rest) := by
  rw [readFrom_cons behind vs rest hplain]
  split
  · exact Or.inl ⟨_, isWrong_error _, rfl⟩
  next hroom =>
  split
  · exact Or.inl ⟨_, isWrong_error _, rfl⟩
  · next ha => exact Or.inr ⟨Nat.not_le.mp hroom, ha, rfl⟩

theorem readFrom_separator (vs rest : List Octets) :
    readFrom declared false vs (word "--" :: rest) = readFrom declared true vs rest := by
  rw [readFrom, if_pos (by simp)]

theorem readFrom_option (vs rest : List Octets) (hseparator : a ≠ word "--")
    (hoption : isOption a = true) :
    readFrom declared false vs (a :: rest) = .error (optionStop a) := by
  rw [readFrom, if_neg (by simp [hseparator]), if_pos (by simp [hoption])]

/-- **Reading goes past values**, and finds them. -/
theorem readFrom_append (behind : Bool) (rest : List Octets)
    (hplain : behind = false → ∀ a ∈ before, IsPlain a) (hnamed : [] ∉ before)
    (hroom : vs.length + before.length ≤ declared.length) :
    readFrom declared behind vs (before ++ rest) =
      readFrom declared behind (vs ++ before) rest := by
  induction before generalizing vs with
  | nil => rw [List.nil_append, List.append_nil]
  | cons a more ih =>
      rw [List.length_cons] at hroom
      rw [List.mem_cons, not_or] at hnamed
      have hrest : behind = false → ∀ a ∈ more, IsPlain a :=
        fun h a' ha' => hplain h a' (List.mem_cons_of_mem _ ha')
      have hroom' : (vs ++ [a]).length + more.length ≤ declared.length := by simp; omega
      rw [List.cons_append, readFrom_value behind _ (fun h => hplain h a List.mem_cons_self)
        (by omega) (Ne.symm hnamed.1), ih hrest hnamed.2 hroom', List.append_assoc,
        List.singleton_append]

/-- An argument in front of the separator is the separator itself, an option, or a value. -/
theorem argument_cases (a : Octets) :
    a = word "--" ∨ (a ≠ word "--" ∧ isOption a = true) ∨ IsPlain a := by
  by_cases hseparator : a = word "--"
  · exact Or.inl hseparator
  cases hoption : isOption a with
  | true => exact Or.inr (Or.inl ⟨hseparator, rfl⟩)
  | false => exact Or.inr (Or.inr (isOption_eq_false_iff.mp hoption))

/-! ## What the conventional reader comes to -/

/-- Values that make the ones that were found complete. -/
structure Completes (declared : List Positional) (vs more values : List Octets) : Prop where
  values_eq : values = vs ++ more
  room : values.length ≤ declared.length
  named : [] ∉ more
  complete : IsComplete declared values.length

namespace Completes

theorem of_nil (hroom : vs.length ≤ declared.length)
    (h : readFrom declared behind vs [] = .ok values) : Completes declared vs [] values := by
  rw [readFrom] at h
  split at h
  · next hcomplete =>
      cases h
      exact ⟨(List.append_nil _).symm, hroom, List.not_mem_nil, hcomplete⟩
  · cases h

theorem cons (h : Completes declared (vs ++ [a]) more values) (ha : a ≠ []) :
    Completes declared vs (a :: more) values where
  values_eq := by rw [h.values_eq, List.append_assoc, List.singleton_append]
  room := h.room
  named := by simp [Ne.symm ha, h.named]
  complete := h.complete

end Completes

theorem Names.cons (h : Names rest vs) (ha : IsPlain a) : Names (a :: rest) (a :: vs) := by
  cases h with
  | plain h => exact .plain (List.forall_mem_cons.mpr ⟨ha, h⟩)
  | separated h => exact .separated (List.forall_mem_cons.mpr ⟨ha, h⟩)

theorem length_concat_le (hroom : vs.length < declared.length) :
    (vs ++ [a]).length ≤ declared.length := by
  rw [List.length_append, List.length_singleton]
  exact hroom

/-- What is read behind the separator are values, whatever they look like. -/
theorem completes_of_behind (hroom : vs.length ≤ declared.length)
    (h : readFrom declared true vs arguments = .ok values) :
    Completes declared vs arguments values := by
  induction arguments generalizing vs with
  | nil => exact .of_nil hroom h
  | cons a rest ih =>
      rcases readFrom_cons_cases declared true vs rest (by simp) with
        ⟨stop, -, hstop⟩ | ⟨hroom', ha, hread⟩
      · cases hstop.symm.trans h
      · exact (ih (length_concat_le hroom') (hread.symm.trans h)).cons ha

/-- Nothing is asked for behind the separator. -/
theorem isWrong_of_behind (h : readFrom declared true vs arguments = .error stop) :
    IsWrong stop := by
  induction arguments generalizing vs with
  | nil =>
      rw [readFrom] at h
      split at h
      · cases h
      · cases h
        exact isWrong_error _
  | cons a rest ih =>
      rcases readFrom_cons_cases declared true vs rest (by simp) with
        ⟨stop', hwrong, hstop⟩ | ⟨-, -, hread⟩
      · cases hstop.symm.trans h
        exact hwrong
      · exact ih (hread.symm.trans h)

theorem completes_of_front (hroom : vs.length ≤ declared.length)
    (h : readFrom declared false vs arguments = .ok values) :
    ∃ more, Names arguments more ∧ Completes declared vs more values := by
  induction arguments generalizing vs with
  | nil => exact ⟨[], .plain (by simp), .of_nil hroom h⟩
  | cons a rest ih =>
      rcases argument_cases a with rfl | ⟨hseparator, hoption⟩ | hplain
      · rw [readFrom_separator] at h
        have hnames : Names ([] ++ word "--" :: rest) ([] ++ rest) := .separated (by simp)
        exact ⟨rest, hnames, completes_of_behind hroom h⟩
      · rw [readFrom_option _ _ hseparator hoption] at h
        cases h
      · rcases readFrom_cons_cases declared false vs rest (fun _ => hplain) with
          ⟨stop, -, hstop⟩ | ⟨hroom', ha, hread⟩
        · cases hstop.symm.trans h
        · obtain ⟨more, hnames, hcompletes⟩ :=
            ih (length_concat_le hroom') (hread.symm.trans h)
          exact ⟨a :: more, hnames.cons hplain, hcompletes.cons ha⟩

theorem asks_of_front (hroom : vs.length ≤ declared.length)
    (h : readFrom declared false vs arguments = .error stop) (hasked : ¬ IsWrong stop) :
    ∃ before a after, arguments = before ++ a :: after ∧ (∀ b ∈ before, IsPlain b) ∧
      vs.length + before.length ≤ declared.length ∧ [] ∉ before ∧ AsksFor a stop := by
  induction arguments generalizing vs with
  | nil =>
      rw [readFrom] at h
      split at h
      · cases h
      · cases h
        exact absurd (isWrong_error _) hasked
  | cons a rest ih =>
      rcases argument_cases a with rfl | ⟨hseparator, hoption⟩ | hplain
      · rw [readFrom_separator] at h
        exact absurd (isWrong_of_behind h) hasked
      · rw [readFrom_option _ _ hseparator hoption] at h
        have hasks := optionStop_eq_iff.mp ⟨Except.error.inj h, hasked⟩
        exact ⟨[], a, rest, rfl, by simp, by simpa using hroom, by simp, hasks⟩
      · rcases readFrom_cons_cases declared false vs rest (fun _ => hplain) with
          ⟨stop', hwrong, hstop⟩ | ⟨hroom', ha, hread⟩
        · cases hstop.symm.trans h
          exact absurd hwrong hasked
        · obtain ⟨before, asking, after, rfl, hbefore, hlength, hnamed, hasks⟩ :=
            ih (length_concat_le hroom') (hread.symm.trans h)
          refine ⟨a :: before, asking, after, rfl, List.forall_mem_cons.mpr ⟨hplain, hbefore⟩,
            ?_, by simp [Ne.symm ha, hnamed], hasks⟩
          rw [List.length_append, List.length_singleton] at hlength
          rw [List.length_cons]
          omega

/-- Arguments that give values are read as these. -/
theorem conventional_read_of_gives (h : Gives declared arguments values) :
    conventional.read declared arguments = .ok values := by
  obtain ⟨hnames, hroom, hnamed, hcomplete⟩ := h
  have hdone : ∀ behind, readFrom declared behind values [] = .ok values := by
    intro behind
    rw [readFrom, if_pos hcomplete]
  show readFrom declared false [] arguments = _
  cases hnames with
  | plain hplain =>
      rw [← List.append_nil arguments,
        readFrom_append false [] (fun _ => hplain) hnamed (by simpa using hroom)]
      simpa using hdone false
  | @separated before after hplain =>
      rw [List.mem_append, not_or] at hnamed
      rw [List.length_append] at hroom
      rw [readFrom_append false _ (fun _ => hplain) hnamed.1 (by simp; omega),
        readFrom_separator, ← List.append_nil after,
        readFrom_append true [] (by simp) hnamed.2 (by simpa using hroom)]
      simpa using hdone true

/-- Arguments that ask for something stop the program for that. -/
theorem conventional_read_of_asks (h : Asks declared arguments stop) :
    conventional.read declared arguments = .error stop := by
  cases h with
  | @intro before after a stop hplain hroom hnamed hasks =>
      show readFrom declared false [] (before ++ a :: after) = _
      rw [readFrom_append false _ (fun _ => hplain) hnamed (by simpa using hroom),
        readFrom_option _ _ hasks.ne_separator hasks.isOption, (optionStop_eq_iff.mpr hasks).1]

/-- **The conventional reader keeps to what readers promise.** -/
theorem conventional_isDocumented : conventional.IsDocumented where
  read_eq_ok_iff declared arguments values := by
    refine ⟨fun h => ?_, conventional_read_of_gives⟩
    obtain ⟨more, hnames, hvalues, hroom, hnamed, hcomplete⟩ :=
      completes_of_front (Nat.zero_le _) h
    cases hvalues
    exact ⟨hnames, hroom, hnamed, hcomplete⟩
  read_eq_asked_iff declared arguments stop := by
    constructor
    · rintro ⟨h, hasked⟩
      obtain ⟨before, a, after, rfl, hplain, hroom, hnamed, hasks⟩ :=
        asks_of_front (Nat.zero_le _) h hasked
      exact .intro hplain (by simpa using hroom) hnamed hasks
    · intro h
      refine ⟨conventional_read_of_asks h, ?_⟩
      cases h with
      | intro _ _ _ hasks => exact hasks.not_isWrong
  exitCode_of_asked stop hasked := by
    cases stop with
    | help | version => rfl
    | error e => exact absurd (isWrong_error e) hasked
  exitCode_of_wrong stop hwrong := by
    obtain ⟨e, rfl⟩ := hwrong
    rfl

end ArgumentReader

/-! ## The arguments of the program -/

namespace Usage

open ArgumentReader

variable {arguments directories : List Octets}

/-- **Arguments that pass directories**: three of them or none, each with a name. -/
structure Passes (arguments directories : List Octets) : Prop where
  names : Names arguments directories
  count : directories = [] ∨ directories.length = 3
  named : [] ∉ directories

/-- As the first directory requires the last one, there are all of them or none. -/
theorem isComplete_positionals_iff {given : Nat} (h : given ≤ positionals.length) :
    IsComplete positionals given ↔ given = 0 ∨ given = 3 := by
  have hall : ∀ given ≤ 3, IsComplete positionals given ↔ given = 0 ∨ given = 3 := by decide
  exact hall given h

/-- **What the program declares comes to three directories or none.** -/
theorem gives_positionals_iff :
    Gives positionals arguments directories ↔ Passes arguments directories := by
  constructor
  · rintro ⟨hnames, hroom, hnamed, hcomplete⟩
    refine ⟨hnames, ?_, hnamed⟩
    rwa [isComplete_positionals_iff hroom, List.length_eq_zero_iff] at hcomplete
  · rintro ⟨hnames, hcount, hnamed⟩
    have hcount' : directories.length = 0 ∨ directories.length = 3 := by
      rwa [List.length_eq_zero_iff]
    have hroom : directories.length ≤ positionals.length := by
      rw [show positionals.length = 3 from rfl]
      omega
    exact ⟨hnames, hroom, hnamed, (isComplete_positionals_iff hroom).mpr hcount'⟩

end Usage

end PartitionUnits
