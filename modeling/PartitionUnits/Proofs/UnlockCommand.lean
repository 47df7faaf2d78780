import PartitionUnits.Proofs.UnlockChain

/-!
# The command that unlocks a volume

The service's file says which program is run with which arguments, and each argument that is not
fixed stands between apostrophes.  Nothing is done about an apostrophe in an argument itself.

## Main Definitions

* `commandWords` — the words of a command, as they are passed to a program
* `WritesCommandWord` — a word by itself or between apostrophes
* `Unlocking.commandWords_startCommand_iff` — when the unlocking command is passed on as planned
* `Unlocking.command_read_back` — the arguments of the program are those that were planned with

## Design Notes

No word that is read has an apostrophe, so a volume or a source with one is never passed on: that is
the whole of the condition, and blanks and line ends of other kinds do no harm.  The unit that uses
the volume is named earlier in the file.  What that name may add to the file is read before the
service's own settings, so the last setting of a key is the one that counts here.
-/

namespace PartitionUnits

open Text

/-! ## The reader -/

/-- The apostrophe. -/
def apostrophe : Char := Char.ofNat 0x27

/-- The words of a command, from between apostrophes or not, and with a word begun or not.  Blanks
outside of apostrophes end a word, and apostrophes are left out. -/
def wordsFrom : Bool → Option (List Char) → List Char → List (List Char)
  | _, begun, [] => begun.toList
  | true, begun, c :: cs =>
    if c = apostrophe then wordsFrom false begun cs
    else wordsFrom true (some (begun.getD [] ++ [c])) cs
  | false, begun, c :: cs =>
    if c = apostrophe then wordsFrom true (some (begun.getD [])) cs
    else if isBlank c then begun.toList ++ wordsFrom false none cs
    else wordsFrom false (some (begun.getD [] ++ [c])) cs

/-- The words of a command. -/
def commandWords (command : String) : List String :=
  (wordsFrom false none command.toList).map String.ofList

/-- **No word has an apostrophe**, if the one that has begun has none. -/
theorem apostrophe_notMem_wordsFrom {quoted : Bool} {begun : Option (List Char)} {cs : List Char}
    (hbegun : apostrophe ∉ begun.getD []) :
    ∀ word ∈ wordsFrom quoted begun cs, apostrophe ∉ word := by
  have htoList : ∀ {begun : Option (List Char)}, apostrophe ∉ begun.getD [] →
      ∀ word ∈ begun.toList, apostrophe ∉ word := by
    intro begun h word hword
    rw [Option.mem_toList.mp hword] at h
    exact h
  have hconcat : ∀ {begun : Option (List Char)} {c : Char}, apostrophe ∉ begun.getD [] →
      ¬ c = apostrophe → apostrophe ∉ begun.getD [] ++ [c] := by
    intro begun c h hc hmem
    rcases List.mem_append.mp hmem with hmem | hmem
    · exact h hmem
    · exact hc (List.mem_singleton.mp hmem).symm
  fun_induction wordsFrom quoted begun cs with
  | case1 quoted begun => exact htoList hbegun
  | case2 begun cs ih => exact ih hbegun
  | case3 begun c cs hc ih => exact ih (hconcat hbegun hc)
  | case4 begun cs ih => exact ih hbegun
  | case5 begun c cs hc hblank ih =>
      intro word hword
      rcases List.mem_append.mp hword with hword | hword
      · exact htoList hbegun word hword
      · exact ih List.not_mem_nil word hword
  | case6 begun c cs hc hblank ih => exact ih (hconcat hbegun hc)

theorem apostrophe_notMem_commandWords {command word : String} (h : word ∈ commandWords command) :
    apostrophe ∉ word.toList := by
  obtain ⟨cs, hcs, rfl⟩ := List.mem_map.mp h
  rw [String.toList_ofList]
  exact apostrophe_notMem_wordsFrom List.not_mem_nil cs hcs

/-! ## Words as they are written -/

section

variable {cs rest written word : List Char} {begun : Option (List Char)}

/-- **A word as it is written in a command**: by itself, or between apostrophes. -/
inductive WritesCommandWord : List Char → List Char → Prop where
  | bare {word : List Char} (hword : IsUnbroken word) (hfree : apostrophe ∉ word) :
      WritesCommandWord word word
  | quoted {word : List Char} (hfree : apostrophe ∉ word) :
      WritesCommandWord (apostrophe :: (word ++ [apostrophe])) word

/-- Characters that are neither blank nor apostrophes go on with the word. -/
theorem wordsFrom_bare (hvisible : ∀ c ∈ cs, isBlank c = false) (hfree : apostrophe ∉ cs)
    (word rest : List Char) : wordsFrom false (some word) (cs ++ rest) =
      wordsFrom false (some (word ++ cs)) rest := by
  induction cs generalizing word with
  | nil => rw [List.nil_append, List.append_nil]
  | cons c cs ih =>
      obtain ⟨hc, hvisible⟩ := List.forall_mem_cons.mp hvisible
      rw [List.mem_cons, not_or] at hfree
      rw [List.cons_append, wordsFrom, if_neg (Ne.symm hfree.1), if_neg (by simp [hc]),
        ih hvisible hfree.2, Option.getD_some, List.append_assoc, List.singleton_append]

/-- So does whatever stands between apostrophes. -/
theorem wordsFrom_quoted (hfree : apostrophe ∉ cs) (word rest : List Char) :
    wordsFrom true (some word) (cs ++ apostrophe :: rest) =
      wordsFrom false (some (word ++ cs)) rest := by
  induction cs generalizing word with
  | nil => rw [List.nil_append, wordsFrom, if_pos rfl, List.append_nil]
  | cons c cs ih =>
      rw [List.mem_cons, not_or] at hfree
      rw [List.cons_append, wordsFrom, if_neg (Ne.symm hfree.1), ih hfree.2, Option.getD_some,
        List.append_assoc, List.singleton_append]

/-- **A word that is written is the word that has begun**, whatever follows it. -/
theorem WritesCommandWord.wordsFrom_eq (h : WritesCommandWord written word) (rest : List Char) :
    wordsFrom false none (written ++ rest) = wordsFrom false (some word) rest := by
  cases h with
  | bare hword hfree =>
      obtain ⟨c, cs, rfl⟩ := List.exists_cons_of_ne_nil hword.ne_nil
      obtain ⟨hc, hvisible⟩ := List.forall_mem_cons.mp hword.visible
      rw [List.mem_cons, not_or] at hfree
      rw [List.cons_append, wordsFrom, if_neg (Ne.symm hfree.1), if_neg (by simp [hc]),
        wordsFrom_bare hvisible hfree.2]
      rfl
  | quoted hfree =>
      rw [List.cons_append, List.append_assoc, List.singleton_append, wordsFrom, if_pos rfl,
        wordsFrom_quoted hfree]
      rfl

theorem wordsFrom_blank {c : Char} (h : isBlank c = true) (begun : Option (List Char))
    (cs : List Char) :
    wordsFrom false begun (c :: cs) = begun.toList ++ wordsFrom false none cs := by
  have hne : c ≠ apostrophe := by
    rintro rfl
    exact absurd h (by decide)
  rw [wordsFrom, if_neg hne, if_pos h]

end

/-- **Words that were put together with blanks between them are found again.** -/
theorem commandWords_intercalate {row words : List String}
    (h : List.Forall₂ (fun s word => WritesCommandWord s.toList word.toList) row words) :
    commandWords (" ".intercalate row) = words := by
  have hrow : List.Forall₂ WritesCommandWord (row.map String.toList) (words.map String.toList) :=
    List.forall₂_map_left_iff.mpr (List.forall₂_map_right_iff.mpr h)
  rw [commandWords, (Spaced.intercalate row).read_eq (fun _ => rfl) wordsFrom_blank
    WritesCommandWord.wordsFrom_eq hrow]
  simp

theorem writesCommandWord_singleQuoted {s : String} (h : apostrophe ∉ s.toList) :
    WritesCommandWord (singleQuoted s).toList s.toList := by
  have hquoted : (singleQuoted s).toList = apostrophe :: (s.toList ++ [apostrophe]) := by
    rw [singleQuoted, String.toList_append, String.toList_append]
    rfl
  rw [hquoted]
  exact .quoted h

/-! ## The commands of the service -/

namespace Unlocking

variable {id source consumer : String} {rw : Bool} {layer : Unlocking}

/-- The command that unlocks a volume. -/
def startCommand (id source : String) (rw : Bool) : String :=
  " ".intercalate [cryptsetupPath, "attach", singleQuoted id, singleQuoted source, singleQuoted "",
    singleQuoted (if rw then "" else "read-only")]

/-- The command that locks it. -/
def stopCommand (id : String) : String :=
  " ".intercalate [cryptsetupPath, "detach", singleQuoted id]

/-- **The unlocking command is passed on as it was planned** just if neither the volume nor the
source has an apostrophe. -/
theorem commandWords_startCommand_iff : commandWords (startCommand id source rw) =
      [cryptsetupPath, "attach", id, source, "", if rw then "" else "read-only"] ↔
    apostrophe ∉ id.toList ∧ apostrophe ∉ source.toList := by
  constructor
  · intro h
    have hfree : ∀ word ∈ commandWords (startCommand id source rw), apostrophe ∉ word.toList :=
      fun _ => apostrophe_notMem_commandWords
    rw [h] at hfree
    exact ⟨hfree id (by simp), hfree source (by simp)⟩
  · rintro ⟨hid, hsource⟩
    have hmode : apostrophe ∉ (if rw then "" else "read-only").toList := by cases rw <;> decide
    refine commandWords_intercalate (.cons (.bare ?_ ?_) (.cons (.bare ?_ ?_)
      (.cons (writesCommandWord_singleQuoted hid) (.cons (writesCommandWord_singleQuoted hsource)
      (.cons (writesCommandWord_singleQuoted ?_) (.cons (writesCommandWord_singleQuoted hmode)
      .nil)))))) <;> decide

/-- **So is the locking command**, just if the volume has no apostrophe. -/
theorem commandWords_stopCommand_iff : commandWords (stopCommand id) =
    [cryptsetupPath, "detach", id] ↔ apostrophe ∉ id.toList := by
  constructor
  · intro h
    have hfree : ∀ word ∈ commandWords (stopCommand id), apostrophe ∉ word.toList :=
      fun _ => apostrophe_notMem_commandWords
    rw [h] at hfree
    exact hfree id (by simp)
  · intro hid
    refine commandWords_intercalate (.cons (.bare ?_ ?_) (.cons (.bare ?_ ?_)
      (.cons (writesCommandWord_singleQuoted hid) .nil))) <;> decide

/-- **The service runs what was planned, unless an apostrophe stands in the volume or the source.**
The last settings of the two keys are the commands, whatever the unit that uses the volume is
called; if its name is a word they are the only ones. -/
theorem command_read_back (h : (plan id source rw consumer).run.value = .ok layer)
    (hid : OneLine id) (hsource : OneLine source) : ∃ start stop,
      (∀ check, (valuesOf (layer.unit.text check) "Service" "ExecStart").getLast? = some start ∧
        (valuesOf (layer.unit.text check) "Service" "ExecStop").getLast? = some stop) ∧
      (IsWord consumer → valuesOf (layer.unit.text .none) "Service" "ExecStart" = [start] ∧
        valuesOf (layer.unit.text .none) "Service" "ExecStop" = [stop]) ∧
      (commandWords start =
          [cryptsetupPath, "attach", id, source, "", if rw then "" else "read-only"] ↔
        apostrophe ∉ id.toList ∧ apostrophe ∉ source.toList) ∧
      (commandWords stop = [cryptsetupPath, "detach", id] ↔ apostrophe ∉ id.toList) := by
  obtain ⟨sourceUnit, hunit, rfl⟩ := plan_eq_ok_iff.mp h
  have hstart : assigned (service id source rw consumer sourceUnit).body.settings "ExecStart" =
      [startCommand id source rw] := by
    cases rw <;> rfl
  have hstop : assigned (service id source rw consumer sourceUnit).body.settings "ExecStop" =
      [stopCommand id] := by
    cases rw <;> rfl
  refine ⟨startCommand id source rw, stopCommand id, fun check => ?_, fun hconsumer => ?_,
    commandWords_startCommand_iff, commandWords_stopCommand_iff⟩
  · have hlegible : Legible (service id source rw consumer sourceUnit).body.settings :=
      fun s hs => ⟨UnitBody.isKey_settings _ s hs, oneLine_settings hid hsource (!rw) s hs⟩
    have hlast : ∀ {key value : String},
        assigned (service id source rw consumer sourceUnit).body.settings key = [value] →
        (valuesOf ((service id source rw consumer sourceUnit).text check) "Service" key).getLast? =
          some value := by
      intro key value hassigned
      obtain ⟨before, hvalues⟩ := UnitFile.exists_valuesOf_body check hlegible key
      exact (congrArg List.getLast? hvalues).trans (by rw [hassigned, List.getLast?_concat])
    exact ⟨hlast hstart, hlast hstop⟩
  · have hreadable : (service id source rw consumer sourceUnit).Readable .none :=
      service_readable hid hsource hconsumer (UnitName.isWord_ofPath hunit (by decide))
    exact ⟨(hreadable.valuesOf_body "ExecStart").trans hstart,
      (hreadable.valuesOf_body "ExecStop").trans hstop⟩

/-- A volume on a device with an apostrophe in its name is unlocked with other words: the second
apostrophe ends the run, and those behind it pair up the wrong way. -/
theorem command_of_apostrophe :
    OneLine "home" ∧ OneLine "/dev/it\x27s" ∧
      ∃ layer, (plan "home" "/dev/it\x27s" true "home.mount").run.value = .ok layer ∧
        ∃ start, valuesOf (layer.unit.text .none) "Service" "ExecStart" = [start] ∧
          commandWords start = [cryptsetupPath, "attach", "home", "/dev/its  "] ∧
          commandWords start ≠ [cryptsetupPath, "attach", "home", "/dev/it\x27s", "", ""] := by
  have hwords : commandWords (startCommand "home" "/dev/it\x27s" true) =
      [cryptsetupPath, "attach", "home", "/dev/its  "] := by
    decide +kernel
  have hreadable : (service "home" "/dev/it\x27s" true "home.mount"
      "dev-it\\x27s.device").Readable .none :=
    service_readable (by decide) (by decide) (by decide) (by decide)
  refine ⟨by decide, by decide, _, plan_eq_ok_iff.mpr ⟨"dev-it\\x27s.device", by decide, rfl⟩, _,
    hreadable.valuesOf_body "ExecStart", hwords, ?_⟩
  intro h
  exact absurd (hwords.symm.trans h) (by decide)

/-- The words of the commands for a volume with a blank in its name. -/
theorem command_of_blank :
    ∃ layer, (plan "my home" "/dev/sda3" false "home.mount").run.value = .ok layer ∧
      ∃ start stop, valuesOf (layer.unit.text .none) "Service" "ExecStart" = [start] ∧
        valuesOf (layer.unit.text .none) "Service" "ExecStop" = [stop] ∧
        commandWords start =
          [cryptsetupPath, "attach", "my home", "/dev/sda3", "", "read-only"] ∧
        commandWords stop = [cryptsetupPath, "detach", "my home"] := by
  have hplan : (plan "my home" "/dev/sda3" false "home.mount").run.value = .ok _ :=
    plan_eq_ok_iff.mpr ⟨"dev-sda3.device", by decide, rfl⟩
  obtain ⟨start, stop, -, honly, hstart, hstop⟩ :=
    command_read_back hplan (by decide) (by decide)
  obtain ⟨hstartOnly, hstopOnly⟩ := honly (by decide)
  exact ⟨_, hplan, start, stop, hstartOnly, hstopOnly, hstart.mpr (by decide),
    hstop.mpr (by decide)⟩

end Unlocking

end PartitionUnits
