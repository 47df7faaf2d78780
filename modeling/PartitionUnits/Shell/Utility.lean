import PartitionUnits.FileSystem.Tree
import PartitionUnits.Text.Numeral

/-!
# Utilities

The few programs that scripts use: printing, succeeding, failing, ending.

## Main Definitions

* `Shell.Effect` — what a utility prints, its status, and whether it ends the script
* `Shell.utility?` — the utilities by name

## Design Notes

Texts of scripts are handled as octets that are written as characters, so that an escape for any
octet is one character.  Standard input is empty.
-/

namespace PartitionUnits.Shell

open Text

/-- Octets written as characters, one each. -/
def charsOf (octets : Octets) : List Char := octets.map fun b => Char.ofNat b.toNat

/-- The octets that are written as characters. -/
def octetsOf (cs : List Char) : Octets := cs.map fun c => UInt8.ofNat c.toNat

/-- What a utility does. -/
structure Effect where
  output : List Char := []
  errors : List Char := []
  status : Nat := 0
  /-- How the script ends, if the utility ends it. -/
  ending : Option Ending := none
deriving DecidableEq, Repr

/-- What the utilities of a script depend on. -/
structure Context where
  /-- How complaints begin. -/
  speaker : String
  /-- The status of the command before. -/
  status : Nat := 0
deriving DecidableEq, Repr

/-- The number of the process that runs a script. -/
def processNumber : Nat := 2

/-- A part of a format. -/
inductive Piece where
  | literal (c : Char)
  | conversion (c : Char)
deriving DecidableEq, Repr

/-- What was read of an escape or a conversion. -/
inductive EscapeState where
  | plain
  | backslash
  /-- An octal number with a value, for which up to `left` more digits count. -/
  | octal (left value : Nat)
  | percent
  | stopped
deriving DecidableEq, Repr

/-- The character that a letter stands for after a backslash. -/
def escaped? : Char → Option Char
  | 'a' => some (Char.ofNat 7)
  | 'b' => some (Char.ofNat 8)
  | 'e' => some (Char.ofNat 27)
  | 'f' => some (Char.ofNat 12)
  | 'n' => some '\n'
  | 'r' => some '\r'
  | 't' => some '\t'
  | 'v' => some (Char.ofNat 11)
  | '\\' => some '\\'
  | _ => none

/-- The value of an octal digit. -/
def octalValue? (c : Char) : Option Nat :=
  if '0' ≤ c ∧ c ≤ '7' then some (c.toNat - '0'.toNat) else none

/-- The octet that a number stands for. -/
def octetPiece (value : Nat) : Piece := .literal (Char.ofNat (value % 256))

/-- Read a character outside escapes. -/
def readPlain (isFormat : Bool) (c : Char) : EscapeState × List Piece :=
  if c = '\\' then (.backslash, [])
  else if isFormat && c = '%' then (.percent, [])
  else (.plain, [.literal c])

/-- Read a character of a format, or of a text with escapes only. -/
def readPiece (isFormat : Bool) (state : EscapeState) (c : Char) : EscapeState × List Piece :=
  match state with
  | .plain => readPlain isFormat c
  | .stopped => (.stopped, [])
  | .percent => (.plain, [if c = '%' then .literal c else .conversion c])
  | .backslash =>
    match octalValue? c, escaped? c with
    | some d, _ => (.octal (if d = 0 && !isFormat then 3 else 2) d, [])
    | none, some e => (.plain, [.literal e])
    | none, none =>
      if c = 'c' && !isFormat then (.stopped, []) else (.plain, [.literal '\\', .literal c])
  | .octal left value =>
    match left, octalValue? c with
    | left + 1, some d => (.octal left (value * 8 + d), [])
    | _, _ => ((readPlain isFormat c).1, octetPiece value :: (readPlain isFormat c).2)

/-- The pieces that are left at the end. -/
def EscapeState.rest : EscapeState → List Piece
  | plain | stopped => []
  | backslash => [.literal '\\']
  | octal _ value => [octetPiece value]
  | percent => [.literal '%']

/-- The pieces of a format, or of a text with escapes only. -/
def pieces (isFormat : Bool) (cs : List Char) : List Piece :=
  let (state, read) := cs.foldl
    (fun (state, read) c =>
      let (state, more) := readPiece isFormat state c
      (state, read ++ more))
    (EscapeState.plain, [])
  read ++ state.rest

/-- The characters of a text with escapes. -/
def unescapeText (cs : List Char) : List Char :=
  (pieces false cs).filterMap fun | .literal c => some c | .conversion _ => none

/-- An argument as a conversion shows it. -/
def convert (conversion : Char) (argument : List Char) : List Char :=
  match conversion with
  | 's' => argument
  | 'b' => unescapeText argument
  | 'c' => argument.take 1
  | 'd' | 'i' | 'u' => (toString ((parseSigned? signedBound64 argument).getD 0)).toList
  | _ => []

/-- Print by a format once; the arguments that are left. -/
def formatOnce : List Piece → List (List Char) → List Char × List (List Char)
  | [], arguments => ([], arguments)
  | .literal c :: rest, arguments =>
    let (printed, left) := formatOnce rest arguments
    (c :: printed, left)
  | .conversion c :: rest, arguments =>
    let (printed, left) := formatOnce rest arguments.tail
    (convert c (arguments.head?.getD []) ++ printed, left)

/-- Print by a format until the arguments are used up, at most `rounds` times. -/
def formatAll (format : List Piece) : Nat → List (List Char) → List Char
  | 0, _ => []
  | rounds + 1, arguments =>
    let (printed, left) := formatOnce format arguments
    if left = [] || left.length = arguments.length then printed
    else printed ++ formatAll format rounds left

/-- The blanks between printed arguments. -/
def spaced (arguments : List (List Char)) : List Char := [' '].intercalate arguments

/-- Print the arguments, with a line end unless it is switched off. -/
def echo : List (List Char) → Effect
  | ['-', 'n'] :: arguments => { output := unescapeText (spaced arguments) }
  | arguments =>
    let text := pieces false (spaced arguments ++ ['\n'])
    { output := text.filterMap fun | .literal c => some c | .conversion _ => none }

/-- Complain. -/
def Context.complain (c : Context) (message : String) (status : Nat) : Effect :=
  { errors := s!"{c.speaker}: {message}\n".toList, status }

/-- End the script. -/
def exit (c : Context) : List (List Char) → Effect
  | [] => { ending := some (.exited c.status) }
  | code :: _ =>
    match parseNumeral signedBound32 code with
    | .ok n => { ending := some (.exited (n % 256)) }
    | .error _ =>
      { c.complain s!"exit: Illegal number: {String.ofList code}" 2 with
        ending := some (.exited 2) }

/-- The signals that end a process, by number and by name. -/
def deadlySignals : List String :=
  ["1", "HUP", "2", "INT", "3", "QUIT", "4", "ILL", "6", "ABRT", "8", "FPE", "9", "KILL", "10",
    "USR1", "11", "SEGV", "12", "USR2", "13", "PIPE", "14", "ALRM", "15", "TERM"]

/-- Send a signal to a process; only the script itself can be reached. -/
def sendSignal (c : Context) (signal : String) (process : List Char) : Effect :=
  if process ≠ (toString processNumber).toList then c.complain "kill: No such process" 1
  else if signal ∈ deadlySignals then { ending := some .killed }
  else {}

/-- Send a signal, one that is named or the usual one. -/
def kill (c : Context) : List (List Char) → Effect
  | [['-', 's'], signal, process] => sendSignal c (String.ofList signal) process
  | [('-' :: signal), process] => sendSignal c (String.ofList signal) process
  | [process] => sendSignal c "TERM" process
  | _ => c.complain "kill: Illegal number" 2

/-- The utilities by name; `none` if there is none of that name. -/
def utility? (c : Context) (name : String) (arguments : List (List Char)) : Option Effect :=
  match name with
  | "true" | ":" | "cat" => some {}
  | "false" => some { status := 1 }
  | "echo" => some (echo arguments)
  | "printf" =>
    match arguments with
    | [] => some (c.complain "printf: usage: printf format [arg ...]" 2)
    | format :: arguments =>
      some { output := formatAll (pieces true format) (arguments.length + 1) arguments }
  | "exit" => some (exit c arguments)
  | "kill" => some (kill c arguments)
  | _ => none

end PartitionUnits.Shell
