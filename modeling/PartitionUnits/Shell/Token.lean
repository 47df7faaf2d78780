import PartitionUnits.Path

/-!
# Words of scripts

A script is cut into words and operators.

## Main Definitions

* `Shell.Fragment`, `Shell.Word` — a word as literal text and parameters
* `Shell.Token` — a word, a descriptor in front of a redirection, or an operator
* `Shell.tokens` — the tokens of a script

## Design Notes

The script is read character by character by a machine whose state is the quoting in force and the
word begun, so that reading is a fold and needs no look-ahead.
-/

namespace PartitionUnits.Shell

open Text

/-- A part of a word. -/
inductive Fragment where
  | literal (text : List Char) (isQuoted : Bool)
  | parameter (name : String) (isQuoted : Bool)
deriving DecidableEq, Repr

/-- A word of a script. -/
abbrev Word := List Fragment

/-- What a script is cut into. -/
inductive Token where
  | word (w : Word)
  /-- A number directly in front of a redirection. -/
  | descriptor (n : Nat)
  | operator (c : Char)
deriving DecidableEq, Repr

/-- The quoting in force. -/
inductive Mode where
  | plain
  | single
  | double
  | escaped (inDouble : Bool)
  /-- A parameter's name has begun, after a dollar sign. -/
  | name (chars : List Char) (inDouble : Bool)
  /-- A parameter's name in braces has begun. -/
  | braced (chars : List Char) (inDouble : Bool)
  | comment
deriving DecidableEq, Repr

/-- The character that quotes everything. -/
def apostrophe : Char := Char.ofNat 0x27

/-- The characters that separate commands, group them or redirect. -/
def isOperator (c : Char) : Bool := c ∈ [';', '&', '|', '<', '>', '(', ')', Char.ofNat 0x60, '\n']

/-- The parameters that are named by one special character. -/
def isSpecialName (c : Char) : Bool := c ∈ ['$', '?', '@', '*', '#', '!', '-'] || c.isDigit

/-- Whether a character can be in a parameter's name. -/
def isNameChar (c : Char) : Bool := c.isAlphanum || c = '_'

/-- The state of the reader. -/
structure Reader where
  mode : Mode := .plain
  word : Option Word := none
  tokens : List Token := []
deriving Repr

namespace Reader

/-- Add a fragment to the word, which begins if there is none. -/
def add (r : Reader) (f : Fragment) : Reader := { r with word := some (r.word.getD [] ++ [f]) }

/-- Add a character to the word. -/
def addChar (r : Reader) (c : Char) (isQuoted : Bool) : Reader := r.add (.literal [c] isQuoted)

/-- Begin a quote, which makes a word even if it is empty. -/
def quote (r : Reader) (mode : Mode) : Reader := { r.add (.literal [] true) with mode }

/-- End the word, if there is one. -/
def close (r : Reader) : Reader :=
  match r.word with
  | none => r
  | some w => { r with word := none, tokens := r.tokens ++ [.word w] }

/-- The digits of an unquoted literal. -/
def digits? : Word → Option (List Char)
  | [] => some []
  | .literal cs false :: rest => if cs.all Char.isDigit then (digits? rest).map (cs ++ ·) else none
  | _ => none

/-- End the word in front of a redirection, where a number names a descriptor. -/
def closeBeforeRedirection (r : Reader) : Reader :=
  match r.word.bind digits? with
  | some (d :: ds) =>
    let n := (d :: ds).foldl (fun n c => n * 10 + (c.toNat - '0'.toNat)) 0
    { r with word := none, tokens := r.tokens ++ [.descriptor n] }
  | _ => r.close

/-- Read a character outside quotes. -/
def plain (r : Reader) (c : Char) : Reader :=
  if c = '\\' then { r with mode := .escaped false }
  else if c = apostrophe then r.quote .single
  else if c = '"' then r.quote .double
  else if c = '$' then { r with mode := .name [] false }
  else if c = ' ' || c = '\t' then r.close
  else if c = '#' && r.word = none then { r with mode := .comment }
  else if c = '<' || c = '>' then
    let r := r.closeBeforeRedirection
    { r with tokens := r.tokens ++ [.operator c] }
  else if isOperator c then
    let r := r.close
    { r with tokens := r.tokens ++ [.operator c] }
  else r.addChar c false

/-- Read a character in double quotes. -/
def double (r : Reader) (c : Char) : Reader :=
  if c = '"' then { r with mode := .plain }
  else if c = '\\' then { r with mode := .escaped true }
  else if c = '$' then { r with mode := .name [] true }
  else r.addChar c true

/-- The mode outside a parameter's name. -/
def outside (inDouble : Bool) : Mode := if inDouble then .double else .plain

/-- End a parameter's name; a dollar sign without a name stands for itself. -/
def closeName (r : Reader) (chars : List Char) (inDouble : Bool) : Reader :=
  let r := { r with mode := outside inDouble }
  if chars = [] then r.addChar '$' inDouble
  else r.add (.parameter (String.ofList chars) inDouble)

/-- Read a character after an ended name. -/
def afterName (r : Reader) (chars : List Char) (inDouble : Bool) (c : Char) : Reader :=
  let r := r.closeName chars inDouble
  if inDouble then r.double c else r.plain c

/-- Read a character. -/
def read (r : Reader) (c : Char) : Reader :=
  match r.mode with
  | .plain => r.plain c
  | .single => if c = apostrophe then { r with mode := .plain } else r.addChar c true
  | .double => r.double c
  | .escaped false =>
    let r := { r with mode := .plain }
    if c = '\n' then r else r.addChar c true
  | .escaped true =>
    let r := { r with mode := .double }
    if c ∈ ['$', '"', '\\', Char.ofNat 0x60] then r.addChar c true
    else if c = '\n' then r
    else (r.addChar '\\' true).addChar c true
  | .name [] inDouble =>
    if isSpecialName c then
      { r.add (.parameter c.toString inDouble) with mode := outside inDouble }
    else if c = Char.ofNat 0x7B then { r with mode := .braced [] inDouble }
    else if isNameChar c then { r with mode := .name [c] inDouble }
    else r.afterName [] inDouble c
  | .name chars inDouble =>
    if isNameChar c then { r with mode := .name (chars ++ [c]) inDouble }
    else r.afterName chars inDouble c
  | .braced chars inDouble =>
    if c = Char.ofNat 0x7D then r.closeName chars inDouble
    else { r with mode := .braced (chars ++ [c]) inDouble }
  | .comment =>
    if c = '\n' then { r with mode := .plain, tokens := r.tokens ++ [.operator c] } else r

/-- The tokens read so far; `none` inside a quote. -/
def finish (r : Reader) : Option (List Token) :=
  match r.mode with
  | .plain | .comment => some r.close.tokens
  | .escaped false => some (r.addChar '\\' true).close.tokens
  | .name chars false => some (r.closeName chars false).close.tokens
  | _ => none

end Reader

/-- The tokens of a script; `none` if a quote is never closed. -/
def tokens (script : List Char) : Option (List Token) :=
  (script.foldl Reader.read {}).finish

end PartitionUnits.Shell
