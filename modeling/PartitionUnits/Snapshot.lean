import PartitionUnits.FileSystem.Change

/-!
# Describing worlds

Worlds are put together from descriptions of their files and looked at through snapshots.

## Main Definitions

* `Tree.plant` — puts an entry at a path, with the directories it needs
* `Tree.uproot` — takes everything at a path away
* `Tree.snapshot` — everything below a directory, by relative path
* `maskTemporaries` — a text without the random part of temporary names

## Design Notes

Putting and taking follow links on the way but not at the end, like a hand that arranges files.
-/

namespace PartitionUnits

open Text

namespace Tree

/-- The location of names below a location; directories that are missing are made, and links on
the way are followed. -/
def ensure (t : Tree) (here : Location) : List Name → Tree × Location
  | [] => (t, here)
  | name :: rest =>
    if name = [dot] then ensure t here rest
    else if name = [dot, dot] then ensure t here.dropLast rest
    else
      let l := here ++ [name]
      match t.entry? l with
      | none => ensure (t.insert l (.directory directoryMode)) l rest
      | some (.link _) => ensure t (((t.locate true l.path).toOption).getD l) rest
      | some _ => ensure t l rest

/-- Put an entry at a path, with the directories it needs. -/
def plant (t : Tree) (p : Path) (e : Entry) : Tree :=
  match p.names.getLast? with
  | none => t
  | some name =>
    let (t, directory) := t.ensure [] p.names.dropLast
    match t.entry? (directory ++ [name]), e with
    | some (.directory _), .directory mode => t.insert (directory ++ [name]) (.directory mode)
    | _, e => t.insert (directory ++ [name]) e

/-- Take everything at a path away. -/
def uproot (t : Tree) (p : Path) : Tree :=
  match t.locate false p with
  | .ok l => t.eraseAll l
  | .error _ => t

/-- Everything below a directory, by the path from there. -/
def snapshot (t : Tree) (p : Path) : List (Path × Entry) :=
  match t.locate true p with
  | .error _ => []
  | .ok l =>
    t.entries.filterMap fun (at_, e) =>
      if l.isPrefixOf at_ && at_ ≠ l then
        some (⟨[slash].intercalate (at_.drop l.length)⟩, e)
      else none

end Tree

/-- Whether a character can be in the random part of a temporary name. -/
def isTemporaryChar (c : Char) : Bool := c.isAlphanum

/-- A text with each of up to `count` random characters at its start replaced. -/
def maskStart : Nat → List Char → List Char
  | 0, cs => cs
  | _, [] => []
  | n + 1, c :: cs => if isTemporaryChar c then 'X' :: maskStart n cs else c :: cs

/-- A text without the random part of temporary names. -/
def maskChars : List Char → List Char
  | [] => []
  | c :: cs =>
    let masked := maskChars cs
    if temporaryMark.isPrefixOf (c :: cs) then
      (c :: masked).take temporaryMark.length ++
        maskStart 6 ((c :: masked).drop temporaryMark.length)
    else c :: masked

/-- A text without the random part of temporary names. -/
def maskTemporaries (s : String) : String := String.ofList (maskChars s.toList)

end PartitionUnits
