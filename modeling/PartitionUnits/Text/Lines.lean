/-!
# Lines

A text is a sequence of lines, each ended by a line feed or by a carriage return and a line feed.

## Main Definitions

* `lines` — the lines of a text without their ends

## Design Notes

The last line need not be ended.  A carriage return counts as part of a line's end only in front of
a line feed, so that an unended last line keeps it.
-/

namespace PartitionUnits.Text

/-- The line without the carriage return that stood in front of its line feed. -/
def dropReturn (line : List Char) : List Char :=
  if line.getLast? = some '\r' then line.dropLast else line

/-- The lines of a text, without their ends. -/
def lines (cs : List Char) : List (List Char) :=
  let pieces := cs.splitOn '\n'
  pieces.dropLast.map dropReturn ++
    match pieces.getLast? with
    | none | some [] => []
    | some last => [last]

end PartitionUnits.Text
