import Logbook.Json.Writer
import Logbook.Query
import Logbook.Text.Width

/-!
# Tables

Answers are shown as a table in a rounded frame: one column for each key that some entry has, in the
order in which the keys first come, one row for each entry, and a rule under the names of the
columns.  A cell may have several lines; a column is as wide as its widest line.

* `Answer.columns`, `Value.cell`: what the table shows.
* `Table.draw`: the table itself.
* `Answer.summary`: the table with a line that counts.
-/

namespace Logbook

/-! ## Contents -/

/-- The keys of the entries, each once, in the order in which they first come. -/
def Value.columns (data : List Value) : List String :=
  (data.flatMap fun entry => Members.keys (entry.members?.getD [])).eraseDups

/-- The text of a value in a table.  A list of maps is only counted. -/
def Value.cell : Value → String
  | .null => ""
  | .str s => s
  | .list items =>
    if !items.isEmpty && items.all fun item => item.members?.isSome then
      "[" ++ toString items.length ++ " records]"
    else
      (Value.list items).text
  | v => v.text

/-- The cells of an entry; where it has no such key, the cell is empty. -/
def Value.row (columns : List String) (entry : Value) : List String :=
  columns.map fun column =>
    ((entry.members?.bind (Members.get? column)).map Value.cell).getD ""

/-! ## Drawing -/

namespace Table

/-- The lines of a cell. -/
def cellLines (cell : String) : List (List Char) := cell.toList.splitOn '\n'

/-- The lines of the cells of a row. -/
abbrev Row := List (List (List Char))

/-- The width of the widest line of each column. -/
def widths (rows : List Row) : List Nat :=
  rows.foldl
    (fun ws row => (List.range (max ws.length row.length)).map fun i =>
      ((row[i]?.getD []).map Text.Width.ofChars).foldl max (ws[i]?.getD 0)) []

/-- Joins parts with a separator and puts ends around them. -/
def frame (left between right : Char) (parts : List (List Char)) : List Char :=
  left :: ([between].intercalate parts ++ [right])

/-- A line of the frame. -/
def rule (left between right : Char) (ws : List Nat) : List Char :=
  frame left between right (ws.map fun w => List.replicate (w + 2) '─')

/-- A line of a cell, filled up to the width of its column, with a blank on either side. -/
def padded (width : Nat) (line : List Char) : List Char :=
  ' ' :: (line ++ List.replicate (width - Text.Width.ofChars line + 1) ' ')

/-- The lines of a row. -/
def rowLines (ws : List Nat) (row : Row) : List (List Char) :=
  let height := (row.map List.length).foldl max 1
  (List.range height).map fun i =>
    frame '│' '│' '│' (ws.zipWith (fun w cell => padded w (cell[i]?.getD [])) row)

/-- A table from the names of its columns and the cells of its rows; without columns, nothing. -/
def draw (header : List String) (rows : List (List String)) : String :=
  if header.isEmpty then ""
  else
    let header : Row := header.map cellLines
    let rows : List Row := rows.map fun row => row.map cellLines
    let ws := widths (header :: rows)
    let top := rule '╭' '┬' '╮' ws
    let under := rule '├' '┼' '┤' ws
    let bottom := rule '╰' '┴' '╯' ws
    String.ofList
      (['\n'].intercalate
        (top :: rowLines ws header ++ (under :: (rows.flatMap (rowLines ws)) ++ [bottom])))

end Table

/-! ## Answers -/

/-- The entries of an answer as a table. -/
def Value.table (data : List Value) : String :=
  let columns := Value.columns data
  Table.draw columns (data.map (Value.row columns))

namespace Answer

/-- Reads an answer; members that are not there count for nothing.  A list of the members in order
serves as well. -/
def ofValue? : Value → Option Answer
  | .map ms =>
    match (Members.get? "data" ms).elim (some []) Value.items?,
        (Members.get? "count" ms).elim (some 0) Value.natural?,
        (Members.get? "total-count" ms).elim (some 0) Value.natural? with
    | some data, some count, some total => some ⟨data, count, total⟩
    | _, _, _ => none
  | .list xs =>
    match xs[0]?.elim (some []) Value.items?, xs[1]?.elim (some 0) Value.natural?,
        xs[2]?.elim (some 0) Value.natural? with
    | some data, some count, some total => if xs.length ≤ 3 then some ⟨data, count, total⟩ else none
    | _, _, _ => none
  | _ => none

/-- An answer as it is shown: the table, and a line that counts. -/
def summary (a : Answer) : String :=
  let matched := " (" ++ toString a.totalCount ++ " records matched)"
  if a.data.isEmpty then "No entries" ++ matched
  else Value.table a.data ++ "\n" ++ toString a.count ++ " entries" ++ matched

end Answer

end Logbook
