/-!
# Lines of a text

A line ends at a line feed, and a carriage return directly in front of the line
feed belongs to the line end.  The last line need not be ended: what follows the
last line feed is a line of its own unless it is empty, and a carriage return at
its end is then part of it, for no line feed follows.

* `lines` — the lines of a text, without their ends;
* `lines_append_end` — a line in front of a text, under either kind of end, is
  its first line;
* `lines_empty`, `lines_of_open` — texts without a line feed.
-/

namespace SeedPhrase.Text

/-- A line whose line feed is already gone, without the carriage return that
stood before it. -/
def chomp (line : List Char) : List Char :=
  if line.getLast? = some '\r' then line.dropLast else line

/-- The line after the last line feed, if there is anything in it. -/
def openLine (line : List Char) : List (List Char) :=
  if line = [] then [] else [line]

/-- The lines that a sequence of pieces between line feeds stands for: the last
piece is the one that no line feed ends. -/
def linesOfPieces : List (List Char) → List (List Char)
  | [] => []
  | [last] => openLine last
  | piece :: pieces => chomp piece :: linesOfPieces pieces

/-- The lines of a text, without their ends. -/
def lines (text : String) : List String :=
  (linesOfPieces (text.toList.splitOn '\n')).map String.ofList

/-- Where there are more pieces, the first was ended by a line feed. -/
theorem linesOfPieces_cons {pieces : List (List Char)} (h : pieces ≠ []) (piece : List Char) :
    linesOfPieces (piece :: pieces) = chomp piece :: linesOfPieces pieces := by
  cases pieces with
  | nil => exact absurd rfl h
  | cons p ps => rfl

/-- A carriage return in front of the line feed is dropped. -/
theorem chomp_append_cr (line : List Char) : chomp (line ++ ['\r']) = line := by
  simp [chomp]

/-- A line that has no carriage return at its end is kept as it is. -/
theorem chomp_of_getLast?_ne {line : List Char} (h : line.getLast? ≠ some '\r') :
    chomp line = line := if_neg h

/-- **A line is read first.**  The part of a text up to its first line feed is its
first line, and the other lines are those of the rest. -/
theorem lines_append_end {line : List Char} (h : '\n' ∉ line) (rest : List Char) :
    lines (String.ofList (line ++ '\n' :: rest)) =
      String.ofList (chomp line) :: lines (String.ofList rest) := by
  simp only [lines, String.toList_ofList]
  rw [List.splitOn_append_cons_self_of_not_mem h, linesOfPieces_cons (List.splitOn_ne_nil _ _),
    List.map_cons]

/-- An empty text has no lines. -/
theorem lines_empty : lines "" = [] := by
  simp [lines, linesOfPieces, openLine]

/-- What no line feed ends is a line, if there is anything. -/
theorem lines_of_open {line : String} (hne : line ≠ "") (hfeed : '\n' ∉ line.toList) :
    lines line = [line] := by
  have hopen : openLine line.toList = [line.toList] := if_neg (by simpa using hne)
  rw [lines, List.splitOn_eq_singleton hfeed, linesOfPieces, hopen, List.map_singleton,
    String.ofList_toList]

end SeedPhrase.Text
