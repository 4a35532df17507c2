import SeedPhrase.Text.Lines

/-!
# Faults of a pattern

A pattern that cannot be used is refused for one fault, and the fault says where it
is: the pattern is printed once more, and carets stand under the place.

* `Fault.Kind.message` — what is wrong, in words;
* `Fault.display` — the pattern, the carets and the words.

A pattern of one line is set off by four blanks.  In a pattern of several lines every
line bears its number, rules enclose the whole, and a place that begins and ends on
different lines is named in words instead.
-/

namespace SeedPhrase.Pattern

/-- A place in a pattern: its line, and its column in that line, both counted from
one. -/
structure Place where
  line : Nat
  column : Nat
deriving DecidableEq, Repr, Ord

namespace Place

/-- The beginning of a pattern. -/
def start : Place := ⟨1, 1⟩

/-- The place behind a character. -/
def after (place : Place) (c : Char) : Place :=
  if c = '\n' then ⟨place.line + 1, 1⟩ else ⟨place.line, place.column + 1⟩

end Place

/-- A part of a pattern, from one place to another. -/
structure Span where
  start : Place
  stop : Place
deriving DecidableEq, Repr, Ord

namespace Span

/-- The part of no characters at a place. -/
def empty (place : Place) : Span := ⟨place, place⟩

/-- Whether a part begins and ends on the same line. -/
def isOnOneLine (span : Span) : Bool := span.start.line = span.stop.line

end Span

/-- How many groups, classes and repetitions may stand one in another. -/
def nestLimit : Nat := 250

namespace Fault

/-- What can be wrong with a part of a pattern. -/
inductive Kind
  /-- A class holds an escape that stands for no characters. -/
  | classEscape
  /-- A range ends before it begins. -/
  | rangeOrder
  /-- A range begins or ends with something other than one character. -/
  | rangeBound
  | classUnclosed
  | decimalTooLarge
  | hexEmpty
  | hexNoCharacter
  | hexDigit
  | escapeCutShort
  | escapeUnknown
  | flagDangling
  | flagDuplicate
  | negationRepeated
  | flagCutShort
  | flagUnknown
  | nameDuplicate
  | nameEmpty
  | nameInvalid
  | nameCutShort
  | groupUnclosed
  | groupUnopened
  | nestedTooDeep
  /-- A repetition has its upper count below its lower one. -/
  | countOrder
  | countEmpty
  | countUnclosed
  /-- There is nothing to be repeated. -/
  | repetitionMissing
  | wordBraceUnclosed
  | wordBraceUnknown
  | wordBraceCutShort
  | propertyName
  | backreference
  | lookAround
  /-- A part confined to bytes names a character that is none. -/
  | beyondBytes
  /-- A part confined to bytes fits a byte that is no character. -/
  | noCharacter
  | propertyUnknown
  | propertyValueUnknown
  | shorthandUnknown
  | caseUnknown
deriving DecidableEq, Repr

/-- What is wrong, in words. -/
def Kind.message : Kind → String
  | classEscape => "invalid escape sequence found in character class"
  | rangeOrder => "invalid character class range, the start must be <= the end"
  | rangeBound => "invalid range boundary, must be a literal"
  | classUnclosed => "unclosed character class"
  | decimalTooLarge => "decimal literal invalid"
  | hexEmpty => "hexadecimal literal empty"
  | hexNoCharacter => "hexadecimal literal is not a Unicode scalar value"
  | hexDigit => "invalid hexadecimal digit"
  | escapeCutShort => "incomplete escape sequence, reached end of pattern prematurely"
  | escapeUnknown => "unrecognized escape sequence"
  | flagDangling => "dangling flag negation operator"
  | flagDuplicate => "duplicate flag"
  | negationRepeated => "flag negation operator repeated"
  | flagCutShort => "expected flag but got end of regex"
  | flagUnknown => "unrecognized flag"
  | nameDuplicate => "duplicate capture group name"
  | nameEmpty => "empty capture group name"
  | nameInvalid => "invalid capture group character"
  | nameCutShort => "unclosed capture group name"
  | groupUnclosed => "unclosed group"
  | groupUnopened => "unopened group"
  | nestedTooDeep =>
    "exceed the maximum number of nested parentheses/brackets (" ++ toString nestLimit ++ ")"
  | countOrder => "invalid repetition count range, the start must be <= the end"
  | countEmpty => "repetition quantifier expects a valid decimal"
  | countUnclosed => "unclosed counted repetition"
  | repetitionMissing => "repetition operator missing expression"
  | wordBraceUnclosed =>
    "special word boundary assertion is either unclosed or contains an invalid character"
  | wordBraceUnknown =>
    "unrecognized special word boundary assertion, " ++
      "valid choices are: start, end, start-half or end-half"
  | wordBraceCutShort =>
    "found either the beginning of a special word boundary or a bounded repetition on a \\b " ++
      "with an opening brace, but no closing brace"
  | propertyName => "invalid Unicode character class"
  | backreference => "backreferences are not supported"
  | lookAround => "look-around, including look-ahead and look-behind, is not supported"
  | beyondBytes => "Unicode not allowed here"
  | noCharacter => "pattern can match invalid UTF-8"
  | propertyUnknown => "Unicode property not found"
  | propertyValueUnknown => "Unicode property value not found"
  | shorthandUnknown =>
    "Unicode-aware Perl class not found (make sure the unicode-perl feature is enabled)"
  | caseUnknown =>
    "Unicode-aware case insensitivity matching is not available " ++
      "(make sure the unicode-case feature is enabled)"

end Fault

/-- What is wrong with a pattern, and where; some faults need a second place, where
that stands which is not to be repeated. -/
structure Fault where
  kind : Fault.Kind
  span : Span
  other : Option Span
deriving DecidableEq, Repr

namespace Fault

/-- The parts of the pattern that a fault is about, in their order. -/
def spans (fault : Fault) : List Span :=
  (fault.span :: fault.other.toList).mergeSort fun x y => (compare x y).isLE

/-- So many copies of a character. -/
def copies (count : Nat) (c : Char) : String := String.ofList (List.replicate count c)

/-- The carets under some parts of a line, after a margin; the first part that is not
yet passed is aligned, and a part of no characters gets one caret. -/
def carets (margin : Nat) (spans : List Span) : String :=
  spans.foldl
    (fun line span =>
      let gap := margin + (span.start.column - 1) - line.length
      line ++ copies gap ' ' ++ copies (max 1 (span.stop.column - span.start.column)) '^')
    (copies margin ' ')

/-- A line of a pattern behind its margin, and under it its carets, if any. -/
def notedLine (margin : String) (number : Nat) (line : String) (spans : List Span) : String :=
  let here := spans.filter fun span => span.isOnOneLine && span.start.line = number
  margin ++ line ++ "\n" ++
    if here = [] then "" else carets margin.length here ++ "\n"

/-- The number of lines of a pattern; behind a last line feed a further line begins. -/
def lineCount (pattern : String) : Nat :=
  (Text.lines pattern).length + if pattern.toList.getLast? = some '\n' then 1 else 0

/-- What stands before a line: four blanks, or its number if there are several. -/
def margin (lineCount number : Nat) : String :=
  if lineCount ≤ 1 then copies 4 ' '
  else
    let width := (toString lineCount).length
    copies (width - (toString number).length) ' ' ++ toString number ++ ": "

/-- The lines of a pattern with their margins and carets. -/
def noted (pattern : String) (spans : List Span) : String :=
  let count := lineCount pattern
  String.join ((Text.lines pattern).mapIdx fun i line =>
    notedLine (margin count (i + 1)) (i + 1) line spans)

/-- A part that begins and ends on different lines, in words. -/
def extent (span : Span) : String :=
  "on line " ++ toString span.start.line ++ " (column " ++ toString span.start.column ++
    ") through line " ++ toString span.stop.line ++ " (column " ++
    toString (span.stop.column - 1) ++ ")"

/-- A fault of a pattern as it is told: the pattern, the place and the words. -/
def display (pattern : String) (fault : Fault) : String :=
  let body := noted pattern fault.spans
  let words := "error: " ++ fault.kind.message
  if '\n' ∈ pattern.toList then
    let rule := copies 79 '~' ++ "\n"
    let extents := (fault.spans.filter fun span => !span.isOnOneLine).map extent
    "regex parse error:\n" ++ rule ++ body ++ rule ++
      (if extents = [] then "" else "\n".intercalate extents ++ "\n") ++ words
  else
    "regex parse error:\n" ++ body ++ words

end Fault

end SeedPhrase.Pattern
