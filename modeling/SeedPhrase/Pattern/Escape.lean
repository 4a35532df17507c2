import SeedPhrase.Pattern.Reading

/-!
# Escapes

A backslash gives the character behind it another meaning: a sign of the pattern
language stands for itself, and a letter names a character, a class of characters or
an assertion.  What has no such meaning is refused, so that it may get one some day.

* `readEscape` — the part that an escape writes;
* `readPlain` — the part that any other character writes.
-/

namespace SeedPhrase.Pattern

open Reading

/-- Whether a character has a meaning of its own in patterns. -/
def isSign (c : Char) : Bool :=
  c ∈ ['\\', '.', '+', '*', '?', '(', ')', '|', '[', ']', '\x7b', '\x7d', '^', '$', '#', '&',
    '-', '~']

/-- Whether a character stands for itself behind a backslash: every sign does, and
every other ASCII character that is neither a letter nor a digit nor a bracket of
words. -/
def standsForItself (c : Char) : Bool :=
  isSign c || (c.toNat < 0x80 && !c.isAlphanum && c ≠ '<' && c ≠ '>')

/-- Whether a character is a hexadecimal digit. -/
def isHex (c : Char) : Bool :=
  c.isDigit || ('a' ≤ c && c ≤ 'f') || ('A' ≤ c && c ≤ 'F')

/-- The value of a hexadecimal digit. -/
def hexValue (c : Char) : Nat :=
  if c.isDigit then c.toNat - '0'.toNat else c.toLower.toNat - 'a'.toNat + 10

/-- The character whose code has some hexadecimal digits, if it is one. -/
def charOfHex? (digits : List Char) : Option Char :=
  let code := digits.foldl (fun code digit => 16 * code + hexValue digit) 0
  if code.isValidChar then some (Char.ofNat code) else none

/-- Read so many hexadecimal digits. -/
def readHexDigits : Nat → Reading (List Char)
  | 0 => return []
  | count + 1 => do
    match ← peek with
    | none => refuseHere .escapeCutShort
    | some c =>
      if isHex c then
        next
        return c :: (← readHexDigits count)
      else
        refuse (← spanHere) .hexDigit

/-- The number of digits of a code that stands without braces behind a letter. -/
def hexWidth (letter : Char) : Nat :=
  if letter = 'x' then 2 else if letter = 'u' then 4 else 8

/-- Read a code in braces, from the opening brace on, of an escape that begins at
`start`. -/
def readBracedHex (start : Place) : Reading Literal := do
  let brace ← here
  let begun := (← spanHere).stop
  next
  let digits ← takeWhile isHex
  match ← peek with
  | none => refuse ⟨brace, ← here⟩ .escapeCutShort
  | some c =>
    if c ≠ '\x7d' then
      refuse (← spanHere) .hexDigit
    let ended ← here
    next
    if digits = [] then
      refuse ⟨brace, ← here⟩ .hexEmpty
    match charOfHex? digits with
    | some char => return ⟨⟨start, ← here⟩, char, false⟩
    | none => refuse ⟨begun, ended⟩ .hexNoCharacter

/-- Read a character by its code, from the letter `x`, `u` or `U` on. -/
def readHex (start : Place) (letter : Char) : Reading Literal := do
  next
  match ← peek with
  | none => refuseHere .escapeCutShort
  | some '\x7b' => readBracedHex start
  | some _ =>
    let begun ← here
    let digits ← readHexDigits (hexWidth letter)
    match charOfHex? digits with
    | some char => return ⟨⟨start, ← here⟩, char, letter = 'x'⟩
    | none => refuse ⟨begun, ← here⟩ .hexNoCharacter

/-- Read a property of characters, from the letter `p` or `P` on.  Its name is one
character or stands in braces. -/
def readProperty (start : Place) : Reading Node := do
  next
  match ← peek with
  | none => refuseHere .escapeCutShort
  | some '\x7b' =>
    next
    let name ← takeWhile (· ≠ '\x7d')
    if ← atEnd then
      refuseHere .escapeCutShort
    advance
    return .oneOf (.property ⟨start, ← here⟩ name)
  | some '\\' => refuse (← spanHere) .propertyName
  | some c =>
    next
    return .oneOf (.property ⟨start, ← here⟩ [c])

/-- Whether a character can be in the name of an assertion about words. -/
def isWordNameChar (c : Char) : Bool := c.isAlpha || c = '-'

/-- The assertion about words that a name in braces stands for. -/
def wordAnchor? (name : List Char) : Option Anchor :=
  if name = "start".toList then some .wordStart
  else if name = "end".toList then some .wordEnd
  else if name = "start-half".toList then some .wordStartHalf
  else if name = "end-half".toList then some .wordEndHalf
  else none

/-- Read the name of an assertion about words from its opening brace on, unless the
brace begins a count.  The escape begins at `start`. -/
def readWordName? (start : Place) : Reading (Option Anchor) := do
  let reader ← get
  let brace ← here
  next
  let begun ← here
  match ← peek with
  | none => refuse ⟨start, begun⟩ .wordBraceCutShort
  | some c =>
    if !isWordNameChar c then
      set reader
      return none
    let name ← takeWhile isWordNameChar
    let ended ← here
    if (← peek) ≠ some '\x7d' then
      refuse ⟨brace, ended⟩ .wordBraceUnclosed
    advance
    match wordAnchor? name with
    | some anchor => return some anchor
    | none => refuse ⟨begun, ended⟩ .wordBraceUnknown

/-- The character that a letter stands for behind a backslash. -/
def controlChar? : Char → Option Char
  | 'a' => some '\x07'
  | 'f' => some '\x0c'
  | 't' => some '\t'
  | 'n' => some '\n'
  | 'r' => some '\r'
  | 'v' => some '\x0b'
  | _ => none

/-- The assertion that a character stands for behind a backslash. -/
def anchor? : Char → Option Anchor
  | 'A' => some .textStart
  | 'z' => some .textEnd
  | 'b' => some .wordBoundary
  | 'B' => some .noWordBoundary
  | '<' => some .wordStart
  | '>' => some .wordEnd
  | _ => none

/-- The class of characters that a letter stands for behind a backslash, and whether it
is the class of all others. -/
def shorthand? : Char → Option (Bool × Shorthand)
  | 'd' => some (false, .digit)
  | 's' => some (false, .space)
  | 'w' => some (false, .word)
  | 'D' => some (true, .digit)
  | 'S' => some (true, .space)
  | 'W' => some (true, .word)
  | _ => none

/-- Read an escape of one character behind the backslash. -/
def readShortEscape (start : Place) (c : Char) : Reading Node := do
  advance
  let span : Span := ⟨start, ← here⟩
  if standsForItself c then
    return .char ⟨span, c, false⟩
  match shorthand? c, controlChar? c, anchor? c with
  | some (negated, name), _, _ => return .oneOf (.shorthand span negated name)
  | _, some char, _ => return .char ⟨span, char, false⟩
  | _, _, some anchor =>
    if anchor = .wordBoundary ∧ (← peek) = some '\x7b' then
      match ← readWordName? start with
      | some anchor => return .anchor ⟨start, ← here⟩ anchor
      | none => return .anchor span anchor
    else
      return .anchor span anchor
  | _, _, _ => refuse span .escapeUnknown

/-- Read an escape, from the backslash on. -/
def readEscape : Reading Node := do
  let start ← here
  advance
  match ← peek with
  | none => refuse ⟨start, ← here⟩ .escapeCutShort
  | some c =>
    if c.isDigit then
      refuse ⟨start, (← spanHere).stop⟩ .backreference
    else if c = 'x' ∨ c = 'u' ∨ c = 'U' then
      return .char (← readHex start c)
    else if c = 'p' ∨ c = 'P' then
      readProperty start
    else
      readShortEscape start c

/-- Read a part of one character `c`, which is at hand and begins no group, class,
alternative or repetition. -/
def readPlain (c : Char) : Reading Node := do
  if c = '\\' then
    readEscape
  else
    let span ← spanHere
    advance
    return match c with
    | '.' => .dot span
    | '^' => .anchor span .lineStart
    | '$' => .anchor span .lineEnd
    | c => .char ⟨span, c, false⟩

end SeedPhrase.Pattern
