import SeedPhrase.Pattern.Escape

/-!
# Classes in brackets

A class lists characters, ranges and other classes between brackets.  Two equal signs
in a row, `&&`, `--` or `~~`, join what stands before them in the class with what
follows up to the next such pair; of several pairs the first is done first.

* `readBracket` — a class, from its opening bracket on.

A bracket that is not closed is reported at the innermost opening.  A closing bracket
at the beginning of a class stands for itself, as do hyphens there.
-/

namespace SeedPhrase.Pattern

open Reading

/-- A class of which the end is not yet read. -/
structure OpenClass where
  /-- The opening: the bracket and the signs behind it that belong to it. -/
  opening : Span
  negated : Bool
  /-- What is to be joined with the items at hand. -/
  pending : Option (SetOperation × ClassSet)
  /-- Where the items at hand begin. -/
  start : Place
  /-- The items at hand, the last first. -/
  items : List ClassSet

namespace OpenClass

/-- One more item. -/
def push (level : OpenClass) (item : ClassSet) : OpenClass :=
  { level with items := item :: level.items }

/-- All items so far as one, joined with what is pending. -/
def joined (level : OpenClass) : ClassSet :=
  let item := ClassSet.ofItems level.start level.items.reverse
  match level.pending with
  | none => item
  | some (operation, left) =>
    .operation ⟨left.span.start, item.span.stop⟩ operation left item

/-- Everything so far is to be joined with what begins at `place`. -/
def await (level : OpenClass) (operation : SetOperation) (place : Place) : OpenClass :=
  { level with pending := some (operation, level.joined), start := place, items := [] }

/-- The class, when it ends at `place`. -/
def close (level : OpenClass) (place : Place) : ClassSet :=
  .bracketed ⟨level.opening.start, place⟩ level.negated level.joined

end OpenClass

/-- The operation of a sign that is written twice. -/
def setOperation? : Char → Option SetOperation
  | '&' => some .intersection
  | '-' => some .difference
  | '~' => some .symmetricDifference
  | _ => none

/-- Read hyphens at the beginning of a class, no more of them than `bound` has
characters; the class begins at `start`. -/
def readHyphens (start : Place) : List Char → Reading (List ClassSet)
  | [] => return []
  | _ :: bound => do
    if (← peek) ≠ some '-' then
      return []
    let hyphen := ClassSet.char ⟨← spanHere, '-', false⟩
    next
    if ← atEnd then
      refuse (.empty start) .classUnclosed
    return hyphen :: (← readHyphens start bound)

/-- Read the beginning of a class, from the opening bracket through the characters that
have a meaning of their own only here. -/
def openClass : Reading OpenClass := do
  let start ← here
  next
  if ← atEnd then
    refuse ⟨start, ← here⟩ .classUnclosed
  let negated := (← peek) = some '^'
  if negated then
    next
    if ← atEnd then
      refuse ⟨start, ← here⟩ .classUnclosed
  let begun ← here
  let hyphens ← readHyphens start (← rest)
  if hyphens = [] ∧ (← peek) = some ']' then
    let bracket := ClassSet.char ⟨← spanHere, ']', false⟩
    next
    if ← atEnd then
      refuse ⟨start, ← here⟩ .classUnclosed
    return ⟨⟨start, ← here⟩, negated, none, begun, [bracket]⟩
  return ⟨⟨start, ← here⟩, negated, none, begun, hyphens.reverse⟩

/-- The number of characters of the longest name that a class of ASCII characters has. -/
def longestName : Nat := 6

/-- The name of a class of ASCII characters at the beginning of a text, whether it is
negated, and how many characters it takes: `[:name:]` or `[:^name:]`. -/
def namedClass? (text : List Char) : Option (Bool × AsciiClass × Nat) :=
  match text with
  | '[' :: ':' :: rest =>
    let negated := rest.head? = some '^'
    let rest := if negated then rest.tail else rest
    let name := (rest.take longestName).takeWhile (· ≠ ':')
    if (rest.drop name.length).take 2 = [':', ']'] then
      (AsciiClass.ofName? (String.ofList name)).map fun named =>
        (negated, named, name.length + if negated then 5 else 4)
    else
      none
  | _ => none

/-- Read one character or escape in a class. -/
def readClassAtom : Reading Node := do
  if (← peek) = some '\\' then
    readEscape
  else
    let span ← spanHere
    match ← peek with
    | some c =>
      advance
      return .char ⟨span, c, false⟩
    | none => return .empty span

/-- What stands in a class, as an item of it. -/
def classItem : Node → Reading ClassSet
  | .char literal => return .char literal
  | .oneOf item => return item
  | node => refuse node.span .classEscape

/-- What stands at an end of a range, as a single character. -/
def rangeBound : Node → Reading Literal
  | .char literal => return literal
  | node => refuse node.span .rangeBound

/-- The sign behind the hyphen at hand that decides whether the hyphen makes a range.
Blanks do not count where they are skipped, nor does the sign of a comment, though
the comment does. -/
def behindHyphen (reader : Reader) : Option Char :=
  let behind := reader.rest.tail
  if reader.spaced then
    let bare := behind.dropWhile Text.isBlank
    let bare := if bare.head? = some '#' then bare.tail.dropWhile Text.isBlank else bare
    bare.head?.or behind.head?
  else
    behind.head?

/-- Read a range, or a single item, of a class whose opening is given. -/
def readRange (opening : Span) : Reading ClassSet := do
  let first ← readClassAtom
  skip
  if ← atEnd then
    refuse opening .classUnclosed
  let sign := behindHyphen (← get)
  if (← peek) ≠ some '-' ∨ sign = some ']' ∨ sign = some '-' then
    classItem first
  else
    next
    if ← atEnd then
      refuse opening .classUnclosed
    let last ← readClassAtom
    let span : Span := ⟨first.span.start, last.span.stop⟩
    let lower ← rangeBound first
    let upper ← rangeBound last
    if upper.char < lower.char then
      refuse span .rangeOrder
    return .range span lower upper

/-- Read on in the innermost of some open classes until the outermost is closed, in no
more steps than `bound` has characters; each takes a character. -/
def readItems : List Char → OpenClass → List OpenClass → Reading ClassSet
  | [], level, _ => refuse level.opening .classUnclosed
  | _ :: bound, level, outer => do
    skip
    match ← rest with
    | [] => refuse level.opening .classUnclosed
    | ']' :: _ =>
      advance
      let closed := level.close (← here)
      match outer with
      | [] => return closed
      | parent :: outer => readItems bound (parent.push closed) outer
    | '[' :: behind =>
      match namedClass? ('[' :: behind) with
      | some (negated, name, length) =>
        let start ← here
        pass length
        readItems bound (level.push (.named ⟨start, ← here⟩ negated name)) outer
      | none => readItems bound (← openClass) (level :: outer)
    | c :: behind =>
      match if behind.head? = some c then setOperation? c else none with
      | some operation =>
        pass 2
        readItems bound (level.await operation (← here)) outer
      | none => readItems bound (level.push (← readRange level.opening)) outer

/-- Read a class, from its opening bracket on. -/
def readBracket : Reading Node := do
  let bound ← rest
  let level ← openClass
  return .oneOf (← readItems bound level [])

end SeedPhrase.Pattern
