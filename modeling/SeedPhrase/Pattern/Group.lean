import SeedPhrase.Pattern.Bracket
import SeedPhrase.Text.Letter

/-!
# Groups, alternatives and repetitions

Parentheses group a part of a pattern, bars separate alternatives, and a repetition
applies to the one part in front of it.  A question mark behind an opening
parenthesis makes it a special one: it gives the group a name or flags, or sets flags
for the rest of the group around it.

* `Node.ofPattern` — the tree of a written pattern, or the first fault in it.

A group that is not closed is reported at the innermost opening.
-/

namespace SeedPhrase.Pattern

open Reading

/-- The flags that items switch on or off: on, up to a hyphen, and then off. -/
def settingsOf : List (Span × Option Flag) → Settings
  | [] => []
  | (_, some flag) :: items => (flag, true) :: settingsOf items
  | (_, none) :: items =>
    items.filterMap fun item => item.2.map fun flag => (flag, false)

/-- Read flags up to the colon or parenthesis that ends them, no more of them than
`bound` has characters; a hyphen among them counts as an item.  `items` are those so far,
the last first. -/
def readFlags :
    List Char → List (Span × Option Flag) → Reading (List (Span × Option Flag))
  | [], _ => refuseHere .flagCutShort
  | _ :: bound, items => do
    let span ← spanHere
    match ← peek with
    | none => refuseHere .flagCutShort
    | some c =>
      if c = ':' ∨ c = ')' then
        match items.head? with
        | some (span, none) => refuse span .flagDangling
        | _ => return items
      else
        let flag := Flag.ofChar? c
        if c ≠ '-' ∧ flag = none then
          refuse span .flagUnknown
        match items.find? fun item => item.2 = flag with
        | some (earlier, _) =>
          let kind := if c = '-' then Fault.Kind.negationRepeated else .flagDuplicate
          throw ⟨kind, span, some earlier⟩
        | none =>
          advance
          if ← atEnd then
            refuseHere .flagCutShort
          readFlags bound ((span, flag) :: items)

/-- Whether a character can be in the name of a group; the first one is a letter or an
underscore. -/
def isNameChar (isFirst : Bool) (c : Char) : Bool :=
  c = '_' || Text.isLetter c ||
    (!isFirst && (c = '.' || c = '[' || c = ']' || Text.isNumber c))

/-- The characters of a name before the first that it cannot have. -/
def goodPart (isFirst : Bool) : List Char → List Char
  | [] => []
  | c :: cs => if isNameChar isFirst c then c :: goodPart false cs else []

/-- Read the name of a group, up to and with the sign that ends it. -/
def readName : Reading Unit := do
  let start ← here
  let name := (← rest).takeWhile (· ≠ '>')
  let good := goodPart true name
  match (name.drop good.length).head? with
  | some c =>
    let place := good.foldl Place.after start
    refuse ⟨place, place.after c⟩ .nameInvalid
  | none =>
    pass name.length
    let span : Span := ⟨start, ← here⟩
    if ← atEnd then
      refuseHere .nameCutShort
    advance
    if name = [] then
      refuse span .nameEmpty
    let key := String.ofList name
    match (← get).names[key]? with
    | some earlier => throw ⟨.nameDuplicate, span, some earlier⟩
    | none => modify fun reader => { reader with names := reader.names.insert key span }

/-- The number of a group that begins here. -/
def nextNumber : Reading Nat := do
  let number := (← get).groups + 1
  modify fun reader => { reader with groups := number }
  return number

/-- What an opening parenthesis begins. -/
inductive Opening
  /-- Flags for the rest of the group around them. -/
  | flags (span : Span) (settings : Settings)
  /-- A group, whose parenthesis is given, with its number and flags of its own. -/
  | group (span : Span) (number : Option Nat) (settings : Settings)

/-- Read what begins a group, from the parenthesis on. -/
def readOpening : Reading Opening := do
  let span ← spanHere
  next
  if (← passIf "?=") || (← passIf "?!") || (← passIf "?<=") || (← passIf "?<!") then
    refuse ⟨span.start, ← here⟩ .lookAround
  let inner ← here
  if (← passIf "?P<") || (← passIf "?<") then
    readName
    return .group span (← nextNumber) []
  else if ← passIf "?" then
    if ← atEnd then
      refuse span .groupUnclosed
    let items ← readFlags (← rest) []
    let settings := settingsOf items.reverse
    if (← peek) = some ':' then
      advance
      return .group span none settings
    else
      advance
      if items = [] then
        refuse (.empty inner) .repetitionMissing
      return .flags ⟨span.start, ← here⟩ settings
  else
    return .group span (← nextNumber) []

/-- A place of the tree at which reading goes on: alternatives that are complete, and
parts that stand one behind another.  Of both the last comes first. -/
structure OpenNode where
  /-- Where the first alternative begins. -/
  start : Place
  branches : List Node
  /-- Where the parts at hand begin. -/
  partsStart : Place
  parts : List Node

namespace OpenNode

/-- A place at which nothing is read yet. -/
def atPlace (place : Place) : OpenNode := ⟨place, [], place, []⟩

/-- One more part. -/
def push (level : OpenNode) (node : Node) : OpenNode :=
  { level with parts := node :: level.parts }

/-- The parts at hand as one, when they end at `place`. -/
def branch (level : OpenNode) (place : Place) : Node :=
  .ofSequence ⟨level.partsStart, place⟩ level.parts.reverse

/-- The parts at hand end at `place`, and another alternative begins at `next`. -/
def bar (level : OpenNode) (place next : Place) : OpenNode :=
  { level with branches := level.branch place :: level.branches, partsStart := next, parts := [] }

/-- Everything as one part that ends at `place`. -/
def close (level : OpenNode) (place : Place) : Node :=
  match level.branches with
  | [] => level.branch place
  | branches => .alternation ⟨level.start, place⟩ (level.branch place :: branches).reverse

end OpenNode

/-- A group of which the end is not yet read. -/
structure OpenGroup where
  /-- The opening parenthesis. -/
  span : Span
  number : Option Nat
  settings : Settings
  /-- Whether blanks are skipped around the group. -/
  spaced : Bool
  /-- What stands before the group. -/
  outer : OpenNode

/-- The last part at hand, to be repeated, and the place without it. -/
def partToRepeat (level : OpenNode) : Reading (Node × OpenNode) := do
  match level.parts with
  | [] | .empty _ :: _ | .flags _ _ :: _ => refuseHere .repetitionMissing
  | body :: parts => return (body, { level with parts := parts })

/-- Pass a question mark, by which a repetition asks for few, and tell whether there was
one. -/
def passLazy : Reading Bool := passIf "?"

/-- Read a repetition of one sign, which is at hand. -/
def readSign (level : OpenNode) (least : Nat) (most : Option Nat) : Reading OpenNode := do
  let (body, level) ← partToRepeat level
  advance
  let isLazy ← passLazy
  return level.push (.repetition ⟨body.span.start, ← here⟩ body least most isLazy)

/-- The greatest count. -/
def maxCount : Nat := 4294967295

/-- Read a count, with blanks around it.  That there is none, or one too great, is a
fault only if the braces are closed, so it is not yet found here. -/
def readCount : Reading (Except Fault Nat) := do
  let _ ← takeWhile Text.isBlank
  let start ← here
  let digits ← takeWhile Char.isDigit
  let span : Span := ⟨start, ← here⟩
  let _ ← takeWhile Text.isBlank
  let count := digits.foldl (fun count digit => 10 * count + (digit.toNat - '0'.toNat)) 0
  return if digits = [] then .error ⟨.countEmpty, span, none⟩
    else if maxCount < count then .error ⟨.decimalTooLarge, span, none⟩
    else .ok count

/-- A count that has to be there. -/
def countOf : Except Fault Nat → Reading Nat
  | .ok count => return count
  | .error fault => throw fault

/-- Find that the braces which begin at `start` are not closed, if nothing is left. -/
def requireMore (start : Place) : Reading Unit := do
  if ← atEnd then
    refuse ⟨start, ← here⟩ .countUnclosed

/-- Read the counts of a repetition, from the opening brace at `start` up to the closing
one: the least and, if there is one, the greatest. -/
def readCounts (start : Place) : Reading (Nat × Option Nat) := do
  next
  requireMore start
  let first ← readCount
  requireMore start
  if (← peek) = some ',' then
    next
    requireMore start
    let least ← countOf first
    if (← peek) = some '\x7d' then
      return (least, none)
    else
      return (least, some (← countOf (← readCount)))
  else
    let count ← countOf first
    return (count, some count)

/-- Read a repetition with counts in braces, from the opening brace on. -/
def readCounted (level : OpenNode) : Reading OpenNode := do
  let start ← here
  let (body, level) ← partToRepeat level
  let (least, most) ← readCounts start
  if (← peek) ≠ some '\x7d' then
    refuse ⟨start, ← here⟩ .countUnclosed
  next
  let isLazy ← passLazy
  let stop ← here
  if most.any (· < least) then
    refuse ⟨start, stop⟩ .countOrder
  return level.push (.repetition ⟨body.span.start, stop⟩ body least most isLazy)

/-- Read on in the innermost of some open groups until the pattern ends, in no more
than so many steps; each takes a character. -/
def readNodes : Nat → OpenNode → List OpenGroup → Reading Node
  | 0, level, _ => return level.close (← here)
  | count + 1, level, groups => do
    skip
    match ← peek with
    | none =>
      match groups with
      | [] => return level.close (← here)
      | opened :: _ => refuse opened.span .groupUnclosed
    | some '(' =>
      match ← readOpening with
      | .flags span settings =>
        modify fun reader =>
          { reader with spaced := (settings.lookup .spaced).getD reader.spaced }
        readNodes count (level.push (.flags span settings)) groups
      | .group span number settings =>
        let spaced := (← get).spaced
        modify fun reader => { reader with spaced := (settings.lookup .spaced).getD spaced }
        readNodes count (.atPlace (← here)) (⟨span, number, settings, spaced, level⟩ :: groups)
    | some ')' =>
      match groups with
      | [] => refuse (← spanHere) .groupUnopened
      | opened :: groups =>
        let body := level.close (← here)
        modify fun reader => { reader with spaced := opened.spaced }
        advance
        let node := Node.group ⟨opened.span.start, ← here⟩ opened.number opened.settings body
        readNodes count (opened.outer.push node) groups
    | some '|' =>
      let place ← here
      advance
      readNodes count (level.bar place (← here)) groups
    | some '[' => readNodes count (level.push (← readBracket)) groups
    | some '?' => readNodes count (← readSign level 0 (some 1)) groups
    | some '*' => readNodes count (← readSign level 0 none) groups
    | some '+' => readNodes count (← readSign level 1 none) groups
    | some '\x7b' => readNodes count (← readCounted level) groups
    | some c => readNodes count (level.push (← readPlain c)) groups

/-- The tree of a written pattern, or the first fault in it. -/
def Node.ofPattern (pattern : List Char) : Except Fault Node := do
  let (node, _) ← (readNodes (pattern.length + 1) (.atPlace .start) []).run (.ofPattern pattern)
  match node.nestedTooDeep? nestLimit with
  | some span => throw ⟨.nestedTooDeep, span, none⟩
  | none => return node

end SeedPhrase.Pattern
