import SeedPhrase.Pattern.Written
import SeedPhrase.Text.Blank
import Std.Data.HashMap

/-!
# Reading a pattern

A pattern is read from left to right, each character with its place.  Where a pattern
has asked for it, blanks are skipped, and so are comments, which begin with a number
sign and end with the line.

* `Reading` — a step of reading: it takes characters, or finds a fault;
* `peek`, `advance`, `next` — the character at hand, and two ways to pass it: with or
  without what may be skipped behind it;
* `takeWhile` — as many characters of a kind as there are.
-/

namespace SeedPhrase.Pattern

/-- The rest of a pattern that is being read. -/
structure Reader where
  /-- The characters that are left. -/
  rest : List Char
  /-- The place of the first of them. -/
  place : Place
  /-- Whether blanks and comments are skipped. -/
  spaced : Bool
  /-- How many groups have a number already. -/
  groups : Nat
  /-- The names that groups already have, and where. -/
  names : Std.HashMap String Span

namespace Reader

/-- A pattern of which nothing is read yet. -/
def ofPattern (pattern : List Char) : Reader where
  rest := pattern
  place := .start
  spaced := false
  groups := 0
  names := ∅

/-- The rest of a text that begins at a place, without blanks and comments at its
beginning, and where it begins; `inComment` tells whether the text begins in a
comment. -/
def skipped : Bool → Place → List Char → List Char × Place
  | _, place, [] => ([], place)
  | true, place, c :: rest => skipped (c ≠ '\n') (place.after c) rest
  | false, place, c :: rest =>
    if c = '#' then skipped true (place.after c) rest
    else if Text.isBlank c then skipped false (place.after c) rest
    else (c :: rest, place)

/-- A reader behind so many characters. -/
def drop (reader : Reader) (count : Nat) : Reader :=
  { reader with
    rest := reader.rest.drop count
    place := (reader.rest.take count).foldl Place.after reader.place }

/-- A reader behind what may be skipped at hand. -/
def skip (reader : Reader) : Reader :=
  if reader.spaced then
    let (rest, place) := skipped false reader.place reader.rest
    { reader with rest := rest, place := place }
  else
    reader

end Reader

/-- A step of reading. -/
abbrev Reading := StateT Reader (Except Fault)

namespace Reading

/-- Find a fault in a part of the pattern. -/
def refuse {α : Type} (span : Span) (kind : Fault.Kind) : Reading α :=
  throw ⟨kind, span, none⟩

/-- The characters that are left. -/
def rest : Reading (List Char) := return (← get).rest

/-- The place of the character at hand. -/
def here : Reading Place := return (← get).place

/-- The character at hand, if any is left. -/
def peek : Reading (Option Char) := return (← rest).head?

/-- Whether nothing is left. -/
def atEnd : Reading Bool := return (← rest).isEmpty

/-- The place of the character at hand and that of the one behind it. -/
def spanHere : Reading Span := return ⟨(← get).place, ((← get).drop 1).place⟩

/-- Find a fault at the place at hand. -/
def refuseHere {α : Type} (kind : Fault.Kind) : Reading α := do
  refuse (.empty (← here)) kind

/-- Pass so many characters. -/
def pass (count : Nat) : Reading Unit := modify (·.drop count)

/-- Pass one character. -/
def advance : Reading Unit := pass 1

/-- Pass what may be skipped. -/
def skip : Reading Unit := modify Reader.skip

/-- Pass one character and what may be skipped behind it. -/
def next : Reading Unit := do
  advance
  skip

/-- Pass a text if it is at hand, and tell whether it was. -/
def passIf (text : String) : Reading Bool := do
  if text.toList.isPrefixOf (← rest) then
    pass text.length
    return true
  else
    return false

/-- Take characters of a kind, no more of them than `bound` has. -/
def takeUpTo (p : Char → Bool) : List Char → Reading (List Char)
  | [] => return []
  | _ :: bound => do
    match ← peek with
    | some c =>
      if p c then
        next
        return c :: (← takeUpTo p bound)
      else
        return []
    | none => return []

/-- Take characters as long as they are of a kind, passing what may be skipped behind
each. -/
def takeWhile (p : Char → Bool) : Reading (List Char) := do
  takeUpTo p (← rest)

end Reading

end SeedPhrase.Pattern
