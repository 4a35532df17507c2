import SeedPhrase.Pattern.Basic

/-!
# Patterns in simple form

Of the ways to put the same parts together one is kept.  Parts one behind another are
nested to the right, with no empty part among them and no two texts side by side;
alternatives are nested to the right as well, are joined to a set where each of them is
one character, and share no beginning.

* `sequence`, `alternation`, `repeated`, `ofSet` — patterns in simple form, from parts in
  simple form;
* `parts`, `branches` — what a pattern consists of;
* `takesNothing`, `takesSome`, `everySetHolds` — what can be told of the texts that fit.
-/

namespace SeedPhrase.Pattern

/-- Whether only the empty text can fit a pattern. -/
def takesNothing : Pattern → Bool
  | empty => true
  | text _ => false
  | one _ _ => false
  | check _ _ => true
  | group _ body => takesNothing body
  | seq first second => takesNothing first && takesNothing second
  | alt left right => takesNothing left && takesNothing right
  | times body _ _ _ => takesNothing body

/-- Whether each text that fits a pattern has a character, as far as its form tells. -/
def takesSome : Pattern → Bool
  | empty => false
  | text _ => true
  | one _ _ => true
  | check _ _ => false
  | group _ body => takesSome body
  | seq first second => takesSome first || takesSome second
  | alt left right => takesSome left && takesSome right
  | times body least _ _ => least ≠ 0 && takesSome body

/-- Whether no set in a pattern is empty. -/
def everySetHolds : Pattern → Bool
  | one set _ => set ≠ .nothing
  | empty | text _ | check _ _ => true
  | group _ body => everySetHolds body
  | seq first second => everySetHolds first && everySetHolds second
  | alt left right => everySetHolds left && everySetHolds right
  | times body _ _ _ => everySetHolds body

/-- Whether a pattern asks for words of all scripts. -/
def asksAllScripts : Pattern → Bool
  | check _ allScripts => allScripts
  | empty | text _ | one _ _ => false
  | group _ body => asksAllScripts body
  | seq first second => asksAllScripts first || asksAllScripts second
  | alt left right => asksAllScripts left || asksAllScripts right
  | times body _ _ _ => asksAllScripts body

/-- The pattern that nothing fits. -/
def never : Pattern := one .nothing true

/-- One character of a set. -/
def ofSet (set : CharSet) (inAscii : Bool) : Pattern :=
  match set.ranges with
  | [] => never
  | [range] => if range.first = range.last then text [range.first] else one set inAscii
  | _ => one set inAscii

/-- The parts of a pattern that stand one behind another. -/
def parts : Pattern → List Pattern
  | empty => []
  | seq first second => first :: parts second
  | part => [part]

/-- A part before other parts; two texts side by side become one. -/
def before : Pattern → List Pattern → List Pattern
  | text cs, text ds :: rest => text (cs ++ ds) :: rest
  | part, rest => part :: rest

/-- A part before a pattern that holds all which follows. -/
def followedBy (part : Pattern) : Pattern → Pattern
  | empty => part
  | rest => seq part rest

/-- Patterns one behind another. -/
def sequence (patterns : List Pattern) : Pattern :=
  ((patterns.flatMap parts).foldr before []).foldr followedBy empty

/-- The alternatives of a pattern. -/
def branches : Pattern → List Pattern
  | alt left right => left :: branches right
  | branch => [branch]

/-- The pattern of some alternatives as they are. -/
def ofBranches : List Pattern → Pattern
  | [] => never
  | [branch] => branch
  | branch :: rest => alt branch (ofBranches rest)

/-- The character that is all of a pattern. -/
def char? : Pattern → Option Char
  | text [c] => some c
  | _ => none

/-- The set that is all of a pattern. -/
def set? : Pattern → Option CharSet
  | one set _ => some set
  | _ => none

/-- Alternatives without any beginning in common: they are one set if all of them are
characters, or all of them sets. -/
def unfactored (patterns : List Pattern) : Pattern :=
  match patterns.flatMap branches with
  | first :: second :: rest =>
    let branches := first :: second :: rest
    match branches.mapM char?, branches.mapM set? with
    | some chars, _ => ofSet (.ofRanges (chars.map .single)) false
    | none, some sets => ofSet (.unions sets) false
    | none, none => ofBranches branches
  | few => ofBranches few

/-- What two lists have in common at their beginning. -/
def common : List Pattern → List Pattern → List Pattern
  | x :: xs, y :: ys => if x = y then x :: common xs ys else []
  | _, _ => []

/-- The parts with which all of some alternatives begin, if each of them has several
parts. -/
def commonParts : List Pattern → List Pattern
  | [] => []
  | first :: rest =>
    if (first :: rest).all fun branch => 2 ≤ branch.parts.length then
      rest.foldl (fun shared branch => common shared branch.parts) first.parts
    else
      []

/-- Alternatives; what all of them begin with comes first. -/
def alternation (patterns : List Pattern) : Pattern :=
  let whole := unfactored patterns
  match whole.branches with
  | first :: second :: rest =>
    let branches := first :: second :: rest
    let shared := commonParts branches
    if shared = [] then whole
    else
      let rests := branches.map fun branch => sequence (branch.parts.drop shared.length)
      sequence (shared ++ [unfactored rests])
  | _ => whole

/-- A part repeated; one that takes no characters need not be repeated more than once. -/
def repeated (body : Pattern) (least : Nat) (most : Option Nat) (isLazy : Bool) : Pattern :=
  let least := if body.takesNothing then min least 1 else least
  let most := if body.takesNothing then some (min (most.getD 1) 1) else most
  if least = 0 ∧ most = some 0 then empty
  else if least = 1 ∧ most = some 1 then body
  else times body least most isLazy

end SeedPhrase.Pattern
