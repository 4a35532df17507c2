import SeedPhrase.Pattern.Simple

/-!
# Patterns that stand for a few texts

A pattern without groups and assertions may come down to a few texts.  These are looked
for as they are, so that no machine is needed.

* `Pattern.beginnings` — with which bytes all that fits begins, in order of preference;
* `Pattern.isPlain` — whether a pattern comes down to texts that are looked for as they
  are.

Beginnings are followed up only as far as it pays: they grow neither too many nor too
long, and what goes beyond is known to go on, but not how.  A text is not needed where
another one, which it begins with, is preferred to it.  Of many texts, or texts that are
alike, short beginnings are looked for instead, and then a machine has to confirm what
was found.
-/

namespace SeedPhrase.Pattern

/-- The bytes with which something that fits begins; `isWhole` if these are all of it. -/
structure Beginning where
  bytes : List UInt8
  isWhole : Bool
deriving DecidableEq, Repr

namespace Beginning

/-- The beginning of the empty text. -/
def empty : Beginning := ⟨[], true⟩

/-- A beginning of which it is not known how it goes on. -/
def unfinished (x : Beginning) : Beginning := { x with isWhole := false }

/-- No more than so many bytes of a beginning. -/
def cut (length : Nat) (x : Beginning) : Beginning :=
  if x.bytes.length ≤ length then x else ⟨x.bytes.take length, false⟩

/-- Beginnings, where those that are side by side and have the same bytes are one. -/
def withoutRepeats (xs : List Beginning) : List Beginning :=
  xs.foldr
    (fun x kept =>
      match kept with
      | y :: rest =>
        if x.bytes = y.bytes then ⟨x.bytes, x.isWhole && y.isWhole⟩ :: rest else x :: kept
      | [] => [x])
    []

/-- The beginnings that are left when each one gives way to those before it with which it
begins. -/
def preferred (xs : List Beginning) : List Beginning :=
  xs.foldl
    (fun kept x =>
      if kept.any fun y => y.bytes.isPrefixOf x.bytes then kept else kept ++ [x])
    []

end Beginning

/-- The beginnings of all that fits, if they are known. -/
abbrev Beginnings := Option (List Beginning)

namespace Beginnings

/-- How many beginnings there may be. -/
def maxCount : Nat := 250

/-- How many bytes a beginning may have. -/
def maxLength : Nat := 100

/-- How many bytes are left of a beginning when there are too many. -/
def crowdedLength : Nat := 4

/-- How many characters a set may have. -/
def maxChars : Nat := 10

/-- How many repetitions are followed up. -/
def maxRepetitions : Nat := 10

/-- The beginnings of a text. -/
def ofText (chars : List Char) : Beginnings :=
  some [.cut maxLength ⟨chars.flatMap String.utf8EncodeChar, true⟩]

/-- The beginnings of the characters of a set. -/
def ofSet (set : CharSet) : Beginnings :=
  if maxChars < set.width then none
  else
    some <| set.ranges.flatMap fun range =>
      (List.range range.width).map fun i =>
        ⟨String.utf8EncodeChar (Char.ofNat (range.first.toNat + i)), true⟩

/-- Beginnings of which it is not known how they go on. -/
def unfinished (xs : Beginnings) : Beginnings := xs.map (·.map .unfinished)

/-- Beginnings where others come behind those that are whole. -/
def follow : Beginnings → Beginnings → Beginnings
  | none, _ => none
  | some xs, ys =>
    if xs.all (!·.isWhole) then some xs
    else
      match ys.filter fun ys => xs.length * ys.length ≤ maxCount with
      | none => if xs.any (·.bytes = []) then none else some (xs.map .unfinished)
      | some ys =>
        let joined := xs.flatMap fun x =>
          if x.isWhole then ys.map fun y => ⟨x.bytes ++ y.bytes, y.isWhole⟩ else [x]
        some ((Beginning.withoutRepeats joined).map (.cut maxLength))

/-- Beginnings or, where none of these will do, others. -/
def either : Beginnings → Beginnings → Beginnings
  | some xs, some ys =>
    if xs.length + ys.length ≤ maxCount then some (Beginning.withoutRepeats (xs ++ ys))
    else
      let xs := Beginning.withoutRepeats (xs.map (.cut crowdedLength))
      let ys := Beginning.withoutRepeats (ys.map (.cut crowdedLength))
      if xs.length + ys.length ≤ maxCount then some (Beginning.withoutRepeats (xs ++ ys)) else none
  | _, _ => none

/-- The beginnings of several repetitions of something. -/
def repeated (xs : Beginnings) (least : Nat) (most : Option Nat) (isLazy : Bool) : Beginnings :=
  let start := some [Beginning.empty]
  if least = 0 then
    let xs := if most = some 1 then xs else xs.unfinished
    if isLazy then either start xs else either xs start
  else
    let begun := (List.replicate (min least maxRepetitions) xs).foldl follow start
    if most = some least ∧ least ≤ maxRepetitions then begun else begun.unfinished

end Beginnings

/-- A part of a pattern is no larger than the pattern. -/
theorem sizeOf_le_of_mem_parts {part pattern : Pattern} (h : part ∈ parts pattern) :
    sizeOf part ≤ sizeOf pattern := by
  induction pattern with
  | seq first second _ ih =>
    rcases List.mem_cons.mp h with rfl | h
    · simp only [seq.sizeOf_spec]; omega
    · have := ih h
      simp only [seq.sizeOf_spec]; omega
  | empty => cases h
  | _ => exact Nat.le_of_eq (congrArg sizeOf (List.mem_singleton.mp h))

/-- An alternative of a pattern is no larger than the pattern. -/
theorem sizeOf_le_of_mem_branches {branch pattern : Pattern} (h : branch ∈ branches pattern) :
    sizeOf branch ≤ sizeOf pattern := by
  induction pattern with
  | alt left right _ ih =>
    rcases List.mem_cons.mp h with rfl | h
    · simp only [alt.sizeOf_spec]; omega
    · have := ih h
      simp only [alt.sizeOf_spec]; omega
  | _ => exact Nat.le_of_eq (congrArg sizeOf (List.mem_singleton.mp h))

/-- The beginnings of all that fits a pattern. -/
def beginnings : Pattern → Beginnings
  | empty | check _ _ => some [.empty]
  | text chars => .ofText chars
  | one set _ => .ofSet set
  | group _ body => beginnings body
  | seq first second =>
    (second.parts.attach.map fun part =>
      have := sizeOf_le_of_mem_parts part.2
      beginnings part.1).foldl .follow (beginnings first)
  | alt left right =>
    (right.branches.attach.map fun branch =>
      have := sizeOf_le_of_mem_branches branch.2
      beginnings branch.1).foldl .either (beginnings left)
  | times body least most isLazy => (beginnings body).repeated least most isLazy

/-- Whether a pattern has neither groups nor assertions. -/
def isBare : Pattern → Bool
  | empty | text _ | one _ _ => true
  | check _ _ | group _ _ => false
  | seq first second => isBare first && isBare second
  | alt left right => isBare left && isBare right
  | times body _ _ _ => isBare body

/-- The ASCII characters that are met often. -/
def oftenMet : String := "\n\r (),-./0129:_abcdefghilmnoprstuvxy|"

/-- Whether a byte with which a character begins is met seldom. -/
def isRare (byte : UInt8) : Bool :=
  byte < 0x80 && Char.ofNat byte.toNat ∉ oftenMet.toList

/-- The bytes that two texts have in common at their beginning. -/
def commonBytes : List UInt8 → List UInt8 → List UInt8
  | x :: xs, y :: ys => if x = y then x :: commonBytes xs ys else []
  | _, _ => []

/-- How short texts are cut, one length after another, as long as there are more of them
than a number. -/
def cuts : List (Nat × Nat) := [(5, 10), (4, 10), (3, 64), (2, 64), (1, 10)]

/-- Texts as they are cut. -/
def shortened : List (Nat × Nat) → List Beginning → List Beginning
  | [], xs => xs
  | (length, count) :: rest, xs =>
    if xs.length ≤ count then xs else shortened rest (Beginning.preferred (xs.map (.cut length)))

/-- Whether whole texts are looked for as they are, where the beginnings were so many at
first. -/
def areSought (count : Nat) (xs : List Beginning) : Bool :=
  let shared := (xs.tail.map (·.bytes)).foldl commonBytes (xs.head?.elim [] (·.bytes))
  if 1 < count ∧ shared.length ≤ 3 ∧ shared.head?.any isRare then
    xs.all (·.bytes.length ≤ 1)
  else if 1 < xs.length ∧ (4 < shared.length ∨ 1 < shared.length ∧ 16 < xs.length) then
    false
  else
    let short := shortened cuts xs
    short.all (·.isWhole) || short.any (·.bytes.length ≤ 2) || 64 < short.length

/-- The texts of a pattern all of whose alternatives are texts. -/
def texts? (pattern : Pattern) : Option (List (List Char)) :=
  pattern.branches.mapM fun
    | text chars => some chars
    | _ => none

/-- How many texts are looked for as they are in any case. -/
def manyTexts : Nat := 3000

/-- Whether a pattern comes down to texts that are looked for as they are. -/
def isPlain (pattern : Pattern) : Bool :=
  (pattern.isBare &&
    pattern.beginnings.any fun all =>
      let xs := Beginning.preferred all
      xs ≠ [] && xs.all (·.isWhole) && all.all (·.bytes ≠ []) && areSought all.length xs) ||
    pattern.texts?.any fun texts => manyTexts ≤ texts.length

end SeedPhrase.Pattern
