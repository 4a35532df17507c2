/-!
# Sets of characters

A set of characters is kept as the ranges that make it up, in order and apart from each
other, so that two sets which are built alike are the same value.

* `CharSet.ofRanges`, `CharSet.union` — the set of some ranges, in any order;
* `CharSet.complement`, `CharSet.intersection`, `CharSet.difference`,
  `CharSet.symmetricDifference` — what sets leave or share;
* `contains_single` — what is in the set of one character.

Between the codes of `\uD7FF` and `\uE000` there are no characters.  These two count as
neighbours where a range is cut, but not where ranges are merged: a set may have one
range across the gap, or two ranges that meet there.
-/

namespace SeedPhrase

/-- The later of two characters. -/
def laterChar (c d : Char) : Char := if c ≤ d then d else c

/-- The earlier of two characters. -/
def earlierChar (c d : Char) : Char := if c ≤ d then c else d

/-- The characters from one to another, both included. -/
structure CharRange where
  first : Char
  last : Char
deriving DecidableEq, Repr

namespace CharRange

/-- Whether a character is in a range. -/
def contains (range : CharRange) (c : Char) : Bool := range.first ≤ c && c ≤ range.last

/-- The range of one character. -/
def single (c : Char) : CharRange := ⟨c, c⟩

/-- How many codes there are from one end of a range to the other. -/
def width (range : CharRange) : Nat := range.last.toNat - range.first.toNat + 1

/-- The range with two given ends, whichever of them is the lower one. -/
def between (c d : Char) : CharRange := ⟨earlierChar c d, laterChar c d⟩

/-- What two ranges share. -/
def meet (x y : CharRange) : List CharRange :=
  let first := laterChar x.first y.first
  let last := earlierChar x.last y.last
  if first ≤ last then [⟨first, last⟩] else []

/-- The small letters of ASCII. -/
def small : CharRange := ⟨'a', 'z'⟩

/-- The capital letters of ASCII. -/
def capital : CharRange := ⟨'A', 'Z'⟩

/-- The other forms of the ASCII letters in a range. -/
def otherCases (range : CharRange) : List CharRange :=
  (range.meet small).map (fun part => ⟨part.first.toUpper, part.last.toUpper⟩) ++
    (range.meet capital).map (fun part => ⟨part.first.toLower, part.last.toLower⟩)

end CharRange

/-- The first of all characters. -/
def leastChar : Char := '\x00'

/-- The last of all characters. -/
def greatestChar : Char := Char.ofNat 0x10ffff

/-- The last character before the codes of no characters. -/
def charBeforeGap : Char := Char.ofNat 0xd7ff

/-- The first character behind the codes of no characters. -/
def charBehindGap : Char := Char.ofNat 0xe000

/-- The character behind another. -/
def charBehind (c : Char) : Char :=
  if c = charBeforeGap then charBehindGap else Char.ofNat (c.toNat + 1)

/-- The character before another. -/
def charBefore (c : Char) : Char :=
  if c = charBehindGap then charBeforeGap else Char.ofNat (c.toNat - 1)

/-- A set of characters: ranges in order, none of which touches the next. -/
structure CharSet where
  ranges : List CharRange
deriving DecidableEq, Repr

namespace CharSet

/-- A range and the ranges behind it, where those that overlap or touch are merged. -/
def merged (range : CharRange) : List CharRange → List CharRange
  | [] => [range]
  | next :: rest =>
    if next.first.toNat ≤ range.last.toNat + 1 then
      merged ⟨range.first, laterChar range.last next.last⟩ rest
    else
      range :: merged next rest

/-- The set of some ranges. -/
def ofRanges (ranges : List CharRange) : CharSet :=
  match ranges.mergeSort fun x y => x.first ≤ y.first with
  | [] => ⟨[]⟩
  | first :: rest => ⟨merged first rest⟩

/-- The set of no characters. -/
def nothing : CharSet := ⟨[]⟩

/-- The set of one character. -/
def single (c : Char) : CharSet := ⟨[.single c]⟩

/-- Whether a character is in a set. -/
def contains (set : CharSet) (c : Char) : Bool := set.ranges.any (·.contains c)

/-- The characters of either of two sets. -/
def union (x y : CharSet) : CharSet := ofRanges (x.ranges ++ y.ranges)

/-- The characters of any of several sets. -/
def unions (sets : List CharSet) : CharSet := ofRanges (sets.flatMap ranges)

/-- The ranges behind `range` that are left by it and by those which follow it. -/
def leftBehind (range : CharRange) : List CharRange → List CharRange
  | [] => if range.last < greatestChar then [⟨charBehind range.last, greatestChar⟩] else []
  | next :: rest =>
    .between (charBehind range.last) (charBefore next.first) :: leftBehind next rest

/-- The characters that are not in a set.  Where two ranges meet at the gap without
characters nothing is left between them, and the characters on both its sides make up a
range of the complement instead. -/
def complement (set : CharSet) : CharSet :=
  match set.ranges with
  | [] => ⟨[⟨leastChar, greatestChar⟩]⟩
  | first :: rest =>
    ⟨(if leastChar < first.first then [⟨leastChar, charBefore first.first⟩] else []) ++
      leftBehind first rest⟩

/-- What two lists of ranges in order share. -/
def shared : List CharRange → List CharRange → List CharRange
  | x :: xs, y :: ys =>
    x.meet y ++ if x.last < y.last then shared xs (y :: ys) else shared (x :: xs) ys
  | [], _ => []
  | _, [] => []
termination_by xs ys => xs.length + ys.length

/-- The characters in both of two sets. -/
def intersection (x y : CharSet) : CharSet := ⟨shared x.ranges y.ranges⟩

/-- What ranges in order leave of other such ranges. -/
def without : List CharRange → List CharRange → List CharRange
  | x :: xs, y :: ys =>
    if y.last < x.first then without (x :: xs) ys
    else if x.last < y.first then x :: without xs (y :: ys)
    else
      (if x.first < y.first then [⟨x.first, charBefore y.first⟩] else []) ++
        if y.last < x.last then without (⟨charBehind y.last, x.last⟩ :: xs) ys
        else without xs (y :: ys)
  | [], _ => []
  | xs, [] => xs
termination_by xs ys => xs.length + ys.length

/-- The characters of one set that are not in another. -/
def difference (x y : CharSet) : CharSet := ⟨without x.ranges y.ranges⟩

/-- The characters in just one of two sets. -/
def symmetricDifference (x y : CharSet) : CharSet := (x.union y).difference (x.intersection y)

/-- A set together with the other forms of its ASCII letters. -/
def anyCase (set : CharSet) : CharSet :=
  ofRanges (set.ranges ++ set.ranges.flatMap CharRange.otherCases)

/-- How many codes the ranges of a set have. -/
def width (set : CharSet) : Nat := set.ranges.foldl (fun count range => count + range.width) 0

/-- Whether all characters of a set are those of ASCII. -/
def isAscii (set : CharSet) : Bool := set.ranges.all fun range => range.last.toNat < 0x80

/-- The set of one character contains just that one. -/
theorem contains_single (a c : Char) : (single a).contains c = true ↔ a = c := by
  simp only [single, contains, CharRange.single, CharRange.contains, List.any_cons, List.any_nil,
    Bool.or_false, Bool.and_eq_true, decide_eq_true_eq]
  exact ⟨fun h => Char.le_antisymm h.1 h.2, fun h => h ▸ ⟨Char.le_refl a, Char.le_refl a⟩⟩

end CharSet

end SeedPhrase
