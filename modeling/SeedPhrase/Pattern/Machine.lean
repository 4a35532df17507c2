import SeedPhrase.Pattern.Bytes
import SeedPhrase.Pattern.Plain
import Std.Data.HashMap

/-!
# The machine for a pattern

A pattern is looked for by a machine of states, which reads a text byte by byte; where it
has found an end, a second machine reads back from there for the beginning.  A repeated
part takes as many copies of its states as it has to be repeated, so that even a short
pattern may need a machine beyond all bounds.  Of the machines only the size matters here.

* `Machine.size` — the size of a machine in bytes;
* `Pattern.machine` — the machine that reads in a direction, or as much of it as is enough
  to tell that it is too large;
* `Pattern.isTooLarge` — whether it is, and is needed.

The states for a set of characters are shared where they do the same.  They are remembered
for that in a number of slots; a state that falls to the slot of another takes its place,
and the other one is made anew when it is needed again.
-/

namespace SeedPhrase.Pattern

/-- The size of a machine that is being made: its states, and the bytes taken besides by
the ways out of those that have several. -/
structure Machine where
  states : Nat
  ways : Nat
deriving DecidableEq, Repr

namespace Machine

/-- How many bytes a machine takes: each state has 32 of its own. -/
def size (m : Machine) : Nat := 32 * m.states + m.ways

/-- How many bytes a machine may take. -/
def sizeLimit : Nat := 10 * 1024 * 1024

/-- Whether a machine takes more bytes than it may. -/
def exceedsLimit (m : Machine) : Bool := sizeLimit < m.size

/-- More states with one way out. -/
def steps (count : Nat) (m : Machine) : Machine := { m with states := m.states + count }

/-- One more state with one way out. -/
def step (m : Machine) : Machine := m.steps 1

/-- More ways out of a state that reads nothing. -/
def widen (ways : Nat) (m : Machine) : Machine := { m with ways := m.ways + 4 * ways }

/-- One more state that reads nothing, with some ways out. -/
def fork (ways : Nat) (m : Machine) : Machine := m.step.widen ways

/-- One more state that reads a byte, which decides between some ways out. -/
def switch (ways : Nat) (m : Machine) : Machine :=
  { m.step with ways := m.ways + 8 * ways }

/-- So many copies of a part, or only some of them if these are too many already. -/
def copies (part : Machine → Machine) : Nat → Machine → Machine
  | 0, m => m
  | count + 1, m => if m.exceedsLimit then m else copies part count (part m)

/-- A growing machine, and the states that are remembered by what they do, in slots. -/
abbrev Sharing (α : Type) := StateM (Machine × Std.HashMap UInt64 (α × Nat))

/-- The slot among so many of what is told by some numbers. -/
def slotOf (slots : UInt64) (numbers : List Nat) : UInt64 :=
  numbers.foldl (fun hash number => (hash ^^^ number.toUInt64) * 1099511628211)
    14695981039346656037 % slots

/-- The state that does something: one that is remembered, or else a new one that `make`
adds. -/
def share {α : Type} [DecidableEq α] (slot : UInt64) (work : α) (make : Machine → Machine) :
    Sharing α Nat :=
  fun (m, known) =>
    match known[slot]?.filter fun entry => entry.1 = work with
    | some (_, state) => (state, (m, known))
    | none => (m.states, (make m, known.insert slot (work, m.states)))

/-- Some lists without the empty ones, those next to each other with the same head put
together. -/
def byHead {α : Type} [DecidableEq α] (lists : List (List α)) : List (α × List (List α)) :=
  lists.foldr
    (fun list groups =>
      match list, groups with
      | [], groups => groups
      | x :: rest, (y, rests) :: groups =>
        if x = y then (y, rest :: rests) :: groups else (x, [rest]) :: (y, rests) :: groups
      | x :: rest, [] => [(x, [rest])])
    []

/-- How many slots there are for states that read forward, by the ranges of bytes they read
and the states that follow. -/
def forwardSlots : UInt64 := 10000

/-- How many slots there are for states that read back, by the state that follows and the
range of bytes they read. -/
def backwardSlots : UInt64 := 1000

/-- The state from which some sequences of at most so many bytes are read, each up to the
state `target`. -/
def reading (target : Nat) :
    Nat → List (List ByteRange) → Sharing (List (ByteRange × Nat)) Nat
  | 0, _ => return target
  | depth + 1, sequences => do
    let ways ← (byHead sequences).mapM fun (range, rests) =>
      return (range, ← reading target depth rests)
    if ways = [] then
      return target
    let numbers := ways.flatMap fun (range, next) =>
      [range.first.toNat, range.last.toNat, next]
    share (slotOf forwardSlots numbers) ways (switch ways.length)

/-- The state from which a sequence of bytes is read back up to the state `target`. -/
def readingBack (target : Nat) (sequence : List ByteRange) : Sharing (Nat × ByteRange) Nat :=
  sequence.foldlM
    (fun next range =>
      share (slotOf backwardSlots [next, range.first.toNat, range.last.toNat]) (next, range) step)
    target

/-- The greatest number of bytes of a character. -/
def charWidth : Nat := 4

/-- Which way a machine reads. -/
inductive Direction
  | forward
  | backward
deriving DecidableEq, Repr

/-- A machine that reads one more character of a set. -/
def oneOf (direction : Direction) (set : CharSet) (m : Machine) : Machine :=
  if set.isAscii then m.step.switch set.ranges.length
  else
    match direction with
    | .forward => ((reading m.states charWidth set.byteRanges).run (m.step, ∅)).2.1
    | .backward =>
      let sequences := set.byteRanges
      let target := m.states + 1
      let shared := (sequences.forM fun sequence => discard (readingBack target sequence)).run
        ((m.fork 0).step, ∅)
      shared.2.1.widen sequences.length

/-- The words at a state of their tree, cut where one of them ends: nothing that follows
in the list may be tried before it.  `opened` holds those since the last cut, the last
first. -/
def cutAtEnds (opened : List (List UInt8)) : List (List UInt8) → List (List (List UInt8))
  | [] => [opened.reverse]
  | [] :: words => opened.reverse :: cutAtEnds [] words
  | word :: words => cutAtEnds (word :: opened) words

/-- Words of which some end at once, without the repetitions of such an end at the
beginning. -/
def withoutRepeatedEnd : List (List UInt8) → List (List UInt8)
  | [] :: words => [] :: words.dropWhile List.isEmpty
  | words => words

/-- A machine with one more state that reads a byte, if there is any way out. -/
def choice : Nat → Machine → Machine
  | 0, m => m
  | 1, m => m.step
  | ways, m => m.switch ways

/-- A machine with a tree that reads one of some words of at most so many bytes. -/
def tree : Nat → List (List UInt8) → Machine → Machine
  | 0, _, m => m
  | depth + 1, words, m =>
    let pieces := cutAtEnds [] (withoutRepeatedEnd words)
    let grown := pieces.foldl
      (fun m piece =>
        let groups := byHead (piece.mergeSort fun x y => x.headD 0 ≤ y.headD 0)
        (groups.foldl
          (fun m (_, rests) => if rests.all List.isEmpty then m else tree depth rests m)
          m).choice groups.length)
      m
    grown.fork ((pieces.filter fun piece => !piece.isEmpty).length + (pieces.length - 1))

/-- A machine that reads one of several texts: a state where all of them end, and a tree
of their bytes. -/
def anyText (direction : Direction) (texts : List (List Char)) (m : Machine) : Machine :=
  let words := texts.map fun chars =>
    let bytes := chars.flatMap String.utf8EncodeChar
    match direction with
    | .forward => bytes
    | .backward => bytes.reverse
  tree ((words.map List.length).foldl max 0) words m.step

/-- A machine with an alternative complete, the first one where `earlier` is zero.  With
the second come a state where they part and one where they meet. -/
def joined : Nat → Machine → Machine
  | 0, m => m
  | 1, m => (m.fork 2).step
  | _, m => m.widen 1

end Machine

open Machine (Direction)

/-- A machine with one more part.  The part comes behind so many alternatives, if it is one
or holds several itself. -/
def grow (direction : Direction) : Pattern → Nat → Machine → Machine
  | empty, earlier, m => m.step.joined earlier
  | text chars, earlier, m =>
    (m.steps (chars.flatMap String.utf8EncodeChar).length).joined earlier
  | one set _, earlier, m => (m.oneOf direction set).joined earlier
  | check _ _, earlier, m => m.step.joined earlier
  | group _ body, earlier, m =>
    (match direction with
      | .forward => (grow direction body 0 m.step).step
      | .backward => grow direction body 0 m).joined earlier
  | seq first second, earlier, m =>
    (match direction with
      | .forward => grow direction second 0 (grow direction first 0 m)
      | .backward => grow direction first 0 (grow direction second 0 m)).joined earlier
  | alt left right, earlier, m =>
    match if earlier = 0 then (alt left right).texts? else none with
    | some texts => m.anyText direction texts
    | none => grow direction right (earlier + 1) ((grow direction left 0 m).joined earlier)
  | times body least most _, earlier, m =>
    let part := grow direction body 0
    let begun := m.copies part least
    (match least, most with
      | 0, none =>
        if body.takesSome && body.everySetHolds then part (m.fork 2)
        else (((part m).fork 2).fork 2).step
      | _, none => begun.fork 2
      | 0, some 1 => (part (m.fork 2)).step
      | 0, some most => m.step.step.copies (fun m => part (m.fork 2)) most
      | least, some most =>
        if least = most then begun
        else begun.step.copies (fun m => part (m.fork 2)) (most - least)).joined earlier

/-- Whether every text that fits begins where something holds. -/
def beginsWith (assertion : Assertion) : Pattern → Bool
  | check other _ => other = assertion
  | empty | text _ | one _ _ => false
  | group _ body => beginsWith assertion body
  | seq first second =>
    beginsWith assertion first || (first.takesNothing && beginsWith assertion second)
  | alt left right => beginsWith assertion left && beginsWith assertion right
  | times body least _ _ => least ≠ 0 && beginsWith assertion body

/-- Whether every text that fits ends where something holds, and whether none of them has a
character. -/
def endsWith (assertion : Assertion) : Pattern → Bool × Bool
  | check other _ => (other = assertion, true)
  | empty => (false, true)
  | text _ | one _ _ => (false, false)
  | group _ body => endsWith assertion body
  | seq first second =>
    let (firstEnds, firstEmpty) := endsWith assertion first
    let (secondEnds, secondEmpty) := endsWith assertion second
    (secondEnds || (secondEmpty && firstEnds), firstEmpty && secondEmpty)
  | alt left right =>
    let (leftEnds, leftEmpty) := endsWith assertion left
    let (rightEnds, rightEmpty) := endsWith assertion right
    (leftEnds && rightEnds, leftEmpty && rightEmpty)
  | times body least _ _ =>
    let (ends, isEmpty) := endsWith assertion body
    (least ≠ 0 && ends, isEmpty)

/-- Whether a machine can begin only where the text does, in its direction. -/
def isAnchored (direction : Direction) (pattern : Pattern) : Bool :=
  match direction with
  | .forward => pattern.beginsWith .textStart
  | .backward => (pattern.endsWith .textEnd).1

/-- The machine for a pattern.  It begins with a part that passes any bytes, unless it can
begin only at one place; and one that reads forward notes where the whole begins and
ends. -/
def machine (direction : Direction) (pattern : Pattern) : Machine :=
  let start : Machine :=
    if pattern.isAnchored direction then ⟨1, 0⟩ else (Machine.fork 2 ⟨0, 0⟩).step.switch 1
  match direction with
  | .forward => (pattern.grow direction 0 start.step).step.step
  | .backward => (pattern.grow direction 0 start).step

/-- Whether the machine for a pattern would be too large; plain patterns need none. -/
def isTooLarge (direction : Direction) (pattern : Pattern) : Bool :=
  (pattern.machine direction).exceedsLimit && !pattern.isPlain

end SeedPhrase.Pattern
