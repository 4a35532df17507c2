import SeedPhrase.Pattern.CharSet
import SeedPhrase.Pattern.Count

/-!
# Patterns

A pattern describes texts by the characters they consist of and by what stands
around them.

* `Assertion.holds` — what a pattern can ask of a gap between two characters;
* `Pattern.Fits` — which parts of a text fit a pattern, by the spots where they begin
  and end;
* `Pattern.OccursIn` — that some part of a text fits.

A part that fits never ends before it begins.  So one that ends where it began takes no
characters, and a part of several that does so has only parts that do so.
-/

namespace SeedPhrase

/-- What stands on one side of a gap, as far as a pattern can tell. -/
inductive Side
  /-- The text begins or ends. -/
  | nothing
  | lineFeed
  | carriageReturn
  /-- A character that words are made of. -/
  | inWord
  /-- Any other character. -/
  | outside
deriving DecidableEq, Hashable, Repr

/-- Whether a character is one of those that make up words: a letter from `a` to `z`, a
digit or an underscore. -/
def isWordChar (c : Char) : Bool := c.isAlphanum || c = '_'

/-- What a character is on a side of a gap. -/
def Side.ofChar (c : Char) : Side :=
  if c = '\n' then lineFeed
  else if c = '\r' then carriageReturn
  else if isWordChar c then inWord
  else outside

/-- What a character is on a side of a gap, or its absence. -/
def Side.of : Option Char → Side
  | none => nothing
  | some c => ofChar c

/-- A gap between two characters of a text, by what stands on its two sides. -/
structure Gap where
  before : Side
  after : Side
deriving DecidableEq, Repr

/-- What a pattern can ask of a gap. -/
inductive Assertion
  /-- The text begins. -/
  | textStart
  /-- The text ends. -/
  | textEnd
  /-- A line begins, behind a line feed. -/
  | lineStart
  /-- A line ends, before a line feed. -/
  | lineEnd
  /-- A line begins, where a carriage return ends lines as well, and the two together
  are one line end. -/
  | anyLineStart
  /-- A line ends, where a carriage return ends lines as well. -/
  | anyLineEnd
  /-- A word begins or ends. -/
  | wordBoundary
  /-- No word begins or ends. -/
  | noWordBoundary
  | wordStart
  | wordEnd
  /-- There is no letter of a word on the left. -/
  | wordStartHalf
  /-- There is no letter of a word on the right. -/
  | wordEndHalf
deriving DecidableEq, Repr

namespace Assertion

/-- Whether an assertion holds at a gap. -/
def holds : Assertion → Gap → Bool
  | textStart, gap => gap.before = .nothing
  | textEnd, gap => gap.after = .nothing
  | lineStart, gap => gap.before = .nothing || gap.before = .lineFeed
  | lineEnd, gap => gap.after = .nothing || gap.after = .lineFeed
  | anyLineStart, gap =>
    gap.before = .nothing || gap.before = .lineFeed ||
      (gap.before = .carriageReturn && gap.after ≠ .lineFeed)
  | anyLineEnd, gap =>
    gap.after = .nothing || gap.after = .carriageReturn ||
      (gap.after = .lineFeed && gap.before ≠ .carriageReturn)
  | wordBoundary, gap => (gap.before = .inWord) ≠ (gap.after = .inWord)
  | noWordBoundary, gap => (gap.before = .inWord) = (gap.after = .inWord)
  | wordStart, gap => gap.before ≠ .inWord && gap.after = .inWord
  | wordEnd, gap => gap.before = .inWord && gap.after ≠ .inWord
  | wordStartHalf, gap => gap.before ≠ .inWord
  | wordEndHalf, gap => gap.after ≠ .inWord

end Assertion

/-- A description of texts. -/
inductive Pattern
  /-- The empty text. -/
  | empty
  /-- A text as it stands. -/
  | text (chars : List Char)
  /-- One character of a set; `inAscii` if it was written among ASCII characters only. -/
  | one (set : CharSet) (inAscii : Bool)
  /-- The empty text, at a gap of some kind; `allScripts` if words are those of all
  scripts. -/
  | check (assertion : Assertion) (allScripts : Bool)
  /-- A part that has a number. -/
  | group (number : Nat) (body : Pattern)
  /-- One text behind another. -/
  | seq (first second : Pattern)
  /-- A text that fits one of two patterns. -/
  | alt (left right : Pattern)
  /-- Several texts one behind another, at least and at most so many of them; `isLazy` if
  few are asked for rather than many. -/
  | times (body : Pattern) (least : Nat) (most : Option Nat) (isLazy : Bool)
deriving DecidableEq, Repr

/-- How far a text has been read: the character read last, if any, and what is left. -/
structure Spot where
  before : Option Char
  rest : List Char
deriving DecidableEq, Repr

namespace Spot

/-- The gap at a spot. -/
def gap (spot : Spot) : Gap := ⟨.of spot.before, .of spot.rest.head?⟩

/-- The next character and the spot behind it. -/
def next? (spot : Spot) : Option (Char × Spot) :=
  match spot.rest with
  | [] => none
  | c :: rest => some (c, ⟨some c, rest⟩)

/-- The spots from one on to the end of the text. -/
def onward (before : Option Char) : List Char → List Spot
  | [] => [⟨before, []⟩]
  | c :: rest => ⟨before, c :: rest⟩ :: onward (some c) rest

/-- Behind a character less is left. -/
theorem length_of_next? {p q : Spot} {c : Char} (h : p.next? = some (c, q)) :
    p.rest.length = q.rest.length + 1 := by
  obtain ⟨before, rest⟩ := p
  cases rest with
  | nil => simp [next?] at h
  | cons d rest =>
    simp only [next?, Option.some.injEq, Prod.mk.injEq] at h
    simp [← h.2]

end Spot

/-- Some parts of texts, each told by the spots where it begins and ends. -/
abbrev Parts := Spot → Spot → Prop

namespace Parts

/-- A character of which something holds. -/
def char (isMeant : Char → Bool) : Parts :=
  fun p q => ∃ c, p.next? = some (c, q) ∧ isMeant c = true

/-- The empty text, at gaps of which something holds. -/
def check (isMeant : Gap → Bool) : Parts := fun p q => p = q ∧ isMeant p.gap = true

/-- One part behind another. -/
def seq (x y : Parts) : Parts := fun p q => ∃ r, x p r ∧ y r q

/-- Either part. -/
def alt (x y : Parts) : Parts := fun p q => x p q ∨ y p q

/-- So many parts one behind another. -/
def times (x : Parts) : Nat → Parts
  | 0 => Eq
  | n + 1 => seq x (times x n)

/-- As many parts one behind another as a count allows. -/
def counted (x : Parts) (count : Count) : Parts :=
  fun p q => ∃ n, count.Allows n ∧ x.times n p q

/-- The characters of a text. -/
def text : List Char → Parts
  | [] => Eq
  | c :: chars => seq (char (· = c)) (text chars)

/-- Nothing in front of a part changes nothing. -/
theorem eq_seq (x : Parts) : seq Eq x = x := by
  funext p q
  simp [seq]

/-- Nothing behind a part changes nothing. -/
theorem seq_eq (x : Parts) : seq x Eq = x := by
  funext p q
  simp [seq]

/-- Of three parts it does not matter which two are put together first. -/
theorem seq_assoc (x y z : Parts) : seq (seq x y) z = seq x (seq y z) := by
  funext p q
  simp only [seq, eq_iff_iff]
  constructor
  · intro hboth
    obtain ⟨s, ⟨r, hx, hy⟩, hz⟩ := hboth
    exact ⟨r, hx, s, hy, hz⟩
  · intro hboth
    obtain ⟨r, hx, s, hy, hz⟩ := hboth
    exact ⟨s, ⟨r, hx, hy⟩, hz⟩

/-- Repetitions add up. -/
theorem times_add (x : Parts) (m n : Nat) : x.times (m + n) = seq (x.times m) (x.times n) := by
  induction m with
  | zero => rw [Nat.zero_add, times, eq_seq]
  | succ m ih => rw [Nat.add_right_comm, times, ih, times, seq_assoc]

/-- Once is no repetition. -/
theorem times_one (x : Parts) : x.times 1 = x := seq_eq x

/-- To be counted just once changes nothing. -/
theorem counted_once (x : Parts) : x.counted .once = x := by
  funext p q
  simp [counted, Count.allows_once, times_one]

/-- Repetitions of repetitions are as many as they come to in total. -/
theorem times_counted (x : Parts) (count : Count) (j : Nat) (p q : Spot) :
    (x.counted count).times j p q ↔ ∃ n, count.Sums j n ∧ x.times n p q := by
  induction j generalizing p with
  | zero => simp [times, Count.Sums]
  | succ j ih =>
    simp only [times, seq, counted, ih, Count.Sums]
    constructor
    · intro hboth
      obtain ⟨r, ⟨k, hk, hfirst⟩, m, hm, hrest⟩ := hboth
      refine ⟨k + m, ⟨k, m, hk, hm, rfl⟩, ?_⟩
      rw [times_add]
      exact ⟨r, hfirst, hrest⟩
    · intro hboth
      obtain ⟨n, ⟨k, m, hk, hm, rfl⟩, h⟩ := hboth
      rw [times_add] at h
      obtain ⟨r, hfirst, hrest⟩ := h
      exact ⟨r, ⟨k, hk, hfirst⟩, m, hm, hrest⟩

/-- **A count inside another** may be taken as one, where that leaves out no number. -/
theorem counted_within? (x : Parts) {inner outer count : Count}
    (h : inner.within? outer = some count) :
    (x.counted inner).counted outer = x.counted count := by
  funext p q
  simp only [counted, eq_iff_iff, Count.allows_within? h]
  constructor
  · intro hboth
    obtain ⟨j, hj, hx⟩ := hboth
    obtain ⟨n, hn, hx⟩ := (times_counted x inner j p q).mp hx
    exact ⟨n, ⟨j, hj, hn⟩, hx⟩
  · intro hboth
    obtain ⟨n, ⟨j, hj, hn⟩, hx⟩ := hboth
    exact ⟨j, hj, (times_counted x inner j p q).mpr ⟨n, hn, hx⟩⟩

/-- Parts that take no characters, or end where less is left. -/
def Forward (x : Parts) : Prop := ∀ p q, x p q → p = q ∨ q.rest.length < p.rest.length

/-- Nothing takes no characters. -/
theorem forward_eq : Forward Eq := fun _ _ h => Or.inl h

/-- Behind a character less is left. -/
theorem forward_char (isMeant : Char → Bool) : Forward (char isMeant) := by
  intro p q hboth
  obtain ⟨c, h, -⟩ := hboth
  exact Or.inr (by rw [Spot.length_of_next? h]; omega)

/-- An assertion takes no characters. -/
theorem forward_check (isMeant : Gap → Bool) : Forward (check isMeant) :=
  fun _ _ h => Or.inl h.1

/-- One part behind another goes on as both do. -/
theorem Forward.seq {x y : Parts} (hx : Forward x) (hy : Forward y) : Forward (x.seq y) := by
  intro p q hboth
  obtain ⟨r, hfirst, hsecond⟩ := hboth
  rcases hx p r hfirst with rfl | h
  · exact hy p q hsecond
  · rcases hy r q hsecond with rfl | h'
    · exact Or.inr h
    · exact Or.inr (Nat.lt_trans h' h)

/-- Either of two parts goes on if both do. -/
theorem Forward.alt {x y : Parts} (hx : Forward x) (hy : Forward y) : Forward (x.alt y) :=
  fun p q h => h.elim (hx p q) (hy p q)

/-- Repetitions go on if what is repeated does. -/
theorem Forward.times {x : Parts} (hx : Forward x) (n : Nat) : Forward (x.times n) := by
  induction n with
  | zero => exact forward_eq
  | succ n ih => exact hx.seq ih

/-- However often a part is repeated, it goes on. -/
theorem Forward.counted {x : Parts} (hx : Forward x) (count : Count) :
    Forward (x.counted count) := fun p q ⟨n, _, h⟩ => hx.times n p q h

/-- **No return.**  Of parts in a row that together take no characters, none does. -/
theorem Forward.eq_of_seq {x y : Parts} (hx : Forward x) (hy : Forward y) {p r : Spot}
    (hfirst : x p r) (hsecond : y r p) : p = r := by
  rcases hx p r hfirst with h | h
  · exact h
  · rcases hy r p hsecond with h' | h'
    · exact h'.symm
    · omega

end Parts

namespace Pattern

/-- The parts of texts that fit a pattern. -/
def Fits : Pattern → Parts
  | empty => Eq
  | text chars => .text chars
  | one set _ => .char set.contains
  | check assertion _ => .check assertion.holds
  | group _ body => body.Fits
  | seq first second => .seq first.Fits second.Fits
  | alt left right => .alt left.Fits right.Fits
  | times body least most _ => .counted body.Fits (.ofBounds least most)

/-- That some part of a text fits a pattern. -/
def OccursIn (pattern : Pattern) (text : String) : Prop :=
  ∃ p ∈ Spot.onward none text.toList, ∃ q, pattern.Fits p q

end Pattern

end SeedPhrase
