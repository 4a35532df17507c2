import SeedPhrase.Pattern.Basic
import SeedPhrase.Pattern.Fault

/-!
# Patterns as they are written

The tree of a written pattern keeps, for every part, the place where it stands, for
what a part means may turn out to be impossible only after the whole is read.

* `Node` — a written pattern;
* `ClassSet` — what a class in brackets holds;
* `Node.nestedTooDeep?` — the first part that stands too deep inside others.
-/

namespace SeedPhrase.Pattern

/-- A switch that a pattern sets for what follows. -/
inductive Flag
  /-- Small and capital letters are the same. -/
  | anyCase
  /-- A line begins and ends inside a text too. -/
  | multiLine
  /-- The dot stands for line ends too. -/
  | dotAll
  /-- Repetitions ask for few, and for many where a question mark follows them. -/
  | swapGreed
  /-- Characters are those of all scripts, and not those of ASCII. -/
  | unicode
  /-- A carriage return ends a line too. -/
  | crlf
  /-- Blanks and comments are skipped. -/
  | spaced
deriving DecidableEq, Repr

/-- The flag of a letter. -/
def Flag.ofChar? : Char → Option Flag
  | 'i' => some anyCase
  | 'm' => some multiLine
  | 's' => some dotAll
  | 'U' => some swapGreed
  | 'u' => some unicode
  | 'R' => some crlf
  | 'x' => some spaced
  | _ => none

/-- Flags that are set on or off. -/
abbrev Settings := List (Flag × Bool)

/-- A character, as a pattern writes it. -/
structure Literal where
  span : Span
  char : Char
  /-- Whether it is written by the two digits of a byte. -/
  asByte : Bool
deriving DecidableEq, Repr

/-- The classes of characters that an escape of one letter names. -/
inductive Shorthand
  | digit
  | space
  | word
deriving DecidableEq, Repr

/-- The classes of ASCII characters that have a name. -/
inductive AsciiClass
  | alnum
  | alpha
  | ascii
  | blank
  | cntrl
  | digit
  | graph
  | lower
  | print
  | punct
  | space
  | upper
  | word
  | xdigit
deriving DecidableEq, Repr

namespace AsciiClass

/-- The class of a name. -/
def ofName? : String → Option AsciiClass
  | "alnum" => some alnum
  | "alpha" => some alpha
  | "ascii" => some ascii
  | "blank" => some blank
  | "cntrl" => some cntrl
  | "digit" => some digit
  | "graph" => some graph
  | "lower" => some lower
  | "print" => some print
  | "punct" => some punct
  | "space" => some space
  | "upper" => some upper
  | "word" => some word
  | "xdigit" => some xdigit
  | _ => none

/-- The ranges of characters of a class. -/
def ranges : AsciiClass → List (Char × Char)
  | alnum => [('0', '9'), ('A', 'Z'), ('a', 'z')]
  | alpha => [('A', 'Z'), ('a', 'z')]
  | ascii => [('\x00', '\x7f')]
  | blank => [('\t', '\t'), (' ', ' ')]
  | cntrl => [('\x00', '\x1f'), ('\x7f', '\x7f')]
  | digit => [('0', '9')]
  | graph => [('!', '~')]
  | lower => [('a', 'z')]
  | print => [(' ', '~')]
  | punct => [('!', '/'), (':', '@'), ('[', '\x60'), ('\x7b', '~')]
  | space => [('\t', '\r'), (' ', ' ')]
  | upper => [('A', 'Z')]
  | word => [('0', '9'), ('A', 'Z'), ('_', '_'), ('a', 'z')]
  | xdigit => [('0', '9'), ('A', 'F'), ('a', 'f')]

/-- The characters of a class. -/
def charSet (name : AsciiClass) : CharSet :=
  .ofRanges (name.ranges.map fun range => ⟨range.1, range.2⟩)

end AsciiClass

/-- The named class that a shorthand stands for among ASCII characters. -/
def Shorthand.asciiClass : Shorthand → AsciiClass
  | digit => .digit
  | space => .space
  | word => .word

/-- How two sets of characters are joined in a class. -/
inductive SetOperation
  | intersection
  | difference
  | symmetricDifference
deriving DecidableEq, Repr

/-- What stands in a class between its brackets. -/
inductive ClassSet
  | char (literal : Literal)
  | range (span : Span) (first last : Literal)
  | named (span : Span) (negated : Bool) (name : AsciiClass)
  | shorthand (span : Span) (negated : Bool) (name : Shorthand)
  /-- The characters with a property. -/
  | property (span : Span) (name : List Char)
  /-- A class in a class. -/
  | bracketed (span : Span) (negated : Bool) (set : ClassSet)
  /-- Several items, or none, but never just one. -/
  | union (span : Span) (items : List ClassSet)
  | operation (span : Span) (operation : SetOperation) (left right : ClassSet)
deriving Repr

namespace ClassSet

/-- Where an item stands. -/
def span : ClassSet → Span
  | char literal => literal.span
  | range span _ _ => span
  | named span _ _ => span
  | shorthand span _ _ => span
  | property span _ => span
  | bracketed span _ _ => span
  | union span _ => span
  | operation span _ _ _ => span

/-- Items one behind another as one item; where there are none, `place` is where they
would begin. -/
def ofItems (place : Place) : List ClassSet → ClassSet
  | [] => union (.empty place) []
  | [item] => item
  | first :: rest =>
    union ⟨first.span.start, ((rest.getLast?.map span).getD first.span).stop⟩ (first :: rest)

end ClassSet

/-- Which gaps a written assertion asks for; for those about words it depends on the
flags which characters make up words, and for lines what ends them. -/
inductive Anchor
  | lineStart
  | lineEnd
  | textStart
  | textEnd
  | wordBoundary
  | noWordBoundary
  | wordStart
  | wordEnd
  | wordStartHalf
  | wordEndHalf
deriving DecidableEq, Repr

/-- A written pattern. -/
inductive Node
  | empty (span : Span)
  /-- Flags for all that follows in the same group. -/
  | flags (span : Span) (settings : Settings)
  | char (literal : Literal)
  | dot (span : Span)
  | anchor (span : Span) (anchor : Anchor)
  /-- One character of a class. -/
  | oneOf (set : ClassSet)
  /-- A part repeated; `isLazy` if it asks for few rather than for many. -/
  | repetition (span : Span) (body : Node) (least : Nat) (most : Option Nat) (isLazy : Bool)
  /-- A group, with its number if it has one. -/
  | group (span : Span) (number : Option Nat) (settings : Settings) (body : Node)
  /-- Several patterns of which one has to fit. -/
  | alternation (span : Span) (branches : List Node)
  /-- Several patterns one behind another, at least two. -/
  | sequence (span : Span) (nodes : List Node)
deriving Repr

namespace Node

/-- Where a part stands. -/
def span : Node → Span
  | empty span => span
  | flags span _ => span
  | char literal => literal.span
  | dot span => span
  | anchor span _ => span
  | oneOf set => set.span
  | repetition span _ _ _ _ => span
  | group span _ _ _ => span
  | alternation span _ => span
  | sequence span _ => span

/-- Parts one behind another as one part. -/
def ofSequence (span : Span) : List Node → Node
  | [] => empty span
  | [node] => node
  | nodes => sequence span nodes

end Node

mutual

/-- The first part of a class that stands too deep, when so many levels are left. -/
def ClassSet.nestedTooDeep? : Nat → ClassSet → Option Span
  | 0, .bracketed span _ _ => some span
  | 0, .union span (_ :: _) => some span
  | 0, .operation span _ _ _ => some span
  | room + 1, .bracketed _ _ set => ClassSet.nestedTooDeep? room set
  | room + 1, .union _ items => ClassSet.anyNestedTooDeep? room items
  | room + 1, .operation _ _ left right =>
    (ClassSet.nestedTooDeep? room left).or (ClassSet.nestedTooDeep? room right)
  | _, _ => none

/-- The first of several parts of a class that stands too deep. -/
def ClassSet.anyNestedTooDeep? : Nat → List ClassSet → Option Span
  | _, [] => none
  | room, item :: items =>
    (ClassSet.nestedTooDeep? room item).or (ClassSet.anyNestedTooDeep? room items)

end

mutual

/-- The first part of a pattern that stands too deep inside others, when so many levels
are left. -/
def Node.nestedTooDeep? : Nat → Node → Option Span
  | room, .oneOf set => set.nestedTooDeep? room
  | 0, .repetition span _ _ _ _ => some span
  | 0, .group span _ _ _ => some span
  | 0, .alternation span _ => some span
  | 0, .sequence span _ => some span
  | room + 1, .repetition _ body _ _ _ => Node.nestedTooDeep? room body
  | room + 1, .group _ _ _ body => Node.nestedTooDeep? room body
  | room + 1, .alternation _ branches => Node.anyNestedTooDeep? room branches
  | room + 1, .sequence _ nodes => Node.anyNestedTooDeep? room nodes
  | _, _ => none

/-- The first part of several patterns that stands too deep. -/
def Node.anyNestedTooDeep? : Nat → List Node → Option Span
  | _, [] => none
  | room, node :: nodes =>
    (Node.nestedTooDeep? room node).or (Node.anyNestedTooDeep? room nodes)

end

end SeedPhrase.Pattern
