import SeedPhrase.Pattern.CharSet

/-!
# Ranges of characters in bytes

A text is stored as bytes, one to four for each character.  The bytes of the characters
of a range do not in general make up ranges of their own; but every range can be cut into
parts for which they do: a byte of the first range, then one of the second, and so on, in
any combination, are the bytes of a character of the part.

* `CharRange.byteRanges` — the ranges of bytes for each part of a range of characters.
-/

namespace SeedPhrase

/-- The bytes from one to another, both included. -/
structure ByteRange where
  first : UInt8
  last : UInt8
deriving DecidableEq, Repr

/-- The codes with which characters of more bytes begin. -/
def widerFrom : List Nat := [0x80, 0x800, 0x10000]

/-- The numbers of codes that differ only in their last byte, in the last two, and in the
last three. -/
def blockSizes : List Nat := [64, 4096, 262144]

/-- Where a range of codes is to be cut that neither is in one block nor consists of whole
blocks: before its second block, or else before its last. -/
def blockCut? (lower upper size : Nat) : Option Nat :=
  if lower / size = upper / size then none
  else if lower % size ≠ 0 then some ((lower / size + 1) * size)
  else if upper % size ≠ size - 1 then some (upper / size * size)
  else none

/-- Where a range of codes is to be cut, if at all: the first code of its upper part. -/
def cut? (lower upper : Nat) : Option Nat :=
  (widerFrom.find? fun code => lower < code && code ≤ upper).or
    (if upper < 0x80 then none else blockSizes.findSome? (blockCut? lower upper))

/-- A range of codes, cut until there is nothing to be cut. -/
def codeRanges (lower upper : Nat) : List (Nat × Nat) :=
  match cut? lower upper with
  | none => [(lower, upper)]
  | some code =>
    if _h : lower < code ∧ code ≤ upper then
      codeRanges lower (code - 1) ++ codeRanges code upper
    else
      [(lower, upper)]
termination_by upper - lower

namespace CharRange

/-- The parts of a range, by codes, of which each is told by a range for each byte. -/
def parts (range : CharRange) : List (Nat × Nat) :=
  if range.first ≤ charBeforeGap ∧ charBehindGap ≤ range.last then
    codeRanges range.first.toNat charBeforeGap.toNat ++
      codeRanges charBehindGap.toNat range.last.toNat
  else
    codeRanges range.first.toNat range.last.toNat

/-- For each part of a range the ranges of the bytes of its characters. -/
def byteRanges (range : CharRange) : List (List ByteRange) :=
  range.parts.map fun (lower, upper) =>
    List.zipWith .mk (String.utf8EncodeChar (Char.ofNat lower))
      (String.utf8EncodeChar (Char.ofNat upper))

end CharRange

/-- For each part of a set the ranges of the bytes of its characters. -/
def CharSet.byteRanges (set : CharSet) : List (List ByteRange) :=
  set.ranges.flatMap CharRange.byteRanges

end SeedPhrase
