import SeedPhrase.Bits.Regroup
import SeedPhrase.Payload
import SeedPhrase.WordList.Basic

/-!
# Words for bytes

The 33 bytes of a payload are 264 bits, and 264 bits are 24 groups of eleven, one
for each word.  The lowest bits of the first byte choose the first word, and the
checksum comes to lie in the highest bits of the last one.

* `places`, `ofIndices` — the places of a payload's words in a list, and the payload
  of such places;
* `encode` — the words of entropy, its checksum included;
* `decode` — the payload that words spell, right checksum or not.
-/

namespace SeedPhrase.Codec

/-- Words in a mnemonic. -/
abbrev wordCount : Nat := 24

/-- Bits in a byte. -/
abbrev byteBits : Nat := 8

/-- Bits that one word stands for. -/
abbrev wordBits : Nat := 11

/-- The bits of a place in a word list, all set. -/
abbrev indexMask : Nat := (1 <<< wordBits) - 1

/-- The places of the words that spell a payload, as its bits have them. -/
def places (payload : Payload) : List UInt32 :=
  Bits.regroup byteBits (·.tap wordBits) (payload.bytes.map UInt8.toUInt32)

/-- The bytes that a sequence of places spells. -/
def bytesOf (indices : List WordList.Index) : List UInt8 :=
  (Bits.regroup wordBits (·.drain byteBits) (indices.map fun i => UInt32.ofNat i.val)).map
    UInt32.toUInt8

/-- The payload that a sequence of places spells. -/
def ofIndices (indices : List WordList.Index) : Payload := .ofBytes (bytesOf indices)

/-- What it is to come upon a place that no list of words has. -/
def outOfBounds (place : Nat) : Error := .internal s!"index out of bounds: {place}"

/-- The word at a place, of which it is an error to have none. -/
def wordAt (list : WordList) (place : UInt32) : Except Error String :=
  match list.get? place.toNat with
  | some w => .ok w
  | none => .error (outOfBounds place.toNat)

/-- The words of some entropy followed by its checksum. -/
def encode (list : WordList) (entropy : Entropy) : Except Error (List String) :=
  (places (.ofEntropy entropy)).mapM (wordAt list)

/-- The place of a word, of which it is an error to have none, or one that takes more bits
than a word stands for. -/
def locate (list : WordList) (w : String) : Except Error WordList.Index :=
  match list.indexOf? w with
  | some i => if i.val ≤ indexMask then .ok i else .error (outOfBounds i.val)
  | none => .error (.wordNotInList w)

/-- The payload that words spell.  Their number is looked at before any of them, and
the first one that is not in the list ends the reading; whether the checksum is
right does not matter here. -/
def decode (list : WordList) (words : List String) : Except Error Payload :=
  if words.length ≠ wordCount then
    .error (.badMnemonic (.wrongWordCount words.length))
  else
    (words.mapM (locate list)).map ofIndices

end SeedPhrase.Codec
