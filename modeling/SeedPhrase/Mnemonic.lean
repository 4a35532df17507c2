import SeedPhrase.ByteStream
import SeedPhrase.Seed
import SeedPhrase.Validation

/-!
# Mnemonics

A mnemonic is a sequence of words, not yet known to be a valid one: it is made from
whatever a user wrote and judged afterwards, so that what is wrong with it can be
shown.  Made from entropy it is always valid.

* `Mnemonic.ofPhrase`, `Mnemonic.phrase` — reading and writing a mnemonic as words
  between single spaces;
* `Mnemonic.encode`, `Mnemonic.toEntropy` — the words of 32 bytes, and back;
* `Mnemonic.validate` — whether the words are a valid mnemonic of a list;
* `Mnemonic.toSeed` — the seed of the phrase, valid or not;
* `intercalate_pieces`, `validate_eq_toEntropy` — no text is lost by cutting it into
  pieces, and validating agrees with decoding.
-/

namespace SeedPhrase

/-- A sequence of words. -/
structure Mnemonic where
  words : List String
deriving DecidableEq, Repr

namespace Mnemonic

open Log (Logged)

/-- The number of words. -/
def length (m : Mnemonic) : Nat := m.words.length

/-- The pieces of a text between single spaces; two spaces in a row, and a space at
either end, have an empty piece between or beside them. -/
def pieces (text : String) : List String := (text.toList.splitOn ' ').map String.ofList

/-- **Nothing is lost in the pieces.**  With a space between them they are the text
again. -/
theorem intercalate_pieces (text : String) : " ".intercalate (pieces text) = text := by
  apply String.toList_inj.mp
  rw [String.toList_intercalate, pieces, List.map_map]
  simp [Function.comp_def]

/-- A sequence without the empty pieces in front, except that one piece is always
left. -/
def dropEmpty : List String → List String
  | piece :: next :: rest => if piece = "" then dropEmpty (next :: rest) else piece :: next :: rest
  | pieces => pieces

/-- A sequence without the empty pieces at its end, except that one piece is always
left. -/
def dropLastEmpty (pieces : List String) : List String := (dropEmpty pieces.reverse).reverse

/-- The words of a written phrase.  Spaces after the last word are forgiven; any
other space too many makes an empty word. -/
def ofPhrase (text : String) : Mnemonic := ⟨dropLastEmpty (pieces text)⟩

/-- The words with a space between them. -/
def phrase (m : Mnemonic) : String := " ".intercalate m.words

/-- The mnemonic of entropy, its words taken from a list. -/
def encode (list : WordList) (entropy : Entropy) : Except Error Mnemonic :=
  (Codec.encode list entropy).map Mnemonic.mk

/-- A mnemonic of the next bytes of a stream, and the stream behind them. -/
def draw (list : WordList) (stream : ByteStream) : Except Error Mnemonic × ByteStream :=
  let (entropy, rest) := Entropy.draw stream
  (encode list entropy, rest)

/-- What the words spell if they are a valid mnemonic of the list. -/
def payload (list : WordList) (m : Mnemonic) : Logged (Except Error Payload) :=
  Validation.validate list m.words

/-- Whether the words are a valid mnemonic of the list. -/
def validate (list : WordList) (m : Mnemonic) : Logged (Except Error Unit) := do
  return (← m.payload list).map fun _ => ()

/-- The entropy of a valid mnemonic. -/
def toEntropy (list : WordList) (m : Mnemonic) : Logged (Except Error Entropy) := do
  return (← m.payload list).map Payload.entropy

/-- **One verdict.**  A mnemonic is judged valid exactly when its entropy can be had,
and otherwise both fail for the same reason. -/
theorem validate_eq_toEntropy (list : WordList) (m : Mnemonic) :
    (m.validate list).value = (m.toEntropy list).value.map fun _ => () := by
  simp only [validate, toEntropy, Log.Logged.value_bind, Log.Logged.value_pure]
  cases (m.payload list).value <;> rfl

/-- The seed of the phrase and a passphrase.  Whether the words are valid does not
matter. -/
def toSeed (m : Mnemonic) (passphrase : String) : Logged Seed := Seed.derive m.phrase passphrase

/-- What stands for the words where a value is shown for debugging: their number. -/
def redaction (m : Mnemonic) : String := "[REDACTED; " ++ toString m.length ++ "]"

/-- The text of a mnemonic for debugging, on one line. -/
def debugText (m : Mnemonic) : String := "Mnemonic \x7b words: " ++ m.redaction ++ " \x7d"

/-- The text of a mnemonic for debugging, spread over lines. -/
def debugLines (m : Mnemonic) : String :=
  "Mnemonic \x7b\n    words: " ++ m.redaction ++ ",\n\x7d"

end Mnemonic

end SeedPhrase
