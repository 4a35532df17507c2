import SeedPhrase.Text.Hex

/-!
# What can go wrong

* `BadMnemonic` — the three ways in which a word sequence is no valid mnemonic,
  with everything needed to correct it;
* `Error` — those and the failures of the other operations.

Errors carry their causes; the wording is in `BadMnemonic.message` and
`Error.message` and nowhere else.  What must not leak, such as the words of a
rejected mnemonic, is in the values and the messages but not in the *kind*, which
is what goes into logs.
-/

namespace SeedPhrase

/-- A word that is in no list, with its place in the mnemonic, counted from
zero. -/
structure UnknownWord where
  position : Nat
  word : String
deriving DecidableEq, Repr

/-- Why a word sequence was rejected. -/
inductive BadMnemonic
  /-- The number of words, not being 24. -/
  | wrongWordCount (count : Nat)
  /-- All the words that the list does not have, in the order of the mnemonic. -/
  | unknownWords (unknown : List UnknownWord)
  /-- The checksum of the entropy beside the one that the last word carries. -/
  | checksumMismatch (expected given : UInt8)
deriving DecidableEq, Repr

namespace BadMnemonic

/-- The check that rejected a word sequence, and nothing else about it. -/
inductive Kind
  | wrongWordCount
  | unknownWords
  | checksumMismatch
deriving DecidableEq, Repr

/-- The name of a kind, as it appears in logs. -/
def Kind.name : Kind → String
  | wrongWordCount => "WrongWordCount"
  | unknownWords => "UnknownWords"
  | checksumMismatch => "ChecksumMismatch"

/-- The check that failed. -/
def kind : BadMnemonic → Kind
  | wrongWordCount _ => .wrongWordCount
  | unknownWords _ => .unknownWords
  | checksumMismatch _ _ => .checksumMismatch

/-- Where the unknown words stand; the other kinds have none. -/
def unknownPositions : BadMnemonic → List Nat
  | unknownWords unknown => unknown.map UnknownWord.position
  | wrongWordCount _ => []
  | checksumMismatch _ _ => []

/-- A byte as it is shown in messages. -/
def shownByte (byte : UInt8) : String := "0x" ++ Text.hex [byte]

/-- What the user is told. -/
def message : BadMnemonic → String
  | wrongWordCount count => s!"expected 24-word mnemonic, got {count} words"
  | unknownWords unknown =>
    "the following words in the mnemonic were not in the word list: " ++
      ", ".intercalate (unknown.map UnknownWord.word)
  | checksumMismatch expected given =>
    s!"mnemonic failed checksum, expected {shownByte expected}, got {shownByte given}"

end BadMnemonic

/-- Why an operation failed. -/
inductive Error
  /-- A word sequence is no valid mnemonic. -/
  | badMnemonic (cause : BadMnemonic)
  /-- Entropy of another length than the required one. -/
  | invalidEntropyLength (expected actual : Nat)
  /-- The first word of a mnemonic that could not be looked up while decoding. -/
  | wordNotInList (word : String)
  /-- A word list that breaks one of the rules for word lists. -/
  | invalidWordList (reason : String)
  /-- Parameters that no seed can be derived with. -/
  | invalidSeedConfig (reason : String)
  /-- A promise of the library to itself was broken. -/
  | internal (reason : String)
deriving DecidableEq, Repr

namespace Error

/-- The rejection, if that is what the error is. -/
def badMnemonic? : Error → Option BadMnemonic
  | badMnemonic cause => some cause
  | _ => none

/-- What the user is told; a rejected mnemonic is reported in its own words. -/
def message : Error → String
  | badMnemonic cause => cause.message
  | invalidEntropyLength expected actual =>
    s!"invalid entropy byte length: expected {expected}, got {actual}"
  | wordNotInList word => "word not in word list: " ++ word
  | invalidWordList reason => "invalid word list: " ++ reason
  | invalidSeedConfig reason => "invalid seed configuration: " ++ reason
  | internal reason => "(BUG) " ++ reason

/-- The error that an error reports on behalf of.  A rejected mnemonic is not
wrapped but passed on as it is, and the other errors arise by themselves, so there
is never one. -/
def source? (_ : Error) : Option Error := none

end Error

end SeedPhrase
