import SeedPhrase.Codec
import SeedPhrase.Log.Logged

/-!
# Is this a mnemonic?

Three checks are made, and the first one that fails is reported: the number of
words, then the vocabulary, then the checksum.  The vocabulary check collects every
unknown word, and a checksum is never complained about while a word is unknown.

* `unknownWords` — the words that a list does not have, with their places;
* `check` — the checks;
* `validate` — the checks, with a record of a rejection;
* `value_validate`, `records_validate_of_ok`, `records_validate_of_error` — the answer
  and the records of a validation.
-/

namespace SeedPhrase.Validation

/-- The words that are not in the list, in order, with their places. -/
def unknownWords (list : WordList) (words : List String) : List UnknownWord :=
  (words.zipIdx.filter fun entry => !list.contains entry.1).map
    fun entry => ⟨entry.2, entry.1⟩

/-- A payload, provided that it holds the checksum of its entropy. -/
def checkChecksum (payload : Payload) : Except Error Payload :=
  if payload.checksum = checksum payload.entropy then .ok payload
  else .error (.badMnemonic (.checksumMismatch (checksum payload.entropy) payload.checksum))

/-- A word that decoding misses, when every word has been found before, is a promise of the
list that was broken; other errors are what they are. -/
def vanished : Error → Error
  | .wordNotInList w => .internal ("word vanished from list during decode: " ++ w)
  | error => error

/-- The payload of a valid mnemonic, or the first check that fails. -/
def check (list : WordList) (words : List String) : Except Error Payload :=
  if words.length ≠ Codec.wordCount then
    .error (.badMnemonic (.wrongWordCount words.length))
  else
    match unknownWords list words with
    | [] => do checkChecksum (← (Codec.decode list words).mapError vanished)
    | unknown => .error (.badMnemonic (.unknownWords unknown))

/-- The name under which validation is logged. -/
def operation : String := "mnemonic validation"

/-- The record of a failed check.  Of a rejected mnemonic only the kind of the
rejection is recorded. -/
def failureRecord (error : Error) : Log.Record :=
  match error.badMnemonic? with
  | some bad => Log.rejectedInput operation bad.kind.name
  | none => Log.cryptoFailure operation

/-- The checks, with a record if one of them fails. -/
def validate (list : WordList) (words : List String) : Log.Logged (Except Error Payload) :=
  match check list words with
  | .ok payload => ⟨.ok payload, []⟩
  | .error error => ⟨.error error, [failureRecord error]⟩

/-- What validation answers does not depend on its being logged. -/
@[simp] theorem value_validate (list : WordList) (words : List String) :
    (validate list words).value = check list words := by
  unfold validate
  cases check list words <;> rfl

/-- A valid mnemonic leaves no record. -/
theorem records_validate_of_ok {list : WordList} {words : List String} {payload : Payload}
    (h : check list words = .ok payload) : (validate list words).records = [] := by
  simp [validate, h]

/-- A failed check leaves exactly one record. -/
theorem records_validate_of_error {list : WordList} {words : List String} {error : Error}
    (h : check list words = .error error) :
    (validate list words).records = [failureRecord error] := by
  simp [validate, h]

end SeedPhrase.Validation
