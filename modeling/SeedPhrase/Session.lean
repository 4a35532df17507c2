import SeedPhrase.Cache.Basic
import SeedPhrase.Mnemonic
import SeedPhrase.WordList.English

/-!
# Working with English mnemonics

All mnemonics of a process share one cache of the English word list and one
generator of random bytes.  An operation that needs the list asks the cache for it
anew, so the list may be forgotten between any two operations and is brought back
by the next one that needs it.

* `Session` — the cache and the generator;
* `Source`, `Question` — the ways to come by a mnemonic, and what can be asked of
  one;
* `Session.perform` — one operation;
* `Session.run` — operations one after another, with all their records.
-/

namespace SeedPhrase

open Log (Logged)

/-- The English list's cache and the process's own generator. -/
structure Session where
  cache : Cache
  generator : ByteStream

/-- Where a mnemonic comes from. -/
inductive Source
  /-- Entropy, which has to be of the right length. -/
  | entropy (bytes : List UInt8)
  /-- A written phrase. -/
  | phrase (text : String)
  /-- Words as they are. -/
  | words (words : List String)
  /-- The next bytes of a caller's generator. -/
  | stream (stream : ByteStream)
  /-- The next bytes of the process's own generator. -/
  | generator

/-- What can be asked of a mnemonic. -/
inductive Question
  /-- For another one with the same words. -/
  | clone
  | phrase
  | validate
  | entropy
  | seed (passphrase : String)
  | equals (other : Mnemonic)
  | debugText

/-- An operation. -/
inductive Operation
  /-- Ask for the English list. -/
  | list
  /-- Let the cache forget it. -/
  | evict
  /-- Make a mnemonic. -/
  | make (source : Source)
  /-- Ask something of a mnemonic. -/
  | ask (m : Mnemonic) (question : Question)

/-- What an operation comes back with. -/
inductive Response
  | list (loaded : Loaded)
  | evicted
  | mnemonic (m : Mnemonic)
  /-- A mnemonic and the rest of the generator it was drawn from. -/
  | drawn (m : Mnemonic) (rest : ByteStream)
  | text (text : String)
  | valid
  | entropy (entropy : Entropy)
  | seed (seed : Seed)
  | truth (holds : Bool)
  | failure (error : Error)

namespace Session

/-- Operations of a session: they may change it, and they log. -/
abbrev Work (α : Type) := StateT Session Logged α

/-- A process that has just begun, with a generator, whatever its bytes are. -/
def start (generator : ByteStream) : Session := ⟨.empty, generator⟩

/-- The English list, from the cache or newly loaded into it. -/
def loadEnglish : Work Loaded := fun session => do
  let (loaded, cache) ← session.cache.obtain .english
  return (loaded, { session with cache := cache })

/-- The words of the English list. -/
def english : Work WordList := return (← loadEnglish).list

/-- A logged value as an operation. -/
def logged {α : Type} (value : Logged α) : Work α := StateT.lift value

/-- The response to something that may fail. -/
def respond {α : Type} (answer : α → Response) : Except Error α → Response
  | .ok value => answer value
  | .error error => .failure error

/-- Make a mnemonic.  Entropy of the wrong length is refused before the list is asked
for. -/
def make : Source → Work Response
  | .entropy bytes =>
    match Entropy.ofBytes? bytes with
    | none => return .failure (.invalidEntropyLength Entropy.size bytes.length)
    | some entropy => return respond .mnemonic (Mnemonic.encode (← english) entropy)
  | .phrase text => return .mnemonic (.ofPhrase text)
  | .words words => return .mnemonic ⟨words⟩
  | .stream stream => do
    let (made, rest) := Mnemonic.draw (← english) stream
    return respond (.drawn · rest) made
  | .generator => do
    let list ← english
    let session ← get
    let (made, generator) := Mnemonic.draw list session.generator
    set { session with generator := generator }
    return respond .mnemonic made

/-- Ask something of a mnemonic. -/
def ask (m : Mnemonic) : Question → Work Response
  | .clone => return .mnemonic m
  | .phrase => return .text m.phrase
  | .validate => return respond (fun _ => .valid) (← logged (m.validate (← english)))
  | .entropy => return respond .entropy (← logged (m.toEntropy (← english)))
  | .seed passphrase => return .seed (← logged (m.toSeed passphrase))
  | .equals other => return .truth (m = other)
  | .debugText => return .text m.debugText

/-- One operation. -/
def perform : Operation → Work Response
  | .list => return .list (← loadEnglish)
  | .evict => fun session => do
    let cache ← session.cache.evict
    return (.evicted, { session with cache := cache })
  | .make source => make source
  | .ask m question => ask m question

/-- Operations one after another, and their responses. -/
def run (operations : List Operation) : Work (List Response) := operations.mapM perform

end Session

end SeedPhrase
