import SeedPhrase.Hash.Pbkdf2
import SeedPhrase.Log.Logged

/-!
# Seeds

A seed is the 64 bytes from which a wallet makes its keys.  It is derived from the
written phrase and a passphrase by stretching the phrase under a salt that is a
fixed label followed by the passphrase.

* `Seed.Config` — the parameters of a derivation, those of BIP-39 by default;
* `Seed.Deriver` — parameters that can be used, as facts about them show;
* `Seed.Deriver.seed` — the derivation; `Seed.Deriver.derive` also logs the time it
  takes.
-/

namespace SeedPhrase

/-- Bytes in a seed. -/
abbrev Seed.size : Nat := 64

/-- The bytes derived from a phrase and a passphrase. -/
structure Seed where
  bytes : Vector UInt8 Seed.size
deriving DecidableEq

namespace Seed

/-- The bytes in hexadecimal. -/
def toHex (seed : Seed) : String := Text.hex seed.bytes.toList

/-- The text that stands for any seed where a value is shown for debugging. -/
def debugText (_ : Seed) : String := "Seed([REDACTED])"

/-- The parameters of a derivation. -/
structure Config where
  iterations : Nat := 2048
  outputSize : Nat := size
  saltLabel : String := "mnemonic"
deriving DecidableEq, Repr

/-- The parameters of BIP-39. -/
def Config.bip39 : Config := {}

/-- What makes parameters unusable. -/
inductive Config.Fault
  /-- No hashes are to be made. -/
  | noIterations
  /-- A seed of another length is asked for. -/
  | wrongOutputSize (found : Nat)
deriving DecidableEq, Repr

namespace Config

/-- A fault in words. -/
def Fault.message : Fault → String
  | noIterations => "PBKDF2 iterations must be non-zero"
  | wrongOutputSize found => s!"output size must be {size} bytes, got {found}"

/-- A fault as a failure of the library. -/
def Fault.toError (fault : Fault) : Error := .invalidSeedConfig fault.message

end Config

/-- Parameters that can be used. -/
structure Deriver where
  config : Config
  iterations_pos : 0 < config.iterations
  outputSize_eq : config.outputSize = size

/-- A text as bytes. -/
def utf8 (text : String) : List UInt8 := text.toUTF8.data.toList

namespace Deriver

/-- A deriver for some parameters, unless they cannot be used; the number of
iterations is looked at first. -/
def ofConfig (config : Config) : Except Config.Fault Deriver :=
  if hi : config.iterations = 0 then .error .noIterations
  else if ho : config.outputSize = size then .ok ⟨config, Nat.pos_of_ne_zero hi, ho⟩
  else .error (.wrongOutputSize config.outputSize)

/-- The deriver of BIP-39. -/
def bip39 : Deriver := ⟨.bip39, by decide, rfl⟩

/-- The seed of a phrase and a passphrase. -/
def seed (deriver : Deriver) (phrase passphrase : String) : Seed :=
  ⟨Hash.Pbkdf2.derive (utf8 phrase) (utf8 (deriver.config.saltLabel ++ passphrase))
    deriver.config.iterations⟩

/-- The name under which a derivation is logged. -/
def operation : String := "seed derivation"

/-- The seed of a phrase and a passphrase, with a record of the time it took; this
library has no clock, so the time is left open. -/
def derive (deriver : Deriver) (phrase passphrase : String) : Log.Logged Seed :=
  ⟨deriver.seed phrase passphrase, [Log.performance operation none true]⟩

end Deriver

/-- The seed of a phrase and a passphrase with the parameters of BIP-39. -/
def derive (phrase passphrase : String) : Log.Logged Seed :=
  Deriver.bip39.derive phrase passphrase

end Seed

end SeedPhrase
