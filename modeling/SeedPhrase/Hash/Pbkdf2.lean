import SeedPhrase.Hash.Hmac

/-!
# Stretching a password

A password is made expensive to guess by hashing under it again and again,
beginning with a salt, and adding up all the hashes bit by bit.  One hash is
64 bytes, which is all that is asked for here, so one block of output is made
and its number, one, follows the salt.

* `chain` — the hashes, each the keyed hash of the one before;
* `derive` — the sum of the first hashes, computed in one pass over their words with a
  prepared key;
* `bytes_step` — what is done to words in that pass is what should be done to bytes.
-/

namespace SeedPhrase.Hash.Pbkdf2

/-- Two hashes added bit by bit, without carries. -/
def add (x y : Sha512.Digest) : Sha512.Digest :=
  Vector.zipWith (· ^^^ ·) x y

/-- The number of the output block as it follows the salt: one, in four bytes. -/
def blockNumber : List UInt8 := [0, 0, 0, 1]

/-- The hashes in their order, counted from zero: the first is that of the salt and
the block number, and each later one is that of the hash before it. -/
def chain (password salt : List UInt8) : Nat → Sha512.Digest
  | 0 => Hmac.mac password (salt ++ blockNumber)
  | i + 1 => Hmac.mac password (chain password salt i).toList

/-- Go `steps` hashes further from the one that the state `last` stands for, joining each
to `sum` bit by bit. -/
def accumulate (key : Hmac.Key) : (steps : Nat) → (last sum : Sha512.State) → Sha512.State
  | 0, _, sum => sum
  | steps + 1, last, sum =>
    let next := key.finishHash last
    accumulate key steps next (sum.xor next)

/-- The password stretched with `iterations` hashes; asking for none makes one all the
same, because there is no sum of nothing. -/
def derive (password salt : List UInt8) (iterations : Nat) : Sha512.Digest :=
  let key := Hmac.Key.ofBytes password
  let first := key.finish (salt ++ blockNumber)
  (accumulate key (iterations - 1) first first).bytes

/-- **One step of the way.**  The bytes of the next hash are the keyed hash of the bytes of
the last one, and the bytes of the sum are added up byte by byte. -/
theorem bytes_step (password : List UInt8) (last sum : Sha512.State) :
    let next := (Hmac.Key.ofBytes password).finishHash last
    next.bytes = Hmac.mac password last.bytes.toList ∧
      (sum.xor next).bytes = add sum.bytes next.bytes := by
  constructor
  · rw [← Hmac.Key.mac_ofBytes, Hmac.Key.mac_bytes]
  · exact Sha512.bytes_xor _ _

end SeedPhrase.Hash.Pbkdf2
