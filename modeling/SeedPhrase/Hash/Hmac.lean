import SeedPhrase.Hash.Sha512

/-!
# Keyed hashing

A message is authenticated under a key by hashing it twice, each time with a
block made from the key in front.

* `mac` — the keyed hash of a message, as it is defined;
* `Key` — a key that was prepared: both key blocks are already absorbed, so that
  each message costs only the hashing of itself;
* `Key.mac_ofBytes` — a prepared key gives the same hash as the definition;
* `Key.mac_bytes` — where the message is itself a hash, its words are enough.
-/

namespace SeedPhrase.Hash.Hmac

/-- The key as one block: a key longer than a block is hashed first, and what is
shorter than a block is followed by zeros. -/
def keyBlock (key : List UInt8) : List UInt8 :=
  let short := if key.length ≤ Sha512.blockSize then key else (Sha512.digest key).toList
  short ++ List.replicate (Sha512.blockSize - short.length) 0

/-- The key block in front of the message. -/
def innerPad (key : List UInt8) : List UInt8 :=
  (keyBlock key).map (· ^^^ 0x36)

/-- The key block in front of the hash of the message. -/
def outerPad (key : List UInt8) : List UInt8 :=
  (keyBlock key).map (· ^^^ 0x5c)

/-- The hash of a message under a key. -/
def mac (key message : List UInt8) : Sha512.Digest :=
  Sha512.digest (outerPad key ++ (Sha512.digest (innerPad key ++ message)).toList)

/-- A key block is one block, whatever the key. -/
theorem length_keyBlock (key : List UInt8) : (keyBlock key).length = Sha512.blockSize := by
  unfold keyBlock
  split
  · simp only [List.length_append, List.length_replicate]; omega
  · simp [Sha512.blockSize, Sha512.digestSize]

/-- A key whose two blocks are absorbed: `inner` before the message, `outer` before
the hash of the message. -/
structure Key where
  inner : Sha512.State
  outer : Sha512.State
deriving DecidableEq, Repr

/-- Prepare a key. -/
def Key.ofBytes (key : List UInt8) : Key where
  inner := Sha512.initial.absorb (innerPad key)
  outer := Sha512.initial.absorb (outerPad key)

/-- The state whose bytes are the hash of a message under a prepared key. -/
def Key.finish (key : Key) (message : List UInt8) : Sha512.State :=
  key.outer.finishHash (key.inner.finish Sha512.blockSize message)

/-- The state whose bytes are the hash, under a prepared key, of the hash that another state
stands for. -/
def Key.finishHash (key : Key) (last : Sha512.State) : Sha512.State :=
  key.outer.finishHash (key.inner.finishHash last)

/-- The hash of a message under a prepared key. -/
def Key.mac (key : Key) (message : List UInt8) : Sha512.Digest := (key.finish message).bytes

/-- **Preparing changes nothing.**  A prepared key hashes every message as the key
itself does. -/
theorem Key.mac_ofBytes (key message : List UInt8) :
    (Key.ofBytes key).mac message = Hmac.mac key message := by
  have hinner : (innerPad key).length = Sha512.blockSize := by
    simp [innerPad, length_keyBlock]
  have houter : (outerPad key).length = Sha512.blockSize := by
    simp [outerPad, length_keyBlock]
  simp only [Key.mac, Key.finish, Key.ofBytes, Hmac.mac, Sha512.digest]
  rw [Sha512.finish_append _ _ hinner, Sha512.finish_append _ _ houter, Nat.zero_add,
    Sha512.finish_bytes]

/-- **Words are enough.**  The hash of a hash is made of the words of the latter. -/
theorem Key.mac_bytes (key : Key) (last : Sha512.State) :
    key.mac last.bytes.toList = (key.finishHash last).bytes := by
  rw [Key.mac, Key.finish, Sha512.finish_bytes, Key.finishHash]

end SeedPhrase.Hash.Hmac
