import SeedPhrase.Hash.Sha256

/-!
# Entropy and its checksum

A mnemonic carries 32 bytes of entropy and, behind them, one byte by which a
mistyped word is noticed: the first byte of the hash of the entropy.

* `Entropy` — 32 bytes;
* `checksum` — the byte that belongs to some entropy;
* `Payload` — entropy with a checksum byte, which need not be the right one;
* `Payload.bytes`, `Payload.ofBytes` — the 33 bytes of a payload, and back.
-/

namespace SeedPhrase

/-- Bytes of entropy. -/
abbrev Entropy.size : Nat := 32

/-- The entropy of a mnemonic. -/
abbrev Entropy := Vector UInt8 Entropy.size

namespace Entropy

/-- Bytes as entropy, if there are exactly as many as it takes. -/
def ofBytes? (bytes : List UInt8) : Option Entropy :=
  if h : bytes.length = size then some ⟨bytes.toArray, h⟩ else none

end Entropy

/-- The byte that tells whether entropy was copied without a mistake. -/
def checksum (entropy : Entropy) : UInt8 :=
  (Hash.Sha256.digest entropy.toList).get 0

/-- What the words of a mnemonic spell: entropy and the checksum found with it. -/
structure Payload where
  entropy : Entropy
  checksum : UInt8
deriving DecidableEq, Repr

namespace Payload

/-- Bytes in a payload. -/
abbrev size : Nat := Entropy.size + 1

/-- Entropy with the checksum that belongs to it. -/
def ofEntropy (entropy : Entropy) : Payload := ⟨entropy, SeedPhrase.checksum entropy⟩

/-- The bytes of the entropy and then the checksum. -/
def bytes (payload : Payload) : List UInt8 := payload.entropy.toList ++ [payload.checksum]

/-- The payload of a byte string; bytes that are missing count as zero, and bytes
beyond the last are not looked at. -/
def ofBytes (bytes : List UInt8) : Payload where
  entropy := Vector.ofFn fun i => bytes.getD i 0
  checksum := bytes.getD Entropy.size 0

/-- A payload has 33 bytes. -/
@[simp] theorem length_bytes (payload : Payload) : payload.bytes.length = size := by
  simp [bytes]

/-- The bytes before the last are the entropy. -/
@[simp] theorem take_bytes (payload : Payload) :
    payload.bytes.take Entropy.size = payload.entropy.toList :=
  List.take_left' payload.entropy.length_toList

/-- The last byte is the checksum. -/
@[simp] theorem getElem?_bytes (payload : Payload) :
    payload.bytes[Entropy.size]? = some payload.checksum := by
  rw [bytes, List.getElem?_append_right (by simp)]
  simp

/-- Nothing is lost in the bytes of a payload. -/
@[simp] theorem ofBytes_bytes (payload : Payload) : ofBytes payload.bytes = payload := by
  obtain ⟨entropy, checksum⟩ := payload
  simp only [ofBytes, bytes, mk.injEq]
  constructor
  · ext i hi
    rw [Vector.getElem_ofFn, List.getD_eq_getElem?_getD,
      List.getElem?_append_left (by simpa using hi)]
    simp [hi]
  · simp [List.getD_eq_getElem?_getD]

/-- Thirty-three bytes are the bytes of their payload. -/
theorem bytes_ofBytes {bytes : List UInt8} (h : bytes.length = size) :
    (ofBytes bytes).bytes = bytes := by
  apply List.ext_getElem
  · simp [h]
  · intro i hi hi'
    simp only [ofBytes, Payload.bytes]
    by_cases hlt : i < Entropy.size
    · rw [List.getElem_append_left (by simpa using hlt)]
      simp [List.getD_eq_getElem?_getD, hi']
    · have : i = Entropy.size := by
        rw [h] at hi'; unfold size at hi'; omega
      subst this
      rw [List.getElem_append_right (by simp)]
      simp [List.getD_eq_getElem?_getD, hi']

end Payload

end SeedPhrase
