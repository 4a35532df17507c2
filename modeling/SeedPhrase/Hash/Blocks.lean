/-!
# Messages in blocks

The hash functions of the SHA-2 family read a message in blocks of one size.
Before that the message is filled up: one byte with its top bit set, as many
zero bytes as are needed, and the length in bits as a big-endian number, so that
a whole number of blocks comes out.

* `blocks` — a byte string cut into blocks, the last one perhaps short;
* `fill` — what follows a message of a given length;
* `blocks_append` — a block in front of a byte string is its first block.
-/

namespace SeedPhrase.Hash

/-- A byte string in consecutive pieces of `size` bytes; the last piece may be
shorter.  A size of zero cuts nothing. -/
def blocks (size : Nat) (bytes : List UInt8) : List (List UInt8) :=
  if 0 < size ∧ bytes ≠ [] then
    bytes.take size :: blocks size (bytes.drop size)
  else
    []
termination_by bytes.length
decreasing_by
  rename_i h
  have := List.length_pos_iff.mpr h.2
  simp only [List.length_drop]
  omega

/-- The lowest `width` bytes of a number, the most significant first. -/
def bigEndian : (width : Nat) → Nat → List UInt8
  | 0, _ => []
  | width + 1, n => UInt8.ofNat (n >>> (8 * width)) :: bigEndian width n

/-- What is written after a message of `length` bytes, for blocks of `size` bytes
that end in a length field of `field` bytes. -/
def fill (size field length : Nat) : List UInt8 :=
  let used := (length + 1 + field) % size
  0x80 :: List.replicate (if used = 0 then 0 else size - used) 0 ++ bigEndian field (8 * length)

/-- **A block is read first.**  When exactly one block stands in front of a byte
string, it is the first of the blocks and the others are those of the string. -/
theorem blocks_append {size : Nat} (hsize : 0 < size) {block : List UInt8}
    (hblock : block.length = size) (bytes : List UInt8) :
    blocks size (block ++ bytes) = block :: blocks size bytes := by
  have hne : block ++ bytes ≠ [] := by
    intro h
    have : block.length = 0 := by simp [(List.append_eq_nil_iff.mp h).1]
    omega
  rw [blocks, if_pos ⟨hsize, hne⟩]
  simp [← hblock]

end SeedPhrase.Hash
