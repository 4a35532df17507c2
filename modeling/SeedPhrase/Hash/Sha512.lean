import SeedPhrase.Hash.Blocks

/-!
# SHA-512

The 512-bit hash function of the SHA-2 family on 64-bit words: a state of eight words
goes through 80 rounds for each block of sixteen words, five times sixteen of them.

* `digest` — the hash of a byte string;
* `State.absorb` — the state after one more block;
* `State.finish` — the state at the end of a message whose first blocks are already
  absorbed; its bytes are the hash;
* `State.finishHash` — the same where what is left of the message is a hash, taken in its
  words;
* `finish_append` — absorbing a block and then finishing is the same as
  finishing with the block still in front, so a common beginning of many
  messages need be hashed only once;
* `finish_bytes` — a hash may be taken in its words instead of its bytes.
-/

namespace SeedPhrase.Hash.Sha512

/-- Bytes in a block. -/
abbrev blockSize : Nat := 128

/-- Bytes in a hash. -/
abbrev digestSize : Nat := 64

/-- A hash. -/
abbrev Digest := Vector UInt8 digestSize

/-- The eight words that are carried from block to block. -/
structure State where
  a : UInt64
  b : UInt64
  c : UInt64
  d : UInt64
  e : UInt64
  f : UInt64
  g : UInt64
  h : UInt64
deriving DecidableEq, Repr

/-- The first 64 bits of the fractional parts of the square roots of the first
eight primes. -/
def initial : State where
  a := 0x6a09e667f3bcc908
  b := 0xbb67ae8584caa73b
  c := 0x3c6ef372fe94f82b
  d := 0xa54ff53a5f1d36f1
  e := 0x510e527fade682d1
  f := 0x9b05688c2b3e6c1f
  g := 0x1f83d9abfb41bd6b
  h := 0x5be0cd19137e2179

/-- Sixteen words: those of a block, or as many of those that the rounds consume. -/
structure Block where
  w0 : UInt64
  w1 : UInt64
  w2 : UInt64
  w3 : UInt64
  w4 : UInt64
  w5 : UInt64
  w6 : UInt64
  w7 : UInt64
  w8 : UInt64
  w9 : UInt64
  w10 : UInt64
  w11 : UInt64
  w12 : UInt64
  w13 : UInt64
  w14 : UInt64
  w15 : UInt64
deriving DecidableEq, Repr

/-- The first 64 bits of the fractional parts of the cube roots of the first
80 primes, one for each round, sixteen at a time. -/
def roundConstants : Vector Block 5 :=
  #v[
    ⟨0x428a2f98d728ae22, 0x7137449123ef65cd, 0xb5c0fbcfec4d3b2f, 0xe9b5dba58189dbbc,
      0x3956c25bf348b538, 0x59f111f1b605d019, 0x923f82a4af194f9b, 0xab1c5ed5da6d8118,
      0xd807aa98a3030242, 0x12835b0145706fbe, 0x243185be4ee4b28c, 0x550c7dc3d5ffb4e2,
      0x72be5d74f27b896f, 0x80deb1fe3b1696b1, 0x9bdc06a725c71235, 0xc19bf174cf692694⟩,
    ⟨0xe49b69c19ef14ad2, 0xefbe4786384f25e3, 0x0fc19dc68b8cd5b5, 0x240ca1cc77ac9c65,
      0x2de92c6f592b0275, 0x4a7484aa6ea6e483, 0x5cb0a9dcbd41fbd4, 0x76f988da831153b5,
      0x983e5152ee66dfab, 0xa831c66d2db43210, 0xb00327c898fb213f, 0xbf597fc7beef0ee4,
      0xc6e00bf33da88fc2, 0xd5a79147930aa725, 0x06ca6351e003826f, 0x142929670a0e6e70⟩,
    ⟨0x27b70a8546d22ffc, 0x2e1b21385c26c926, 0x4d2c6dfc5ac42aed, 0x53380d139d95b3df,
      0x650a73548baf63de, 0x766a0abb3c77b2a8, 0x81c2c92e47edaee6, 0x92722c851482353b,
      0xa2bfe8a14cf10364, 0xa81a664bbc423001, 0xc24b8b70d0f89791, 0xc76c51a30654be30,
      0xd192e819d6ef5218, 0xd69906245565a910, 0xf40e35855771202a, 0x106aa07032bbd1b8⟩,
    ⟨0x19a4c116b8d2d0c8, 0x1e376c085141ab53, 0x2748774cdf8eeb99, 0x34b0bcb5e19b48a8,
      0x391c0cb3c5c95a63, 0x4ed8aa4ae3418acb, 0x5b9cca4f7763e373, 0x682e6ff3d6b2b8a3,
      0x748f82ee5defb2fc, 0x78a5636f43172f60, 0x84c87814a1f0ab72, 0x8cc702081a6439ec,
      0x90befffa23631e28, 0xa4506cebde82bde9, 0xbef9a3f7b2c67915, 0xc67178f2e372532b⟩,
    ⟨0xca273eceea26619c, 0xd186b8c721c0c207, 0xeada7dd6cde0eb1e, 0xf57d4f7fee6ed178,
      0x06f067aa72176fba, 0x0a637dc5a2c898a6, 0x113f9804bef90dae, 0x1b710b35131c471b,
      0x28db77f523047d84, 0x32caab7b40c72493, 0x3c9ebe0a15c9bebc, 0x431d67c49c100d4c,
      0x4cc5d4becb3e42b6, 0x597f299cfc657e2a, 0x5fcb6fab3ad6faec, 0x6c44198c4a475817⟩]

/-- A word turned right by `n` bits, for `n` between 1 and 63. -/
@[inline] def rotateRight (x : UInt64) (n : UInt64) : UInt64 :=
  (x >>> n) ||| (x <<< (64 - n))

/-- Mixes the word of fifteen rounds ago into the schedule. -/
@[inline] def smallSigma0 (x : UInt64) : UInt64 :=
  rotateRight x 1 ^^^ rotateRight x 8 ^^^ (x >>> 7)

/-- Mixes the word of two rounds ago into the schedule. -/
@[inline] def smallSigma1 (x : UInt64) : UInt64 :=
  rotateRight x 19 ^^^ rotateRight x 61 ^^^ (x >>> 6)

/-- Mixes the first word of the state into a round. -/
@[inline] def bigSigma0 (x : UInt64) : UInt64 :=
  rotateRight x 28 ^^^ rotateRight x 34 ^^^ rotateRight x 39

/-- Mixes the fifth word of the state into a round. -/
@[inline] def bigSigma1 (x : UInt64) : UInt64 :=
  rotateRight x 14 ^^^ rotateRight x 18 ^^^ rotateRight x 41

/-- Takes each bit from `y` where `x` has a one and from `z` where it has a zero. -/
@[inline] def choose (x y z : UInt64) : UInt64 :=
  (x &&& y) ^^^ ((~~~ x) &&& z)

/-- Takes each bit as most of the three words have it. -/
@[inline] def majority (x y z : UInt64) : UInt64 :=
  (x &&& y) ^^^ (x &&& z) ^^^ (y &&& z)

/-- The word of some bytes, the most significant first. -/
def wordOf (bytes : List UInt8) : UInt64 :=
  bytes.foldl (fun word byte => (word <<< 8) ||| byte.toUInt64) 0

/-- The words of a byte string, each of 8 bytes; bytes that do not fill a word are left
out. -/
def wordsOf : List UInt8 → List UInt64
  | b0 :: b1 :: b2 :: b3 :: b4 :: b5 :: b6 :: b7 :: rest =>
    wordOf [b0, b1, b2, b3, b4, b5, b6, b7] :: wordsOf rest
  | _ => []

/-- The bytes of a word, the most significant first. -/
def bytesOf (x : UInt64) : List UInt8 :=
  [(x >>> 56).toUInt8, (x >>> 48).toUInt8, (x >>> 40).toUInt8, (x >>> 32).toUInt8,
    (x >>> 24).toUInt8, (x >>> 16).toUInt8, (x >>> 8).toUInt8, x.toUInt8]

namespace Block

/-- The first sixteen of some words; there are zeros for those that are missing. -/
def ofWords (words : List UInt64) : Block where
  w0 := words.getD 0 0
  w1 := words.getD 1 0
  w2 := words.getD 2 0
  w3 := words.getD 3 0
  w4 := words.getD 4 0
  w5 := words.getD 5 0
  w6 := words.getD 6 0
  w7 := words.getD 7 0
  w8 := words.getD 8 0
  w9 := words.getD 9 0
  w10 := words.getD 10 0
  w11 := words.getD 11 0
  w12 := words.getD 12 0
  w13 := words.getD 13 0
  w14 := words.getD 14 0
  w15 := words.getD 15 0

/-- The sixteen words of a block. -/
def ofBytes (block : List UInt8) : Block := ofWords (wordsOf block)

/-- The words that the rounds consume after sixteen others: each of them mixes four of the
sixteen before it. -/
def next (w : Block) : Block :=
  let x0 := smallSigma1 w.w14 + w.w9 + smallSigma0 w.w1 + w.w0
  let x1 := smallSigma1 w.w15 + w.w10 + smallSigma0 w.w2 + w.w1
  let x2 := smallSigma1 x0 + w.w11 + smallSigma0 w.w3 + w.w2
  let x3 := smallSigma1 x1 + w.w12 + smallSigma0 w.w4 + w.w3
  let x4 := smallSigma1 x2 + w.w13 + smallSigma0 w.w5 + w.w4
  let x5 := smallSigma1 x3 + w.w14 + smallSigma0 w.w6 + w.w5
  let x6 := smallSigma1 x4 + w.w15 + smallSigma0 w.w7 + w.w6
  let x7 := smallSigma1 x5 + x0 + smallSigma0 w.w8 + w.w7
  let x8 := smallSigma1 x6 + x1 + smallSigma0 w.w9 + w.w8
  let x9 := smallSigma1 x7 + x2 + smallSigma0 w.w10 + w.w9
  let x10 := smallSigma1 x8 + x3 + smallSigma0 w.w11 + w.w10
  let x11 := smallSigma1 x9 + x4 + smallSigma0 w.w12 + w.w11
  let x12 := smallSigma1 x10 + x5 + smallSigma0 w.w13 + w.w12
  let x13 := smallSigma1 x11 + x6 + smallSigma0 w.w14 + w.w13
  let x14 := smallSigma1 x12 + x7 + smallSigma0 w.w15 + w.w14
  let x15 := smallSigma1 x13 + x8 + smallSigma0 x0 + w.w15
  ⟨x0, x1, x2, x3, x4, x5, x6, x7, x8, x9, x10, x11, x12, x13, x14, x15⟩

end Block

/-- One round with round constant `k` and schedule word `w`. -/
@[inline] def State.round (s : State) (k w : UInt64) : State :=
  let t1 := s.h + bigSigma1 s.e + choose s.e s.f s.g + k + w
  let t2 := bigSigma0 s.a + majority s.a s.b s.c
  ⟨t1 + t2, s.a, s.b, s.c, s.d + t1, s.e, s.f, s.g⟩

/-- Sixteen rounds. -/
def State.rounds (s : State) (k w : Block) : State :=
  let s4 := (((s.round k.w0 w.w0).round k.w1 w.w1).round k.w2 w.w2).round k.w3 w.w3
  let s8 := (((s4.round k.w4 w.w4).round k.w5 w.w5).round k.w6 w.w6).round k.w7 w.w7
  let s12 := (((s8.round k.w8 w.w8).round k.w9 w.w9).round k.w10 w.w10).round k.w11 w.w11
  (((s12.round k.w12 w.w12).round k.w13 w.w13).round k.w14 w.w14).round k.w15 w.w15

/-- The two states added word by word. -/
def State.add (s t : State) : State :=
  ⟨s.a + t.a, s.b + t.b, s.c + t.c, s.d + t.d, s.e + t.e, s.f + t.f, s.g + t.g, s.h + t.h⟩

/-- The two states joined bit by bit, without carries. -/
def State.xor (s t : State) : State :=
  ⟨s.a ^^^ t.a, s.b ^^^ t.b, s.c ^^^ t.c, s.d ^^^ t.d,
    s.e ^^^ t.e, s.f ^^^ t.f, s.g ^^^ t.g, s.h ^^^ t.h⟩

/-- The state after a block of words: 80 rounds, added to the state before them. -/
def State.absorbBlock (s : State) (w0 : Block) : State :=
  let w1 := w0.next
  let w2 := w1.next
  let w3 := w2.next
  let w4 := w3.next
  let k := roundConstants
  s.add (((((s.rounds k[0] w0).rounds k[1] w1).rounds k[2] w2).rounds k[3] w3).rounds k[4] w4)

/-- The state after a block. -/
def State.absorb (s : State) (block : List UInt8) : State := s.absorbBlock (.ofBytes block)

/-- The words of a state in order. -/
def State.words (s : State) : List UInt64 := [s.a, s.b, s.c, s.d, s.e, s.f, s.g, s.h]

/-- The words of a state as bytes, the most significant byte of each first. -/
def State.bytes (s : State) : Digest :=
  ⟨(s.words.flatMap bytesOf).toArray, by simp [State.words, bytesOf]⟩

/-- The state at the end of a message of which `absorbed` bytes, a whole number of blocks,
have led to the state `s` and the bytes `rest` remain. -/
def State.finish (s : State) (absorbed : Nat) (rest : List UInt8) : State :=
  (blocks blockSize (rest ++ fill blockSize 16 (absorbed + rest.length))).foldl State.absorb s

/-- The state at the end of a message of which one block has led to the state `s` and the
hash of the state `t` remains: it fills half of the last block. -/
def State.finishHash (s t : State) : State :=
  s.absorbBlock
    ⟨t.a, t.b, t.c, t.d, t.e, t.f, t.g, t.h,
      0x8000000000000000, 0, 0, 0, 0, 0, 0, 1536⟩

/-- The hash of a byte string. -/
def digest (message : List UInt8) : Digest := (initial.finish 0 message).bytes

/-- **A beginning can be hashed ahead.**  One block in front of the rest of a
message may as well be absorbed before. -/
theorem finish_append (s : State) (absorbed : Nat) {block : List UInt8}
    (hblock : block.length = blockSize) (rest : List UInt8) :
    s.finish absorbed (block ++ rest) = (s.absorb block).finish (absorbed + blockSize) rest := by
  simp only [State.finish, List.append_assoc, List.length_append, hblock, ← Nat.add_assoc]
  rw [blocks_append (by decide) hblock, List.foldl_cons]

/-- A byte behind a word that has room for it is one more digit of base 256. -/
theorem toNat_shiftLeft_or {word : UInt64} (h : word.toNat < 0x100000000000000) (byte : UInt8) :
    ((word <<< 8) ||| byte.toUInt64).toNat = word.toNat * 256 + byte.toNat := by
  have hdigit := Nat.shiftLeft_add_eq_or_of_lt (show byte.toNat < 2 ^ 8 from byte.toNat_lt)
    word.toNat
  have height : (8 : UInt64).toNat % 64 = 8 := rfl
  simp only [UInt64.toNat_or, UInt64.toNat_shiftLeft, UInt8.toNat_toUInt64]
  rw [height, Nat.mod_eq_of_lt (by rw [Nat.shiftLeft_eq]; omega), ← hdigit, Nat.shiftLeft_eq]

/-- A word is read back from its bytes. -/
theorem wordOf_bytesOf (x : UInt64) : wordOf (bytesOf x) = x := by
  have hx : x.toNat < 2 ^ 64 := x.toNat_lt
  have byte (k : UInt64) (hk : k.toNat < 64) :
      (x >>> k).toUInt8.toNat = x.toNat / 2 ^ k.toNat % 256 := by
    simp [UInt64.toNat_shiftRight, Nat.shiftRight_eq_div_pow, Nat.mod_eq_of_lt hk]
  have digit (w : UInt64) (b : UInt8) (v c : Nat) (hw : w.toNat = v) (hv : v < 0x100000000000000)
      (hb : b.toNat = c) : ((w <<< 8) ||| b.toUInt64).toNat = v * 256 + c := by
    rw [toNat_shiftLeft_or (by omega), hw, hb]
  apply UInt64.toNat_inj.1
  simp only [wordOf, bytesOf, List.foldl_cons, List.foldl_nil]
  rw [digit _ _ _ _ (digit _ _ _ _ (digit _ _ _ _ (digit _ _ _ _ (digit _ _ _ _ (digit _ _ _ _
    (digit _ _ _ _ (digit _ _ _ _ rfl _ (byte 56 (by decide))) _ (byte 48 (by decide)))
    _ (byte 40 (by decide))) _ (byte 32 (by decide))) _ (byte 24 (by decide)))
    _ (byte 16 (by decide))) _ (byte 8 (by decide))) _ (UInt64.toNat_toUInt8 x)]
  all_goals simp
  all_goals omega

/-- Words are read back from their bytes. -/
theorem wordsOf_flatMap_bytesOf (words : List UInt64) :
    wordsOf (words.flatMap bytesOf) = words := by
  induction words with
  | nil => rfl
  | cons x words ih =>
    rw [List.flatMap_cons]
    change wordOf (bytesOf x) :: wordsOf (words.flatMap bytesOf) = _
    rw [wordOf_bytesOf, ih]

/-- What follows a hash behind one block, in words. -/
theorem fill_behind_hash :
    fill blockSize 16 (blockSize + digestSize) =
      [0x8000000000000000, 0, 0, 0, 0, 0, 0, 1536].flatMap bytesOf := by
  decide +kernel

/-- **A hash may be taken in its words.**  What comes of it behind one block is what comes of
its bytes. -/
theorem finish_bytes (s t : State) :
    s.finish blockSize t.bytes.toList = s.finishHash t := by
  have hbytes : t.bytes.toList = t.words.flatMap bytesOf := rfl
  have hlength : t.bytes.toList.length = digestSize := by simp
  have hblock : t.bytes.toList ++ fill blockSize 16 (blockSize + t.bytes.toList.length) =
      (t.words ++ [0x8000000000000000, 0, 0, 0, 0, 0, 0, 1536]).flatMap bytesOf := by
    rw [hlength, fill_behind_hash, hbytes, List.flatMap_append]
  rw [State.finish, hblock, ← List.append_nil (List.flatMap _ _),
    blocks_append (by decide) (by simp [State.words, bytesOf])]
  simp only [blocks, ne_eq, not_true_eq_false, and_false, ↓reduceIte, List.foldl_cons,
    List.foldl_nil, State.absorb, Block.ofBytes, wordsOf_flatMap_bytesOf]
  rfl

/-- Joining two states bit by bit joins their bytes. -/
theorem bytes_xor (s t : State) :
    (s.xor t).bytes = Vector.zipWith (· ^^^ ·) s.bytes t.bytes := by
  have shift (x y k : UInt64) : (x ^^^ y) >>> k = (x >>> k) ^^^ (y >>> k) :=
    UInt64.toBitVec_inj.1 (by simp [BitVec.ushiftRight_xor_distrib])
  apply Vector.toList_inj.1
  simp [State.bytes, State.words, State.xor, bytesOf, shift]

end SeedPhrase.Hash.Sha512
