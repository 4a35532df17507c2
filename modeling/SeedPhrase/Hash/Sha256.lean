import SeedPhrase.Hash.Blocks

/-!
# SHA-256

The 256-bit hash function of the SHA-2 family on 32-bit words: a state of eight words
goes through 64 rounds for each block of 64 bytes.

* `digest` — the hash of a byte string;
* `State.absorb` — the state after one more block;
* `State.finish` — the hash of a message whose first blocks are already absorbed.
-/

namespace SeedPhrase.Hash.Sha256

/-- Bytes in a block. -/
abbrev blockSize : Nat := 64

/-- Bytes in a hash. -/
abbrev digestSize : Nat := 32

/-- A hash. -/
abbrev Digest := Vector UInt8 digestSize

/-- The eight words that are carried from block to block. -/
structure State where
  a : UInt32
  b : UInt32
  c : UInt32
  d : UInt32
  e : UInt32
  f : UInt32
  g : UInt32
  h : UInt32
deriving DecidableEq, Repr

/-- The first 32 bits of the fractional parts of the square roots of the first
eight primes. -/
def initial : State where
  a := 0x6a09e667
  b := 0xbb67ae85
  c := 0x3c6ef372
  d := 0xa54ff53a
  e := 0x510e527f
  f := 0x9b05688c
  g := 0x1f83d9ab
  h := 0x5be0cd19

/-- The first 32 bits of the fractional parts of the cube roots of the first
64 primes, one for each round. -/
def roundConstants : Vector UInt32 64 :=
  #v[
    0x428a2f98, 0x71374491, 0xb5c0fbcf, 0xe9b5dba5, 0x3956c25b, 0x59f111f1, 0x923f82a4, 0xab1c5ed5,
    0xd807aa98, 0x12835b01, 0x243185be, 0x550c7dc3, 0x72be5d74, 0x80deb1fe, 0x9bdc06a7, 0xc19bf174,
    0xe49b69c1, 0xefbe4786, 0x0fc19dc6, 0x240ca1cc, 0x2de92c6f, 0x4a7484aa, 0x5cb0a9dc, 0x76f988da,
    0x983e5152, 0xa831c66d, 0xb00327c8, 0xbf597fc7, 0xc6e00bf3, 0xd5a79147, 0x06ca6351, 0x14292967,
    0x27b70a85, 0x2e1b2138, 0x4d2c6dfc, 0x53380d13, 0x650a7354, 0x766a0abb, 0x81c2c92e, 0x92722c85,
    0xa2bfe8a1, 0xa81a664b, 0xc24b8b70, 0xc76c51a3, 0xd192e819, 0xd6990624, 0xf40e3585, 0x106aa070,
    0x19a4c116, 0x1e376c08, 0x2748774c, 0x34b0bcb5, 0x391c0cb3, 0x4ed8aa4a, 0x5b9cca4f, 0x682e6ff3,
    0x748f82ee, 0x78a5636f, 0x84c87814, 0x8cc70208, 0x90befffa, 0xa4506ceb, 0xbef9a3f7, 0xc67178f2]

/-- A word turned right by `n` bits, for `n` between 1 and 31. -/
@[inline] def rotateRight (x : UInt32) (n : UInt32) : UInt32 :=
  (x >>> n) ||| (x <<< (32 - n))

/-- Mixes the word of fifteen rounds ago into the schedule. -/
@[inline] def smallSigma0 (x : UInt32) : UInt32 :=
  rotateRight x 7 ^^^ rotateRight x 18 ^^^ (x >>> 3)

/-- Mixes the word of two rounds ago into the schedule. -/
@[inline] def smallSigma1 (x : UInt32) : UInt32 :=
  rotateRight x 17 ^^^ rotateRight x 19 ^^^ (x >>> 10)

/-- Mixes the first word of the state into a round. -/
@[inline] def bigSigma0 (x : UInt32) : UInt32 :=
  rotateRight x 2 ^^^ rotateRight x 13 ^^^ rotateRight x 22

/-- Mixes the fifth word of the state into a round. -/
@[inline] def bigSigma1 (x : UInt32) : UInt32 :=
  rotateRight x 6 ^^^ rotateRight x 11 ^^^ rotateRight x 25

/-- Takes each bit from `y` where `x` has a one and from `z` where it has a zero. -/
@[inline] def choose (x y z : UInt32) : UInt32 :=
  (x &&& y) ^^^ ((~~~ x) &&& z)

/-- Takes each bit as most of the three words have it. -/
@[inline] def majority (x y z : UInt32) : UInt32 :=
  (x &&& y) ^^^ (x &&& z) ^^^ (y &&& z)

/-- The words of a byte string, each of 4 bytes with the most significant first;
bytes that do not fill a word are left out. -/
def wordsOf : List UInt8 → List UInt32
  | b0 :: b1 :: b2 :: b3 :: rest =>
    [b0, b1, b2, b3].foldl (fun w b => (w <<< 8) ||| b.toUInt32) 0 ::
      wordsOf rest
  | _ => []

/-- The sixteen words of a block. -/
def loadBlock (block : List UInt8) : Vector UInt32 16 :=
  let words := wordsOf block
  Vector.ofFn fun i => words.getD i 0

/-- The words that the rounds consume, `extra` of them beyond the sixteen of the
block: each new one mixes four of the sixteen before it. -/
def schedule (block : Vector UInt32 16) : (extra : Nat) → Vector UInt32 (16 + extra)
  | 0 => block
  | extra + 1 =>
    let w := schedule block extra
    w.push (smallSigma1 w[14 + extra] + w[9 + extra] + smallSigma0 w[1 + extra] + w[extra])

/-- One round with round constant `k` and schedule word `w`. -/
@[inline] def State.round (s : State) (k w : UInt32) : State :=
  let t1 := s.h + bigSigma1 s.e + choose s.e s.f s.g + k + w
  let t2 := bigSigma0 s.a + majority s.a s.b s.c
  ⟨t1 + t2, s.a, s.b, s.c, s.d + t1, s.e, s.f, s.g⟩

/-- The two states added word by word. -/
def State.add (s t : State) : State :=
  ⟨s.a + t.a, s.b + t.b, s.c + t.c, s.d + t.d, s.e + t.e, s.f + t.f, s.g + t.g, s.h + t.h⟩

/-- The state after a block: 64 rounds, added to the state before them. -/
def State.absorb (s : State) (block : List UInt8) : State :=
  let w := schedule (loadBlock block) 48
  s.add (Fin.foldl 64 (fun t i => t.round roundConstants[i] w[i]) s)

/-- The words of a state in order. -/
def State.words (s : State) : Vector UInt32 8 :=
  #v[s.a, s.b, s.c, s.d, s.e, s.f, s.g, s.h]

/-- The words of a state as bytes, the most significant byte of each first. -/
def State.bytes (s : State) : Digest :=
  let words := s.words
  Vector.ofFn fun i : Fin 32 =>
    (words.get ⟨i / 4, by omega⟩ >>> UInt32.ofNat (8 * (3 - i % 4))).toUInt8

/-- The hash of a message of which `absorbed` bytes, a whole number of blocks, have
led to the state `s` and the bytes `rest` remain. -/
def State.finish (s : State) (absorbed : Nat) (rest : List UInt8) : Digest :=
  ((blocks blockSize (rest ++ fill blockSize 8 (absorbed + rest.length))).foldl
    State.absorb s).bytes

/-- The hash of a byte string. -/
def digest (message : List UInt8) : Digest :=
  initial.finish 0 message

end SeedPhrase.Hash.Sha256
