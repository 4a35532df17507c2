import SeedPhrase.Payload

/-!
# Streams of bytes to draw from

A generator of random bytes is, seen from outside, an endless stream of bytes and
a place in it.  Filling a buffer takes the next bytes and moves the place behind
them, so no byte is used twice and none is left out.

* `ByteStream.fill` — the next bytes, and what is left;
* `Entropy.draw` — the next 32 bytes as entropy;
* `ByteStream.cyclic` — a stream that repeats given bytes.
-/

namespace SeedPhrase

/-- An endless stream of bytes, the number of bytes taken so far, and the lengths of
the fills that took them, in order. -/
structure ByteStream where
  byteAt : Nat → UInt8
  position : Nat
  fills : List Nat

namespace ByteStream

/-- A stream from its beginning. -/
def ofBytes (byteAt : Nat → UInt8) : ByteStream := ⟨byteAt, 0, []⟩

/-- The given bytes over and over; an empty list gives zeros. -/
def cyclic (bytes : List UInt8) : ByteStream :=
  let pattern := bytes.toArray
  ofBytes fun i => pattern.getD (i % pattern.size) 0

/-- The next `n` bytes, and the stream behind them. -/
def fill (stream : ByteStream) (n : Nat) : Vector UInt8 n × ByteStream :=
  (Vector.ofFn fun i => stream.byteAt (stream.position + i),
    { stream with position := stream.position + n, fills := stream.fills ++ [n] })

end ByteStream

/-- The next 32 bytes of a stream, taken in one fill. -/
def Entropy.draw (stream : ByteStream) : Entropy × ByteStream := stream.fill Entropy.size

end SeedPhrase
