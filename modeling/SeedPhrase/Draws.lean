import SeedPhrase.Mnemonic

/-!
# Drawing again and again

A caller's generator can serve many draws, of entropy as it is and of mnemonics, in
any order.

* `Draw.perform` — one draw;
* `drawAll` — several draws, each from where the one before left the generator.
-/

namespace SeedPhrase

/-- What is to be drawn. -/
inductive Draw
  | entropy
  | mnemonic
deriving DecidableEq, Repr

/-- What was drawn. -/
inductive Drawn
  | entropy (entropy : Entropy)
  | mnemonic (m : Mnemonic)
  /-- The bytes were drawn, but no mnemonic could be made of them. -/
  | failure (error : Error)
deriving DecidableEq

/-- What a draw of a mnemonic comes to. -/
def Drawn.ofExcept : Except Error Mnemonic → Drawn
  | .ok m => .mnemonic m
  | .error error => .failure error

/-- One draw, and the stream behind it. -/
def Draw.perform (list : WordList) (stream : ByteStream) : Draw → Drawn × ByteStream
  | .entropy =>
    let (drawn, rest) := Entropy.draw stream
    (.entropy drawn, rest)
  | .mnemonic =>
    let (drawn, rest) := Mnemonic.draw list stream
    (.ofExcept drawn, rest)

/-- Draws one after another, and the stream behind all of them. -/
def drawAll (list : WordList) : List Draw → ByteStream → List Drawn × ByteStream
  | [], stream => ([], stream)
  | draw :: draws, stream =>
    let (first, rest) := draw.perform list stream
    let (others, last) := drawAll list draws rest
    (first :: others, last)

end SeedPhrase
