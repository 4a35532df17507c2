import SeedPhrase.Draws
import SeedPhrase.Proofs.Recovery

/-!
# Draws take their bytes in turn

A generator that serves several draws is asked once for each of them, and always for as many bytes
as entropy has.  So the bytes of its stream are parted into blocks of 32, and each draw gets the
block behind that of the draw before, whichever of the two kinds the draws are.  What is drawn is
the block itself, or the mnemonic that spells it.

* `ByteStream.ahead`, `ByteStream.past` — the blocks ahead of a stream, and the stream behind some
  of them;
* `Draw.answer`, `Draw.perform_eq` — all that one draw does;
* `drawAll_append`, `rest_drawAll` — draws before and after each other;
* `draws_take_blocks` — which draw gets which block, in a process that does other things besides.
-/

namespace SeedPhrase

namespace ByteStream

/-- The block of bytes that comes after `k` others of the same length, that of entropy. -/
def ahead (stream : ByteStream) (k : Nat) : Entropy :=
  Vector.ofFn fun i => stream.byteAt (stream.position + Entropy.size * k + i)

/-- A stream of which `k` blocks were taken, each in one fill. -/
def past (stream : ByteStream) (k : Nat) : ByteStream :=
  ⟨stream.byteAt, stream.position + Entropy.size * k, stream.fills ++ List.replicate k Entropy.size⟩

theorem getElem_ahead (stream : ByteStream) (k i : Nat) (h : i < Entropy.size) :
    (stream.ahead k)[i] = stream.byteAt (stream.position + Entropy.size * k + i) := by
  rw [ahead, Vector.getElem_ofFn]

/-- **Blocks follow upon each other,** none of them twice and nothing between them. -/
theorem ahead_past (stream : ByteStream) (j k : Nat) :
    (stream.past j).ahead k = stream.ahead (j + k) := by
  apply Vector.ext
  intro i hi
  rw [getElem_ahead, getElem_ahead, Nat.mul_add, ← Nat.add_assoc]
  rfl

@[simp] theorem past_zero (stream : ByteStream) : stream.past 0 = stream := by
  simp [past]

theorem past_past (stream : ByteStream) (j k : Nat) :
    (stream.past j).past k = stream.past (j + k) := by
  simp only [past, Nat.mul_add, Nat.add_assoc, List.append_assoc, List.replicate_append_replicate]

/-- Entropy is the next block. -/
theorem draw_eq (stream : ByteStream) : Entropy.draw stream = (stream.ahead 0, stream.past 1) := by
  rfl

end ByteStream

/-- What a draw makes of the block that it took. -/
def Draw.answer (list : WordList) (entropy : Entropy) : Draw → Drawn
  | .entropy => .entropy entropy
  | .mnemonic => .mnemonic (.spelling list entropy)

/-- A mnemonic drawn from a stream spells the next block. -/
theorem Mnemonic.draw_eq (list : WordList) (stream : ByteStream) :
    Mnemonic.draw list stream = (.ok (.spelling list (stream.ahead 0)), stream.past 1) := by
  simp only [Mnemonic.draw, stream.draw_eq, Mnemonic.encode_eq_ok]

/-- **One draw takes one block.** -/
theorem Draw.perform_eq (list : WordList) (stream : ByteStream) (draw : Draw) :
    draw.perform list stream = (draw.answer list (stream.ahead 0), stream.past 1) := by
  cases draw with
  | entropy => simp only [perform, stream.draw_eq, answer]
  | mnemonic => simp only [perform, Mnemonic.draw_eq, Drawn.ofExcept, answer]

section Several

variable (list : WordList) (stream : ByteStream)

/-- Later draws go on where the earlier ones left the stream. -/
theorem drawAll_append (earlier later : List Draw) :
    drawAll list (earlier ++ later) stream =
      ((drawAll list earlier stream).1 ++ (drawAll list later (drawAll list earlier stream).2).1,
        (drawAll list later (drawAll list earlier stream).2).2) := by
  induction earlier generalizing stream with
  | nil => rfl
  | cons draw earlier ih => simp only [List.cons_append, drawAll, ih]

theorem length_drawAll (draws : List Draw) :
    (drawAll list draws stream).1.length = draws.length := by
  induction draws generalizing stream with
  | nil => rfl
  | cons draw draws ih => rw [drawAll, List.length_cons, List.length_cons, ih]

/-- **Several draws take as many blocks.** -/
theorem rest_drawAll (draws : List Draw) :
    (drawAll list draws stream).2 = stream.past draws.length := by
  induction draws generalizing stream with
  | nil => exact stream.past_zero.symm
  | cons draw draws ih =>
    rw [drawAll, draw.perform_eq, ih, ByteStream.past_past, List.length_cons, Nat.add_comm]

/-- Among others a draw is the same draw, made where those before it left the stream. -/
theorem getElem?_drawAll (earlier : List Draw) (draw : Draw) (later : List Draw) :
    (drawAll list (earlier ++ draw :: later) stream).1[earlier.length]? =
      some (draw.perform list (drawAll list earlier stream).2).1 := by
  rw [drawAll_append, List.getElem?_append_right (length_drawAll list stream earlier).le,
    length_drawAll, Nat.sub_self]
  rfl

/-- It takes the block whose turn it is. -/
theorem perform_drawAll (earlier : List Draw) (draw : Draw) :
    draw.perform list (drawAll list earlier stream).2 =
      (draw.answer list (stream.ahead earlier.length),
        (drawAll list earlier stream).2.past 1) := by
  rw [draw.perform_eq, rest_drawAll, ByteStream.ahead_past, Nat.add_zero]

end Several

namespace Session

/-- A session draws from a caller's stream what the English list makes of the next block. -/
theorem response_drawn {session : Session} (hholds : HoldsEnglish session) (stream : ByteStream) :
    (perform (.make (.stream stream)) session).value.1 =
      .drawn (.spelling .english (stream.ahead 0)) (stream.past 1) := by
  have hmake : perform (.make (.stream stream)) = (do
      let list ← english
      return .drawn (.spelling list (stream.ahead 0)) (stream.past 1)) := by
    simp only [perform, make, Mnemonic.draw_eq, respond]
  rw [hmake, ← english_value hholds]
  rfl

/-- A session has the entropy of a mnemonic that spells it, and calls that mnemonic valid. -/
theorem response_spelling {session : Session} (hholds : HoldsEnglish session) (entropy : Entropy) :
    (perform (.ask (.spelling .english entropy) .validate) session).value.1 = .valid ∧
      (perform (.ask (.spelling .english entropy) .entropy) session).value.1 =
        .entropy entropy := by
  rw [response_validate hholds, response_entropy hholds, Mnemonic.validate_spelling,
    Mnemonic.toEntropy_spelling]
  exact ⟨rfl, rfl⟩

/-- **Draws take blocks of 32 bytes in turn.**  Let any draws be made from a stream, of entropy and
of mnemonics in any order.  The one that comes after `k` others finds the stream behind `32 * k`
bytes and takes the next 32 in a single fill, so that no byte is used twice or left out.  It gives
these bytes, or a mnemonic of 24 words that is valid in any process and has these bytes for its
entropy; and a process that draws a mnemonic there, whatever was done in it before, draws that one
and leaves the stream alike. -/
theorem draws_take_blocks (stream : ByteStream) (earlier : List Draw) (draw : Draw)
    (later : List Draw) :
    let k := earlier.length
    let before := (drawAll .english earlier stream).2
    let done := draw.perform .english before
    let all := drawAll .english (earlier ++ draw :: later) stream
    before = ⟨stream.byteAt, stream.position + 32 * k, stream.fills ++ List.replicate k 32⟩ ∧
    done.2 = ⟨stream.byteAt, before.position + 32, before.fills ++ [32]⟩ ∧
    all.2 = (drawAll .english later done.2).2 ∧
    all.1.length = k + 1 + later.length ∧ all.1[k]? = some done.1 ∧
    ∃ entropy : Entropy,
      (∀ i : Fin 32, entropy.get i = stream.byteAt (stream.position + 32 * k + i)) ∧
      match draw with
      | .entropy => done.1 = .entropy entropy
      | .mnemonic => ∃ m, done.1 = .mnemonic m ∧ m.length = 24 ∧
        ∀ (generator : ByteStream) (operations : List Operation),
          let session := (run operations (start generator)).value.2
          let response := fun operation => (perform operation session).value.1
          response (.make (.stream before)) = .drawn m done.2 ∧
          response (.ask m .validate) = .valid ∧
          response (.ask m .entropy) = .entropy entropy := by
  intro k before done all
  have hbefore : before = stream.past k := rest_drawAll .english stream earlier
  have hdone : done = (draw.answer .english (stream.ahead k), before.past 1) :=
    perform_drawAll .english stream earlier draw
  have hlength : all.1.length = k + 1 + later.length := by
    rw [length_drawAll, List.length_append, List.length_cons, ← Nat.add_assoc, Nat.add_right_comm]
  have hnext : before.past 1 = ⟨stream.byteAt, before.position + 32, before.fills ++ [32]⟩ := by
    rw [hbefore]
    rfl
  refine ⟨hbefore, (congrArg Prod.snd hdone).trans hnext, ?_, hlength,
    getElem?_drawAll .english stream earlier draw later, stream.ahead k, ?_, ?_⟩
  · have hall := congrArg Prod.snd (drawAll_append .english stream earlier (draw :: later))
    exact hall
  · intro i
    exact stream.getElem_ahead k i i.isLt
  · rw [hdone]
    cases draw with
    | entropy => rfl
    | mnemonic =>
      refine ⟨_, rfl, Mnemonic.length_spelling .english _, fun generator operations => ?_⟩
      have hholds := holdsEnglish_run generator operations
      refine ⟨?_, response_spelling hholds (stream.ahead k)⟩
      have hdrawn := response_drawn hholds before
      rwa [hbefore, ByteStream.ahead_past, Nat.add_zero, ← hbefore] at hdrawn

end Session

end SeedPhrase
