/-!
# Regrouping a stream of bits

A sequence of equally wide bit groups is one long binary number, written
least significant group first.  Cutting the same number into groups of another
width is what turns bytes into word indices and word indices into bytes, and it
is done here by one definition for both directions.

The bits in transit sit in a `Buffer`: a 32-bit word and the number of its low
bits that are in use.  A new group goes in above the bits in use (`push`), and
groups of the outgoing width are taken off at the bottom (`front`, `pop`): all that
are complete (`drain`), or no more than one (`tap`), which is enough where the groups
that go in are not wider than those that come out.

* `regroup` — the groups of the new width, in order; bits left over at the end
  that do not fill a group are not written;
* `bufferAfter` — the bits in transit after the first groups;
* `tap_eq_drain`, `regroup_tap` — where one group at a time is enough;
* `regroupFrom_cons`, `bufferAfter_count_lt` — how a run proceeds, one group at a
  time, and that it never holds back a complete group.
-/

namespace SeedPhrase.Bits

/-- Bits that were read and are not yet written: the low `count` bits of `bits`,
the earliest of them lowest. -/
structure Buffer where
  bits : UInt32
  count : Nat
deriving DecidableEq, Repr

namespace Buffer

/-- No bits at all. -/
def empty : Buffer := ⟨0, 0⟩

/-- Put a group of `width` bits above the bits in use. -/
def push (buffer : Buffer) (width : Nat) (group : UInt32) : Buffer :=
  ⟨buffer.bits ||| (group <<< UInt32.ofNat buffer.count), buffer.count + width⟩

/-- The lowest `width` bits. -/
def front (buffer : Buffer) (width : Nat) : UInt32 :=
  buffer.bits &&& ((1 <<< UInt32.ofNat width) - 1)

/-- Drop the lowest `width` bits; those above move down. -/
def pop (buffer : Buffer) (width : Nat) : Buffer :=
  ⟨buffer.bits >>> UInt32.ofNat width, buffer.count - width⟩

/-- Take groups of `width` bits off the bottom while there are that many in use.
A width of zero takes nothing, for it would never come to an end. -/
def drain (buffer : Buffer) (width : Nat) : List UInt32 × Buffer :=
  if 0 < width ∧ width ≤ buffer.count then
    let taken := (buffer.pop width).drain width
    (buffer.front width :: taken.1, taken.2)
  else
    ([], buffer)
termination_by buffer.count
decreasing_by simp [pop]; omega

/-- Take one group of `width` bits off the bottom, if there are that many in use. -/
def tap (buffer : Buffer) (width : Nat) : List UInt32 × Buffer :=
  if width ≤ buffer.count then ([buffer.front width], buffer.pop width) else ([], buffer)

/-- Nothing is taken off a buffer with too few bits. -/
theorem drain_of_lt {buffer : Buffer} {width : Nat} (h : buffer.count < width) :
    buffer.drain width = ([], buffer) := by
  rw [drain, if_neg (by omega)]

/-- With enough bits the lowest group comes first, then those of the rest. -/
theorem drain_of_le {buffer : Buffer} {width : Nat} (hpos : 0 < width)
    (h : width ≤ buffer.count) :
    buffer.drain width =
      (buffer.front width :: ((buffer.pop width).drain width).1,
        ((buffer.pop width).drain width).2) := by
  rw [drain, if_pos ⟨hpos, h⟩]

/-- What a drain leaves behind is less than one group. -/
theorem drain_count_lt {buffer : Buffer} {width : Nat} (hpos : 0 < width) :
    (buffer.drain width).2.count < width := by
  fun_induction drain buffer width with
  | case1 buffer h taken ih => exact ih
  | case2 buffer h => simp only at *; omega

/-- Short of two groups there is at most one to take. -/
theorem tap_eq_drain {buffer : Buffer} {width : Nat} (h : buffer.count < 2 * width) :
    buffer.tap width = buffer.drain width := by
  unfold tap
  split
  · have hpop : (buffer.pop width).count < width := by simp only [pop]; omega
    rw [drain_of_le (by omega) ‹_›, drain_of_lt hpop]
  · rw [drain_of_lt (by omega)]

end Buffer

/-- One incoming group is pushed, and what is then complete is taken off. -/
def Buffer.feed (inWidth : Nat) (take : Buffer → List UInt32 × Buffer) (buffer : Buffer)
    (group : UInt32) : List UInt32 × Buffer :=
  take (buffer.push inWidth group)

/-- Regroup what follows the bits of `buffer`, one incoming group after the other. -/
def regroupFrom (inWidth : Nat) (take : Buffer → List UInt32 × Buffer) :
    Buffer → List UInt32 → List UInt32
  | _, [] => []
  | buffer, group :: groups =>
    let taken := buffer.feed inWidth take group
    taken.1 ++ regroupFrom inWidth take taken.2 groups

/-- The bits in transit when all of the groups have been read. -/
def bufferAfter (inWidth : Nat) (take : Buffer → List UInt32 × Buffer) (groups : List UInt32) :
    Buffer :=
  groups.foldl (fun buffer group => (buffer.feed inWidth take group).2) .empty

/-- The same bits in the groups that `take` takes off, instead of in groups of `inWidth`;
least significant group first on both sides. -/
def regroup (inWidth : Nat) (take : Buffer → List UInt32 × Buffer) (groups : List UInt32) :
    List UInt32 :=
  regroupFrom inWidth take .empty groups

/-- What one group completes is written before the others are read. -/
theorem regroupFrom_cons (inWidth : Nat) (take : Buffer → List UInt32 × Buffer)
    (buffer : Buffer) (group : UInt32) (groups : List UInt32) :
    regroupFrom inWidth take buffer (group :: groups) =
      (buffer.feed inWidth take group).1 ++
        regroupFrom inWidth take (buffer.feed inWidth take group).2 groups := rfl

/-- Between two groups the buffer holds less than one outgoing group. -/
theorem bufferAfter_count_lt (inWidth : Nat) {outWidth : Nat} (hpos : 0 < outWidth)
    (groups : List UInt32) :
    (bufferAfter inWidth (·.drain outWidth) groups).count < outWidth := by
  have hfold : ∀ (groups : List UInt32) (buffer : Buffer), buffer.count < outWidth →
      (groups.foldl (fun buffer group => (buffer.feed inWidth (·.drain outWidth) group).2)
        buffer).count < outWidth := by
    intro groups
    induction groups with
    | nil => intro buffer h; exact h
    | cons group groups ih =>
      intro buffer _
      exact ih _ (Buffer.drain_count_lt hpos)
  exact hfold groups .empty hpos

/-- A group that is no wider than those that come out completes at most one of them. -/
theorem feed_tap {inWidth outWidth : Nat} {buffer : Buffer} (hwidth : inWidth ≤ outWidth)
    (hcount : buffer.count < outWidth) (group : UInt32) :
    buffer.feed inWidth (·.tap outWidth) group = buffer.feed inWidth (·.drain outWidth) group :=
  Buffer.tap_eq_drain (by simp only [Buffer.push]; omega)

/-- **One group at a time is enough** where the groups that go in are no wider than those
that come out. -/
theorem regroup_tap {inWidth outWidth : Nat} (hpos : 0 < outWidth) (hwidth : inWidth ≤ outWidth)
    (groups : List UInt32) :
    regroup inWidth (·.tap outWidth) groups = regroup inWidth (·.drain outWidth) groups := by
  have hfrom : ∀ (groups : List UInt32) (buffer : Buffer), buffer.count < outWidth →
      regroupFrom inWidth (·.tap outWidth) buffer groups =
        regroupFrom inWidth (·.drain outWidth) buffer groups := by
    intro groups
    induction groups with
    | nil => intro buffer _; rfl
    | cons group groups ih =>
      intro buffer hcount
      have hrest := ih (buffer.feed inWidth (·.drain outWidth) group).2
        (Buffer.drain_count_lt hpos)
      rw [regroupFrom_cons, regroupFrom_cons, feed_tap hwidth hcount, hrest]
  exact hfrom groups .empty hpos

end SeedPhrase.Bits
