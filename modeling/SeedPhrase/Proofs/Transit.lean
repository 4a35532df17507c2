import Mathlib.Logic.Relation
import SeedPhrase.Proofs.Spelling

/-!
# Bits in transit

A regrouping is looked at here between any two of its steps.  It stands either in front of the next
group to be read, or behind a group that was pushed, and then groups are taken off: one, if there is
one, or as many as there are.  Its steps are written down as a relation.  In front of each group to
be read they come to one point, and that has the bits in transit that `bufferAfter` names.

At every point all bits are accounted for, and the buffer has zeros above those in use.  So a group
that is pushed finds zeros in its place and has room for all of its bits; and as no more bits come
out than went in, every group that is written has its place in the result.  What is written, what is
in the buffer and what is still to be read are the low, the middle and the high part of one number,
which no step changes.

* `regroup_concat`, `bufferAfter_concat` — what one more group comes to;
* `Taking`, `Transit`, `Transit.Step`, `Transit.Reached` — the points of a regrouping;
* `OnCourse.step`, `reached_reading_iff` — the points at which a group is read;
* `Tidy.step`, `Reached.tidy` — what every step keeps, and so every run;
* `Tidy.number_step`, `Reached.number_eq` — the number that is in transit is that of the groups one
  began with;
* `Tidy.safe`, `Tidy.even` — so no bit is lost on the way, and none is left where they come out
  even;
* `Codec.transit_loses_nothing` — both directions between bytes and words.
-/

namespace SeedPhrase

namespace Bits

section Concat

variable (inWidth : Nat) (take : Buffer → List UInt32 × Buffer) (groups : List UInt32)

theorem bufferAfter_concat (group : UInt32) :
    bufferAfter inWidth take (groups ++ [group]) =
      ((bufferAfter inWidth take groups).feed inWidth take group).2 := by
  simp [bufferAfter]

/-- What the last group completes is written behind what those in front of it have completed. -/
theorem regroup_concat (group : UInt32) :
    regroup inWidth take (groups ++ [group]) =
      regroup inWidth take groups ++
        ((bufferAfter inWidth take groups).feed inWidth take group).1 := by
  have hfrom : ∀ (groups : List UInt32) (buffer : Buffer),
      regroupFrom inWidth take buffer (groups ++ [group]) =
        regroupFrom inWidth take buffer groups ++
          ((groups.foldl (fun b g => (b.feed inWidth take g).2) buffer).feed
            inWidth take group).1 := by
    intro groups
    induction groups with
    | nil => intro buffer; simp [regroupFrom]
    | cons first groups ih =>
      intro buffer
      rw [List.cons_append, regroupFrom_cons, regroupFrom_cons, ih, List.foldl_cons,
        List.append_assoc]
  exact hfrom groups .empty

end Concat

/-- How groups are taken off a buffer. -/
inductive Taking
  /-- One, if there is one. -/
  | one
  /-- As many as there are. -/
  | all
deriving DecidableEq, Repr

/-- The groups that are taken off, and what is left. -/
def Taking.take : Taking → Nat → Buffer → List UInt32 × Buffer
  | one, width, buffer => buffer.tap width
  | all, width, buffer => buffer.drain width

/-- What a regrouping is about to do. -/
inductive Phase
  /-- To read the next group, if there is one. -/
  | reading
  /-- To see whether there is a group to be taken off. -/
  | taking
deriving DecidableEq, Repr

/-- What comes after a group was taken off: the next one is read, or it is seen whether there is
another one to be taken off. -/
def Taking.next : Taking → Phase
  | one => .reading
  | all => .taking

/-- A regrouping between two steps. -/
structure Transit where
  phase : Phase
  unread : List UInt32
  buffer : Buffer
  written : List UInt32
deriving DecidableEq, Repr

namespace Transit

section Steps

variable (inWidth : Nat) (taking : Taking) (outWidth : Nat)

/-- One step of a regrouping. -/
inductive Step : Transit → Transit → Prop
  /-- A group is read and pushed. -/
  | read (group : UInt32) (groups : List UInt32) (buffer : Buffer) (written : List UInt32) :
    Step ⟨.reading, group :: groups, buffer, written⟩
      ⟨.taking, groups, buffer.push inWidth group, written⟩
  /-- A group is complete; it is taken off and written. -/
  | write (groups : List UInt32) (buffer : Buffer) (written : List UInt32)
      (h : outWidth ≤ buffer.count) :
    Step ⟨.taking, groups, buffer, written⟩
      ⟨taking.next, groups, buffer.pop outWidth, written ++ [buffer.front outWidth]⟩
  /-- No group is complete. -/
  | pass (groups : List UInt32) (buffer : Buffer) (written : List UInt32)
      (h : buffer.count < outWidth) :
    Step ⟨.taking, groups, buffer, written⟩ ⟨.reading, groups, buffer, written⟩

/-- A regrouping that has not begun. -/
def start (groups : List UInt32) : Transit := ⟨.reading, groups, .empty, []⟩

/-- Whether a regrouping of some groups comes to a point. -/
def Reached (groups : List UInt32) (point : Transit) : Prop :=
  Relation.ReflTransGen (Step inWidth taking outWidth) (start groups) point

/-- Whether there is nothing left to do. -/
def Ended (point : Transit) : Prop := point.phase = .reading ∧ point.unread = []

/-- What is written and what is in the buffer, once no group is left that is to be taken off. -/
def settled (point : Transit) : List UInt32 × Buffer :=
  match point.phase with
  | .reading => (point.written, point.buffer)
  | .taking =>
    let taken := taking.take outWidth point.buffer
    (point.written ++ taken.1, taken.2)

end Steps

variable {inWidth : Nat} {taking : Taking} {outWidth : Nat} {groups : List UInt32}
variable {p q : Transit}

section Heads

variable (inWidth taking outWidth) in
/-- Whether a point is where it belongs: of the groups, some have been read, and these have come to
what regrouping them comes to. -/
def OnCourse (groups : List UInt32) (point : Transit) : Prop :=
  ∃ read, groups = read ++ point.unread ∧
    point.settled taking outWidth =
      (regroup inWidth (taking.take outWidth) read, bufferAfter inWidth (taking.take outWidth) read)

/-- **A step stays on course.**  Reading brings in what the group comes to, and taking groups off
only settles what was to come. -/
theorem OnCourse.step (hpos : 0 < outWidth) (hp : OnCourse inWidth taking outWidth groups p)
    (h : Step inWidth taking outWidth p q) : OnCourse inWidth taking outWidth groups q := by
  obtain ⟨read, hread, hsettled⟩ := hp
  cases h with
  | read group rest buffer written =>
    obtain ⟨rfl, rfl⟩ := Prod.mk.inj hsettled
    refine ⟨read ++ [group], by rw [hread, List.append_assoc]; rfl, ?_⟩
    rw [regroup_concat, bufferAfter_concat]
    rfl
  | write rest buffer written h =>
    refine ⟨read, hread, hsettled ▸ ?_⟩
    cases taking with
    | one => simp [settled, Taking.next, Taking.take, Buffer.tap, h]
    | all => simp [settled, Taking.next, Taking.take, Buffer.drain_of_le hpos h]
  | pass rest buffer written h =>
    refine ⟨read, hread, hsettled ▸ ?_⟩
    cases taking with
    | one => simp [settled, Taking.take, Buffer.tap, Nat.not_le.mpr h]
    | all => simp [settled, Taking.take, Buffer.drain_of_lt h]

/-- **So does a run.** -/
theorem Reached.onCourse (hpos : 0 < outWidth) (h : Reached inWidth taking outWidth groups p) :
    OnCourse inWidth taking outWidth groups p := by
  induction h with
  | refl => exact ⟨[], rfl, rfl⟩
  | tail _ hstep ih => exact ih.step hpos hstep

variable (inWidth taking) in
/-- Taking off comes to an end. -/
theorem reaches_reading (hpos : 0 < outWidth) (unread : List UInt32) (buffer : Buffer)
    (written : List UInt32) :
    ∃ rest more, Relation.ReflTransGen (Step inWidth taking outWidth)
      ⟨.taking, unread, buffer, written⟩ ⟨.reading, unread, rest, more⟩ := by
  induction hcount : buffer.count using Nat.strongRecOn generalizing buffer written with
  | ind count ih =>
    rcases Nat.lt_or_ge buffer.count outWidth with hless | hle
    · exact ⟨_, _, .single (.pass unread buffer written hless)⟩
    · have hwrite : Step inWidth taking outWidth ⟨.taking, unread, buffer, written⟩
          ⟨taking.next, unread, buffer.pop outWidth, written ++ [buffer.front outWidth]⟩ :=
        .write unread buffer written hle
      cases taking with
      | one => exact ⟨_, _, .single hwrite⟩
      | all =>
        have hsmaller : (buffer.pop outWidth).count < count := by
          simp only [Buffer.pop]
          omega
        obtain ⟨rest, more, hrest⟩ := ih _ hsmaller (buffer.pop outWidth) _ rfl
        exact ⟨rest, more, .head hwrite hrest⟩

variable (inWidth taking) in
/-- All groups are read, one after the other. -/
theorem exists_reached (hpos : 0 < outWidth) (read unread : List UInt32) :
    ∃ buffer written, Reached inWidth taking outWidth (read ++ unread)
      ⟨.reading, unread, buffer, written⟩ := by
  have hfrom : ∀ (read : List UInt32) (buffer : Buffer) (written : List UInt32),
      ∃ rest more, Relation.ReflTransGen (Step inWidth taking outWidth)
        ⟨.reading, read ++ unread, buffer, written⟩ ⟨.reading, unread, rest, more⟩ := by
    intro read
    induction read with
    | nil => exact fun buffer written => ⟨buffer, written, .refl⟩
    | cons group read ih =>
      intro buffer written
      obtain ⟨rest, more, htaken⟩ :=
        reaches_reading inWidth taking hpos (read ++ unread) (buffer.push inWidth group) written
      obtain ⟨last, all, hread⟩ := ih rest more
      exact ⟨last, all, .head (.read group _ buffer written) (htaken.trans hread)⟩
  exact hfrom read .empty []

/-- **Where a group is read.**  In front of each group, and behind the last, a regrouping comes to
one point: that where the groups so far have come to what regrouping them comes to. -/
theorem reached_reading_iff (hpos : 0 < outWidth) {unread written : List UInt32} {buffer : Buffer} :
    Reached inWidth taking outWidth groups ⟨.reading, unread, buffer, written⟩ ↔
      ∃ read, groups = read ++ unread ∧
        written = regroup inWidth (taking.take outWidth) read ∧
        buffer = bufferAfter inWidth (taking.take outWidth) read := by
  constructor
  · intro h
    obtain ⟨read, hread, hsettled⟩ := h.onCourse hpos
    exact ⟨read, hread, Prod.mk.inj hsettled⟩
  · rintro ⟨read, rfl, rfl, rfl⟩
    obtain ⟨buffer, written, h⟩ := exists_reached inWidth taking hpos read unread
    obtain ⟨found, hfound, hsettled⟩ := h.onCourse hpos
    obtain rfl : read = found := List.append_cancel_right hfound
    obtain ⟨rfl, rfl⟩ := Prod.mk.inj hsettled
    exact h

theorem Reached.written_eq (hpos : 0 < outWidth) (h : Reached inWidth taking outWidth groups p)
    (hended : p.Ended) : p.written = regroup inWidth (taking.take outWidth) groups := by
  obtain ⟨phase, unread, buffer, written⟩ := p
  obtain ⟨rfl, rfl⟩ := hended
  obtain ⟨read, rfl, hwritten, -⟩ := (reached_reading_iff hpos).mp h
  rw [List.append_nil]
  exact hwritten

end Heads

/-- What holds between any two steps of a regrouping of `total` bits. -/
structure Tidy (inWidth outWidth total : Nat) (point : Transit) : Prop where
  narrow : ∀ group ∈ point.unread, group.toNat < 2 ^ inWidth
  tight : point.buffer.Tight
  /-- In front of a group to be read there is less than a group to be written. -/
  head : point.phase = .reading → point.buffer.count < outWidth
  less : point.buffer.count < outWidth + inWidth
  /-- Every bit is still to be read, or in the buffer, or written. -/
  balance : inWidth * point.unread.length + point.buffer.count +
    outWidth * point.written.length = total

/-- **A step keeps the bits in order.** -/
theorem Tidy.step {total : Nat} (hin : 0 < inWidth) (hfit : outWidth + inWidth ≤ 32)
    (hone : taking = .one → inWidth ≤ outWidth) (hp : Tidy inWidth outWidth total p)
    (h : Step inWidth taking outWidth p q) : Tidy inWidth outWidth total q := by
  obtain ⟨hnarrow, htight, hhead, hless, hbalance⟩ := hp
  cases h with
  | read group rest buffer written =>
    have hcount : buffer.count < outWidth := hhead rfl
    have hpush : (buffer.push inWidth group).count = buffer.count + inWidth := rfl
    refine ⟨fun other hother => hnarrow other (List.mem_cons_of_mem _ hother),
      Buffer.tight_push htight (hnarrow group List.mem_cons_self) hin (by omega), nofun, ?_, ?_⟩
    · simp only [hpush]
      omega
    · simp only [hpush, List.length_cons, Nat.mul_succ] at hbalance ⊢
      omega
  | write rest buffer written h =>
    have hpop : (buffer.pop outWidth).count = buffer.count - outWidth := rfl
    simp only at hless hbalance
    refine ⟨hnarrow, Buffer.tight_pop htight (by omega) h, ?_, ?_, ?_⟩
    · -- One group is taken off and no other is looked for, so there must not have been two.
      intro hnext
      cases taking with
      | one =>
        have hwidth := hone rfl
        simp only [hpop]
        omega
      | all => cases hnext
    · simp only [hpop]
      omega
    · simp only [hpop, List.length_append, List.length_singleton, Nat.mul_succ]
      omega
  | pass rest buffer written h => exact ⟨hnarrow, htight, fun _ => h, hless, hbalance⟩

/-- **So does a run.** -/
theorem Reached.tidy (hin : 0 < inWidth) (hout : 0 < outWidth) (hfit : outWidth + inWidth ≤ 32)
    (hone : taking = .one → inWidth ≤ outWidth)
    (hgroups : ∀ group ∈ groups, group.toNat < 2 ^ inWidth)
    (h : Reached inWidth taking outWidth groups p) :
    Tidy inWidth outWidth (inWidth * groups.length) p := by
  induction h with
  | refl =>
    exact ⟨hgroups, Buffer.tight_empty, fun _ => hout, Nat.add_pos_left hout inWidth, rfl⟩
  | tail _ hstep ih => exact ih.step hin hfit hone hstep

/-- The number in transit: the groups that are written are its lowest digits, the bits in the buffer
stand above them, and the groups still to be read above these. -/
def number (inWidth outWidth : Nat) (point : Transit) : Nat :=
  Bits.number outWidth point.written + 2 ^ (outWidth * point.written.length) *
    (point.buffer.bits.toNat + 2 ^ point.buffer.count * Bits.number inWidth point.unread)

/-- **A step keeps the number.**  Reading a group moves it from the top into the middle, and writing
one moves it from there to the bottom. -/
theorem Tidy.number_step {total : Nat} (hin : 0 < inWidth) (hfit : outWidth + inWidth ≤ 32)
    (hp : Tidy inWidth outWidth total p) (h : Step inWidth taking outWidth p q) :
    q.number inWidth outWidth = p.number inWidth outWidth := by
  cases h with
  | read group rest buffer written =>
    have hcount : buffer.count < outWidth := hp.head rfl
    have hpush := Buffer.toNat_push hp.tight (hp.narrow group List.mem_cons_self) hin
      (show buffer.count + inWidth ≤ 32 by omega)
    have hcounts : (buffer.push inWidth group).count = buffer.count + inWidth := rfl
    simp only [number, hcounts, hpush, Bits.number, Nat.pow_add]
    ring
  | write rest buffer written h =>
    have hwidth : outWidth < 32 := by omega
    have hcounts : 2 ^ outWidth * 2 ^ (buffer.pop outWidth).count = 2 ^ buffer.count := by
      rw [← Nat.pow_add, Buffer.pop, Nat.add_sub_cancel' h]
    have hsplit : (buffer.front outWidth).toNat + 2 ^ outWidth * (buffer.pop outWidth).bits.toNat =
        buffer.bits.toNat := by
      rw [Buffer.toNat_front hwidth, Buffer.toNat_pop hwidth, Nat.mod_add_div]
    simp only [number, number_append, Bits.number, List.length_append, List.length_singleton,
      Nat.mul_succ, Nat.pow_add, ← hcounts, ← hsplit]
    ring
  | pass rest buffer written h => rfl

/-- **So does a run.** -/
theorem Reached.number_eq (hin : 0 < inWidth) (hout : 0 < outWidth)
    (hfit : outWidth + inWidth ≤ 32) (hone : taking = .one → inWidth ≤ outWidth)
    (hgroups : ∀ group ∈ groups, group.toNat < 2 ^ inWidth)
    (h : Reached inWidth taking outWidth groups p) :
    p.number inWidth outWidth = Bits.number inWidth groups := by
  induction h with
  | refl => simp [number, start, Bits.number, Buffer.empty]
  | tail hreached hstep ih =>
    have htidy := Reached.tidy hin hout hfit hone hgroups hreached
    exact (htidy.number_step hin hfit hstep).trans ih

/-- In the end it is the number that is written. -/
theorem number_of_ended (hended : p.Ended) (hbuffer : p.buffer = .empty) :
    p.number inWidth outWidth = Bits.number outWidth p.written := by
  rw [number, hended.2, hbuffer]
  simp [Bits.number, Buffer.empty]

end Transit

/-- A group finds zeros where it is pushed, and room for all of its bits. -/
structure Buffer.HasRoomFor (buffer : Buffer) (width : Nat) (group : UInt32) : Prop where
  fits : buffer.count + width ≤ 32
  /-- No bit of the group is moved out of the word. -/
  kept : (group <<< UInt32.ofNat buffer.count).toNat = group.toNat * 2 ^ buffer.count
  /-- None of them meets a bit that is set. -/
  apart : buffer.bits &&& (group <<< UInt32.ofNat buffer.count) = 0
  /-- So the word grows by the group in its place. -/
  adds : (buffer.push width group).bits.toNat =
    buffer.bits.toNat + (group <<< UInt32.ofNat buffer.count).toNat

theorem Buffer.Tight.hasRoomFor {buffer : Buffer} {width : Nat} {group : UInt32}
    (htight : buffer.Tight) (hgroup : group.toNat < 2 ^ width) (hwidth : 0 < width)
    (hfit : buffer.count + width ≤ 32) : buffer.HasRoomFor width group := by
  have hkept := toNat_shifted hgroup hwidth hfit
  refine ⟨hfit, hkept, ?_, ?_⟩
  · apply UInt32.toNat_inj.mp
    rw [UInt32.toNat_and, hkept, ← Nat.shiftLeft_eq]
    apply Nat.eq_of_testBit_eq
    intro i
    rw [Nat.testBit_and, Nat.testBit_shiftLeft]
    rcases Nat.lt_or_ge i buffer.count with hlt | hge
    · simp [Nat.not_le.mpr hlt]
    · have hzero : buffer.bits.toNat.testBit i = false :=
        Nat.testBit_lt_two_pow (Nat.lt_of_lt_of_le htight (Nat.pow_le_pow_right (by decide) hge))
      simp [hzero]
  · rw [toNat_push htight hgroup hwidth hfit, hkept, Nat.mul_comm]

namespace Transit

/-- A point of a regrouping at which nothing goes wrong, if what is written has `places` places. -/
structure Safe (inWidth outWidth places : Nat) (point : Transit) : Prop where
  /-- In front of a group to be read the bits in use are fewer than a group to be written, and there
  are zeros above them. -/
  head : point.phase = .reading →
    point.buffer.count < outWidth ∧ point.buffer.bits.toNat < 2 ^ point.buffer.count
  /-- The next group can be pushed. -/
  read : point.phase = .reading →
    ∀ group ∈ point.unread.head?, point.buffer.HasRoomFor inWidth group
  /-- A group that is taken off is there, and it has its place among those that are written. -/
  write : point.phase = .taking → outWidth ≤ point.buffer.count →
    (point.buffer.pop outWidth).count + outWidth = point.buffer.count ∧
      point.written.length < places

theorem Tidy.safe {total places : Nat} (hin : 0 < inWidth) (hout : 0 < outWidth)
    (hfit : outWidth + inWidth ≤ 32) (hplaces : total ≤ outWidth * places)
    (h : Tidy inWidth outWidth total p) :
    p.Safe inWidth outWidth places := by
  refine ⟨fun hphase => ⟨h.head hphase, h.tight⟩, ?_, ?_⟩
  · intro hphase group hgroup
    have hcount := h.head hphase
    exact h.tight.hasRoomFor (h.narrow group (List.mem_of_mem_head? hgroup)) hin (by omega)
  · intro _ hle
    refine ⟨Nat.sub_add_cancel hle, ?_⟩
    have hbalance := h.balance
    have hroom : outWidth * (p.written.length + 1) ≤ outWidth * places := by
      rw [Nat.mul_succ]
      omega
    exact Nat.le_of_mul_le_mul_left hroom hout

/-- **Where the bits come out even, none is left.** -/
theorem Tidy.even {k : Nat} (h : Tidy inWidth outWidth (outWidth * k) p) (hended : p.Ended) :
    p.written.length = k ∧ p.buffer = .empty := by
  have hbalance := h.balance
  rw [hended.2, List.length_nil, Nat.mul_zero, Nat.zero_add, Nat.add_comm] at hbalance
  exact h.tight.eq_empty (h.head hended.1) hbalance

end Transit

end Bits

namespace Codec

open Bits (Transit)

section Bytes

variable {payload : Payload} {p : Transit}
variable (h : Transit.Reached 8 .one 11 (payload.bytes.map UInt8.toUInt32) p)

include h

theorem tidy_of_bytes : Transit.Tidy 8 11 (11 * 24) p := by
  have htidy := h.tidy (by decide) (by decide) (by decide) (fun _ => by decide) (lt_of_mem_bytes _)
  rwa [bits_of_bytes payload] at htidy

/-- The number in transit is that of the bytes. -/
theorem number_of_bytes :
    p.number 8 11 = Nat.ofDigits 256 ((payload.bytes.map UInt8.toUInt32).map UInt32.toNat) := by
  have hnumber := h.number_eq (by decide) (by decide) (by decide) (fun _ => by decide)
    (lt_of_mem_bytes _)
  rwa [Bits.number_eq_ofDigits] at hnumber

/-- The bytes of a payload have become the places of its words. -/
theorem written_of_bytes (hended : p.Ended) : p.written = places payload :=
  h.written_eq (by decide) hended

end Bytes

section Indices

variable {indices : List WordList.Index} {p : Transit}
variable (h : Transit.Reached 11 .all 8 (indices.map fun i => UInt32.ofNat i.val) p)

include h

theorem tidy_of_indices : Transit.Tidy 11 8 (11 * indices.length) p := by
  have htidy := h.tidy (by decide) (by decide) (by decide) (fun hone => by cases hone)
    (lt_of_mem_indices indices)
  rwa [List.length_map] at htidy

/-- The number in transit is that of the places. -/
theorem number_of_indices :
    p.number 11 8 =
      Nat.ofDigits 2048 ((indices.map fun i => UInt32.ofNat i.val).map UInt32.toNat) := by
  have hnumber := h.number_eq (by decide) (by decide) (by decide) (fun hone => by cases hone)
    (lt_of_mem_indices indices)
  rwa [Bits.number_eq_ofDigits] at hnumber

/-- Places have become the bytes that they spell. -/
theorem written_of_indices (hended : p.Ended) : p.written.map UInt32.toUInt8 = bytesOf indices :=
  congrArg _ (h.written_eq (by decide) hended)

end Indices

/-- **No bit is lost between bytes and words.**  When the words of some entropy are looked for, the
bits in transit in front of each byte, and behind the last, are those that `bufferAfter` names.
They are fewer than eleven, the byte fits in above them, and a group of bits is taken off only if
it is there, and only if it is one of the first 24.  At every point what is written, what is in
transit and what is to be read make up the number of the bytes.  In the end no bit is left, and 24
groups were written, which are the digits of that number and whose words are those of the entropy.

When 24 words are read, the same holds with the two widths exchanged, for as many of them as are
had before one is met that the list does not have: the bits in transit in front of a word are fewer
than eight, and a byte is written only if it is one of the first 33.  If all of the words are had,
then in the end no bit is left, and 33 bytes were written, which are the digits of the number that
the places of the words make up, and are what the words spell. -/
theorem transit_loses_nothing (list : WordList) :
    (∀ entropy : Entropy,
      let bytes := (Payload.ofEntropy entropy).bytes.map UInt8.toUInt32
      (∀ unread buffer written,
        Transit.Reached 8 .one 11 bytes ⟨.reading, unread, buffer, written⟩ ↔
          ∃ read, bytes = read ++ unread ∧ written = Bits.regroup 8 (·.tap 11) read ∧
            buffer = Bits.bufferAfter 8 (·.tap 11) read) ∧
      (∀ p, Transit.Reached 8 .one 11 bytes p → p.Safe 8 11 24 ∧
        p.number 8 11 = Nat.ofDigits 256 (bytes.map UInt32.toNat)) ∧
      ∀ p, Transit.Reached 8 .one 11 bytes p → p.Ended →
        p.buffer = ⟨0, 0⟩ ∧ p.written.length = 24 ∧
        Nat.ofDigits 2048 (p.written.map UInt32.toNat) =
          Nat.ofDigits 256 (bytes.map UInt32.toNat) ∧
        ∃ words, encode list entropy = .ok words ∧ words.length = 24 ∧
          p.written.mapM (wordAt list) = .ok words) ∧
    ∀ words : List String, words.length = 24 → ∀ (k : Nat) (indices : List WordList.Index),
      (words.take k).mapM (locate list) = .ok indices →
      let places := indices.map fun i => UInt32.ofNat i.val
      (∀ unread buffer written,
        Transit.Reached 11 .all 8 places ⟨.reading, unread, buffer, written⟩ ↔
          ∃ read, places = read ++ unread ∧ written = Bits.regroup 11 (·.drain 8) read ∧
            buffer = Bits.bufferAfter 11 (·.drain 8) read) ∧
      (∀ p, Transit.Reached 11 .all 8 places p → p.Safe 11 8 33 ∧
        p.number 11 8 = Nat.ofDigits 2048 (places.map UInt32.toNat)) ∧
      ∀ p, Transit.Reached 11 .all 8 places p → p.Ended → 24 ≤ k →
        p.buffer = ⟨0, 0⟩ ∧ p.written.length = 33 ∧
        Nat.ofDigits 256 (p.written.map UInt32.toNat) =
          Nat.ofDigits 2048 (places.map UInt32.toNat) ∧
        decode list words = .ok (.ofBytes (p.written.map UInt32.toUInt8)) := by
  constructor
  · intro entropy bytes
    refine ⟨fun _ _ _ => Transit.reached_reading_iff (by decide), ?_, ?_⟩
    · intro p hp
      exact ⟨(tidy_of_bytes hp).safe (by decide) (by decide) (by decide) (by decide),
        number_of_bytes hp⟩
    · intro p hp hended
      obtain ⟨hlength, hbuffer⟩ := (tidy_of_bytes hp).even hended
      have hnumber := (Transit.number_of_ended hended hbuffer).symm.trans (number_of_bytes hp)
      rw [Bits.number_eq_ofDigits] at hnumber
      refine ⟨hbuffer, hlength, hnumber, _, encode_eq list entropy, ?_, ?_⟩
      · rw [List.length_map, length_indices]
      · rw [written_of_bytes hp hended]
        exact encode_eq list entropy
  · intro words hcount k indices hfound places
    have hlength : indices.length = min k 24 := by
      rw [← List.length_map (f := list.word), (mapM_locate_eq_ok_iff list).mp hfound,
        List.length_take, hcount]
    refine ⟨fun _ _ _ => Transit.reached_reading_iff (by decide), ?_, ?_⟩
    · intro p hp
      exact ⟨(tidy_of_indices hp).safe (by decide) (by decide) (by decide) (by omega),
        number_of_indices hp⟩
    · intro p hp hended hk
      have htidy : Transit.Tidy 11 8 (8 * 33) p := by
        have htidy := tidy_of_indices hp
        rwa [hlength, Nat.min_eq_right hk] at htidy
      obtain ⟨hwritten, hbuffer⟩ := htidy.even hended
      have hnumber := (Transit.number_of_ended hended hbuffer).symm.trans (number_of_indices hp)
      rw [Bits.number_eq_ofDigits] at hnumber
      refine ⟨hbuffer, hwritten, hnumber, ?_⟩
      rw [List.take_of_length_le (hcount ▸ hk)] at hfound
      rw [decode, if_neg (not_not_intro hcount), hfound, written_of_indices hp hended]
      rfl

end Codec

end SeedPhrase
