import Mathlib.Algebra.Order.Ring.Nat
import Mathlib.Data.Nat.Digits.Defs
import Mathlib.Tactic.Ring
import SeedPhrase.Bits.Regroup

/-!
# Regrouping keeps the number

Bit groups of one width, the least significant first, are the digits of a number.
A buffer in transit is the low part of that number, and everything that is done to
it, pushing a group in above or taking groups off below, only moves bits between
the buffer and the groups already written.  So the groups that come out, together
with what is left in the buffer, are the same number as those that went in.

* `number_eq_ofDigits` — the number of some groups;
* `toNat_push`, `toNat_front`, `toNat_pop` — what the three primitives do to the
  number in a buffer: a push adds, for no bit is in use twice and none is lost, and
  the other two are remainder and quotient;
* `number_drain` — a drain splits the number in the buffer;
* `number_regroupFrom` — a run keeps the number;
* `number_regroup` — where the bits come out even nothing stays behind, and the new
  groups spell the old number;
* `regroup_regroup` — so regrouping back gives the groups that one began with.
-/

namespace SeedPhrase.Bits

/-- The number whose digits are the given groups, the least significant first. -/
def number (width : Nat) : List UInt32 → Nat
  | [] => 0
  | group :: groups => group.toNat + 2 ^ width * number width groups

/-- The number of some groups, by Horner's rule. -/
theorem number_eq_ofDigits (width : Nat) (groups : List UInt32) :
    number width groups = Nat.ofDigits (2 ^ width) (groups.map UInt32.toNat) := by
  induction groups with
  | nil => rfl
  | cons group groups ih => rw [number, ih, List.map_cons, Nat.ofDigits_cons]

/-- The number of two sequences of groups, the second one above the first. -/
theorem number_append (width : Nat) (low high : List UInt32) :
    number width (low ++ high) =
      number width low + 2 ^ (width * low.length) * number width high := by
  induction low with
  | nil => simp [number]
  | cons group groups ih =>
    rw [List.cons_append, number, ih, number, List.length_cons, Nat.mul_succ,
      Nat.add_comm (width * groups.length), Nat.pow_add]
    ring

/-- Groups of one width spell a number with no more bits than they have together. -/
theorem number_lt {width : Nat} {groups : List UInt32}
    (h : ∀ group ∈ groups, group.toNat < 2 ^ width) :
    number width groups < 2 ^ (width * groups.length) := by
  induction groups with
  | nil => simp [number]
  | cons group groups ih =>
    have hgroup := h group List.mem_cons_self
    have hrest := ih fun other hother => h other (List.mem_cons_of_mem _ hother)
    rw [number, List.length_cons, Nat.mul_succ, Nat.add_comm (width * groups.length), Nat.pow_add]
    calc group.toNat + 2 ^ width * number width groups
        < 2 ^ width + 2 ^ width * number width groups := by omega
      _ = 2 ^ width * (number width groups + 1) := by ring
      _ ≤ 2 ^ width * 2 ^ (width * groups.length) := Nat.mul_le_mul_left _ hrest

namespace Buffer

/-- Above the bits in use a buffer holds zeros. -/
def Tight (buffer : Buffer) : Prop := buffer.bits.toNat < 2 ^ buffer.count

/-- The empty buffer is tight. -/
theorem tight_empty : Tight .empty := by simp [Tight, empty]

/-- A group that is moved up within the word loses no bit. -/
theorem toNat_shifted {buffer : Buffer} {width : Nat} {group : UInt32}
    (hgroup : group.toNat < 2 ^ width) (hwidth : 0 < width) (hfit : buffer.count + width ≤ 32) :
    (group <<< UInt32.ofNat buffer.count).toNat = group.toNat * 2 ^ buffer.count := by
  have hlt : group.toNat <<< buffer.count < 2 ^ 32 := by
    rw [Nat.shiftLeft_eq]
    calc group.toNat * 2 ^ buffer.count
        < 2 ^ width * 2 ^ buffer.count := Nat.mul_lt_mul_of_pos_right hgroup (Nat.two_pow_pos _)
      _ = 2 ^ (width + buffer.count) := (Nat.pow_add ..).symm
      _ ≤ 2 ^ 32 := Nat.pow_le_pow_right (by decide) (by omega)
  rw [UInt32.toNat_shiftLeft, UInt32.toNat_ofNat',
    Nat.mod_eq_of_lt (show buffer.count < 2 ^ 32 by omega),
    Nat.mod_eq_of_lt (show buffer.count < 32 by omega), Nat.mod_eq_of_lt hlt, Nat.shiftLeft_eq]

/-- **A push adds.**  While the bits fit into the word, a group goes in above the bits in
use: no bit of it falls off the top, and none meets a bit that is set. -/
theorem toNat_push {buffer : Buffer} {width : Nat} {group : UInt32} (htight : buffer.Tight)
    (hgroup : group.toNat < 2 ^ width) (hwidth : 0 < width) (hfit : buffer.count + width ≤ 32) :
    (buffer.push width group).bits.toNat =
      buffer.bits.toNat + 2 ^ buffer.count * group.toNat := by
  rw [push, UInt32.toNat_or, toNat_shifted hgroup hwidth hfit, Nat.or_comm, Nat.mul_comm,
    ← Nat.two_pow_add_eq_or_of_lt htight]
  omega

/-- A push leaves a buffer tight. -/
theorem tight_push {buffer : Buffer} {width : Nat} {group : UInt32} (htight : buffer.Tight)
    (hgroup : group.toNat < 2 ^ width) (hwidth : 0 < width) (hfit : buffer.count + width ≤ 32) :
    (buffer.push width group).Tight := by
  unfold Tight at htight ⊢
  rw [toNat_push htight hgroup hwidth hfit, push, Nat.pow_add]
  calc buffer.bits.toNat + 2 ^ buffer.count * group.toNat
      < 2 ^ buffer.count + 2 ^ buffer.count * group.toNat := by omega
    _ = 2 ^ buffer.count * (group.toNat + 1) := by ring
    _ ≤ 2 ^ buffer.count * 2 ^ width := Nat.mul_le_mul_left _ hgroup

/-- Taking bits off the bottom divides. -/
theorem toNat_pop {buffer : Buffer} {width : Nat} (hwidth : width < 32) :
    (buffer.pop width).bits.toNat = buffer.bits.toNat / 2 ^ width := by
  simp only [pop, UInt32.toNat_shiftRight, UInt32.toNat_ofNat']
  rw [Nat.mod_eq_of_lt (show width < 2 ^ 32 by omega), Nat.mod_eq_of_lt hwidth,
    Nat.shiftRight_eq_div_pow]

/-- The mask of the lowest bits is one less than a power of two. -/
theorem toNat_mask {width : Nat} (hwidth : width < 32) :
    ((1 <<< UInt32.ofNat width) - 1 : UInt32).toNat = 2 ^ width - 1 := by
  have hshift : (1 <<< UInt32.ofNat width : UInt32).toNat = 2 ^ width := by
    have hlt : 1 <<< width < 2 ^ 32 := by
      rw [Nat.one_shiftLeft]
      exact Nat.pow_lt_pow_right (by decide) hwidth
    simp only [UInt32.toNat_shiftLeft, UInt32.toNat_ofNat', UInt32.toNat_one]
    rw [Nat.mod_eq_of_lt (show width < 2 ^ 32 by omega), Nat.mod_eq_of_lt hwidth,
      Nat.mod_eq_of_lt hlt, Nat.one_shiftLeft]
  rw [UInt32.toNat_sub_of_le, hshift, UInt32.toNat_one]
  rw [UInt32.le_iff_toNat_le, hshift]
  exact Nat.two_pow_pos _

/-- The bits at the bottom are a remainder. -/
theorem toNat_front {buffer : Buffer} {width : Nat} (hwidth : width < 32) :
    (buffer.front width).toNat = buffer.bits.toNat % 2 ^ width := by
  rw [front, UInt32.toNat_and, toNat_mask hwidth, Nat.and_two_pow_sub_one_eq_mod]

/-- Taking a group off leaves a buffer tight. -/
theorem tight_pop {buffer : Buffer} {width : Nat} (htight : buffer.Tight) (hwidth : width < 32)
    (hcount : width ≤ buffer.count) : (buffer.pop width).Tight := by
  unfold Tight at htight ⊢
  have hsum : (buffer.pop width).count + width = buffer.count := Nat.sub_add_cancel hcount
  rwa [toNat_pop hwidth, Nat.div_lt_iff_lt_mul (Nat.two_pow_pos _), ← Nat.pow_add, hsum]

/-- **A drain splits the number.**  The groups taken off are its low digits, the buffer
left behind is what is above them, and no bit is counted twice or not at all. -/
theorem number_drain {buffer : Buffer} {width : Nat} (htight : buffer.Tight) (hwidth : width < 32) :
    number width (buffer.drain width).1 +
        2 ^ (width * (buffer.drain width).1.length) * (buffer.drain width).2.bits.toNat =
      buffer.bits.toNat ∧
    (buffer.drain width).2.Tight ∧
    width * (buffer.drain width).1.length + (buffer.drain width).2.count = buffer.count := by
  fun_induction drain buffer width with
  | case1 buffer h taken ih =>
    obtain ⟨hnumber, hrest, hcount⟩ := ih (tight_pop htight hwidth h.2)
    refine ⟨?_, hrest, ?_⟩
    · rw [toNat_pop hwidth] at hnumber
      rw [number, List.length_cons, Nat.mul_succ, Nat.add_comm (width * _), Nat.pow_add,
        toNat_front hwidth, Nat.mul_assoc, Nat.add_assoc, ← Nat.mul_add, hnumber]
      exact Nat.mod_add_div _ _
    · rw [List.length_cons, Nat.mul_succ]
      have hpop : (buffer.pop width).count = buffer.count - width := rfl
      have hle := h.2
      simp only [taken]
      omega
  | case2 buffer h => exact ⟨by simp [number], htight, by simp⟩

/-- Where as many bits have come out as make up whole groups, a buffer that holds less than a group
holds nothing. -/
theorem Tight.eq_empty {buffer : Buffer} {width written k : Nat} (htight : buffer.Tight)
    (hless : buffer.count < width) (heven : width * written + buffer.count = width * k) :
    written = k ∧ buffer = .empty := by
  have hwritten : written = k := by
    have hdiv := congrArg (· / width) heven
    have hpos : 0 < width := Nat.zero_lt_of_lt hless
    simpa [Nat.mul_add_div hpos, Nat.div_eq_of_lt hless, Nat.mul_div_cancel_left _ hpos] using hdiv
  obtain ⟨bits, count⟩ := buffer
  obtain rfl : count = 0 := by
    rw [hwritten] at heven
    simpa using heven
  obtain rfl : bits = 0 := UInt32.toNat_inj.mp (by simpa [Tight] using htight)
  exact ⟨hwritten, rfl⟩

end Buffer

/-- **A run keeps the number.**  What is written, together with what is left in the
buffer, is the number that the buffer and the groups read stand for; and as many bits
come out or stay as went in. -/
theorem number_regroupFrom {inWidth outWidth : Nat} (hin : 0 < inWidth) (hout : 0 < outWidth)
    (hfit : outWidth + inWidth ≤ 32) (groups : List UInt32)
    (hgroups : ∀ group ∈ groups, group.toNat < 2 ^ inWidth) :
    ∀ buffer : Buffer, buffer.Tight → buffer.count < outWidth →
      let last := groups.foldl (fun b group => (b.feed inWidth (·.drain outWidth) group).2) buffer
      number outWidth (regroupFrom inWidth (·.drain outWidth) buffer groups) +
          2 ^ (outWidth * (regroupFrom inWidth (·.drain outWidth) buffer groups).length) *
            last.bits.toNat =
        buffer.bits.toNat + 2 ^ buffer.count * number inWidth groups ∧
      last.Tight ∧
      outWidth * (regroupFrom inWidth (·.drain outWidth) buffer groups).length + last.count =
        buffer.count + inWidth * groups.length := by
  induction groups with
  | nil =>
    intro buffer htight _
    exact ⟨by simp [regroupFrom, number], htight, by simp [regroupFrom]⟩
  | cons group groups ih =>
    intro buffer htight hcount
    have hgroup := hgroups group List.mem_cons_self
    have hpush := Buffer.tight_push htight hgroup hin (by omega)
    obtain ⟨hnumber, hrest, hbits⟩ :=
      Buffer.number_drain hpush (by omega : outWidth < 32)
    have hless := @Buffer.drain_count_lt (buffer.push inWidth group) outWidth hout
    obtain ⟨ihnumber, ihtight, ihbits⟩ :=
      ih (fun g hg => hgroups g (List.mem_cons_of_mem _ hg)) _ hrest hless
    have hsum : (buffer.push inWidth group).count = buffer.count + inWidth := rfl
    rw [Buffer.toNat_push htight hgroup hin (by omega)] at hnumber
    refine ⟨?_, ihtight, ?_⟩
    · simp only [Buffer.feed, List.foldl_cons, regroupFrom_cons, number_append,
        List.length_append] at ihnumber ⊢
      rw [Nat.mul_add, Nat.pow_add, Nat.mul_assoc, Nat.add_assoc, ← Nat.mul_add, ihnumber,
        Nat.mul_add, ← Nat.add_assoc, hnumber, ← Nat.mul_assoc, ← Nat.pow_add, hbits, hsum, number,
        Nat.pow_add]
      ring
    · simp only [Buffer.feed, List.foldl_cons, regroupFrom_cons, List.length_append,
        List.length_cons] at ihbits ⊢
      rw [Nat.mul_add, Nat.mul_succ]
      omega

/-- Groups of one width are told apart by their number: they are its digits. -/
theorem number_injective {width : Nat} {xs ys : List UInt32} (hlength : xs.length = ys.length)
    (hxs : ∀ x ∈ xs, x.toNat < 2 ^ width) (hys : ∀ y ∈ ys, y.toNat < 2 ^ width)
    (h : number width xs = number width ys) : xs = ys := by
  induction xs generalizing ys with
  | nil => exact (List.eq_nil_of_length_eq_zero hlength.symm).symm
  | cons x xs ih =>
    cases ys with
    | nil => cases hlength
    | cons y ys =>
      have hx := hxs x List.mem_cons_self
      have hy := hys y List.mem_cons_self
      simp only [number] at h
      have hhead : x.toNat = y.toNat := by
        have hmod := congrArg (· % 2 ^ width) h
        simpa [Nat.add_mul_mod_self_left, Nat.mod_eq_of_lt hx, Nat.mod_eq_of_lt hy] using hmod
      have htail : number width xs = number width ys := by
        rw [hhead] at h
        exact Nat.eq_of_mul_eq_mul_left (Nat.two_pow_pos width) (Nat.add_left_cancel h)
      rw [UInt32.toNat_inj.mp hhead, ih (Nat.succ.inj hlength)
        (fun z hz => hxs z (List.mem_cons_of_mem _ hz))
        (fun z hz => hys z (List.mem_cons_of_mem _ hz)) htail]

/-- What a drain takes off has the width that it takes off. -/
theorem lt_of_mem_drain {buffer : Buffer} {width : Nat} (hwidth : width < 32) :
    ∀ group ∈ (buffer.drain width).1, group.toNat < 2 ^ width := by
  fun_induction Buffer.drain buffer width with
  | case1 buffer h taken ih =>
    intro group hgroup
    rcases List.mem_cons.mp hgroup with hfront | hrest
    · rw [hfront, Buffer.toNat_front hwidth]
      exact Nat.mod_lt _ (Nat.two_pow_pos width)
    · exact ih group hrest
  | case2 buffer h => intro group hgroup; cases hgroup

/-- What a run writes has the width that it writes. -/
theorem lt_of_mem_regroup (inWidth : Nat) {outWidth : Nat} (hwidth : outWidth < 32)
    (groups : List UInt32) :
    ∀ group ∈ regroup inWidth (·.drain outWidth) groups, group.toNat < 2 ^ outWidth := by
  have hfrom : ∀ (groups : List UInt32) (buffer : Buffer),
      ∀ group ∈ regroupFrom inWidth (·.drain outWidth) buffer groups,
        group.toNat < 2 ^ outWidth := by
    intro groups
    induction groups with
    | nil => intro buffer group hgroup; cases hgroup
    | cons first groups ih =>
      intro buffer group hgroup
      rw [regroupFrom_cons] at hgroup
      rcases List.mem_append.mp hgroup with hnow | hlater
      · exact lt_of_mem_drain hwidth group hnow
      · exact ih _ group hlater
  exact hfrom groups .empty

section Even

variable {inWidth outWidth k : Nat} {groups : List UInt32}

/-- **Nothing stays behind where the bits come out even.**  As many groups are written
as there are bits for, and they spell the number that was read. -/
theorem number_regroup (hin : 0 < inWidth) (hout : 0 < outWidth) (hfit : outWidth + inWidth ≤ 32)
    (hgroups : ∀ group ∈ groups, group.toNat < 2 ^ inWidth)
    (heven : inWidth * groups.length = outWidth * k) :
    (regroup inWidth (·.drain outWidth) groups).length = k ∧
    number outWidth (regroup inWidth (·.drain outWidth) groups) = number inWidth groups := by
  obtain ⟨hnumber, htight, hbits⟩ :=
    number_regroupFrom hin hout hfit groups hgroups .empty Buffer.tight_empty hout
  have hcount := bufferAfter_count_lt inWidth hout groups
  change number outWidth (regroup inWidth (·.drain outWidth) groups) +
      2 ^ (outWidth * (regroup inWidth (·.drain outWidth) groups).length) *
        (bufferAfter inWidth (·.drain outWidth) groups).bits.toNat =
    (0 : UInt32).toNat + 2 ^ 0 * number inWidth groups at hnumber
  change (bufferAfter inWidth (·.drain outWidth) groups).Tight at htight
  change outWidth * (regroup inWidth (·.drain outWidth) groups).length +
      (bufferAfter inWidth (·.drain outWidth) groups).count =
    0 + inWidth * groups.length at hbits
  generalize bufferAfter inWidth (·.drain outWidth) groups = last at *
  generalize regroup inWidth (·.drain outWidth) groups = written at *
  rw [heven, Nat.zero_add] at hbits
  obtain ⟨hlength, rfl⟩ := htight.eq_empty hcount hbits
  refine ⟨hlength, ?_⟩
  simpa [Buffer.empty] using hnumber

/-- **Regrouping back.**  Where the bits come out even, groups that were cut into groups of
another width are had again by cutting those into groups of the first width. -/
theorem regroup_regroup (hin : 0 < inWidth) (hout : 0 < outWidth) (hfit : outWidth + inWidth ≤ 32)
    (hgroups : ∀ group ∈ groups, group.toNat < 2 ^ inWidth)
    (heven : inWidth * groups.length = outWidth * k) :
    regroup outWidth (·.drain inWidth) (regroup inWidth (·.drain outWidth) groups) = groups := by
  obtain ⟨hlength, hnumber⟩ := number_regroup hin hout hfit hgroups heven
  have hthere := lt_of_mem_regroup inWidth (by omega : outWidth < 32) groups
  obtain ⟨hlength', hnumber'⟩ :=
    number_regroup hout hin (by omega) hthere (by rw [hlength]; exact heven.symm)
  have hback := lt_of_mem_regroup outWidth (by omega : inWidth < 32)
    (regroup inWidth (·.drain outWidth) groups)
  exact number_injective hlength' hback hgroups (hnumber'.trans hnumber)

end Even

end SeedPhrase.Bits
