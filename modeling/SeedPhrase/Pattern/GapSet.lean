import SeedPhrase.Pattern.Basic

/-!
# Sets of gaps

Five things can stand on either side of a gap, so there are twenty-five kinds of gaps, and
a set of them is a word with a bit for each kind.

* `GapSet.ofPred` — the gaps of which something holds;
* `GapSet.meets` — whether two sets have a gap in common;
* `meets_ofPred`, `meets_and`, `meets_or` — what a gap has to do with sets, by its own bit.
-/

namespace SeedPhrase

/-- The place of what stands on a side of a gap, among all that can stand there. -/
def Side.place : Side → UInt32
  | nothing => 0
  | lineFeed => 1
  | carriageReturn => 2
  | inWord => 3
  | outside => 4

/-- A set of gaps: one bit for each kind of gap. -/
abbrev GapSet := UInt32

/-- The set of one gap. -/
def Gap.bit (gap : Gap) : GapSet := 1 <<< (5 * gap.before.place + gap.after.place)

namespace GapSet

/-- All that can stand on a side of a gap. -/
def sides : List Side := [.nothing, .lineFeed, .carriageReturn, .inWord, .outside]

/-- All kinds of gaps. -/
def kinds : List Gap := sides.flatMap fun before => sides.map fun after => ⟨before, after⟩

/-- The gaps of which something holds. -/
def ofPred (p : Gap → Bool) : GapSet :=
  kinds.foldl (fun set gap => if p gap then set ||| gap.bit else set) 0

/-- Whether two sets have a gap in common. -/
@[inline] def meets (x y : GapSet) : Bool := x &&& y != 0

/-- No gap. -/
def none : GapSet := 0

/-- Every gap. -/
def all : GapSet := 0x1ffffff

/-- Nothing is left out of the kinds of gaps. -/
theorem mem_kinds (gap : Gap) : gap ∈ kinds := by
  obtain ⟨before, after⟩ := gap
  cases before <;> cases after <;> decide

/-- Different gaps have different bits. -/
theorem meets_bit (gap other : Gap) : meets gap.bit other.bit = decide (gap = other) := by
  have h : ∀ gap ∈ kinds, ∀ other ∈ kinds, meets gap.bit other.bit = decide (gap = other) := by
    decide +kernel
  exact h gap (mem_kinds gap) other (mem_kinds other)

/-- Whether a set holds a gap is told by one bit. -/
theorem meets_eq_getLsbD (set : GapSet) (gap : Gap) :
    meets set gap.bit =
      set.toBitVec.getLsbD (5 * gap.before.place + gap.after.place).toNat := by
  have h : ∀ gap ∈ kinds, gap.bit.toBitVec =
      BitVec.twoPow 32 (5 * gap.before.place + gap.after.place).toNat ∧ gap.bit ≠ 0 := by
    decide +kernel
  obtain ⟨hbit, hne⟩ := h gap (mem_kinds gap)
  have hand := BitVec.and_twoPow set.toBitVec (5 * gap.before.place + gap.after.place).toNat
  rw [← hbit, ← UInt32.toBitVec_and] at hand
  by_cases hset : set.toBitVec.getLsbD (5 * gap.before.place + gap.after.place).toNat
  · rw [if_pos hset] at hand
    rw [hset, meets, UInt32.toBitVec_inj.mp hand]
    exact bne_iff_ne.mpr hne
  · rw [if_neg hset] at hand
    have hzero : set &&& gap.bit = 0 := UInt32.toBitVec_inj.mp hand
    rw [Bool.eq_false_iff.mpr hset, meets, hzero]
    rfl

/-- A gap is in either of two sets if it is in one of them. -/
theorem meets_or (x y : GapSet) (gap : Gap) :
    meets (x ||| y) gap.bit = (meets x gap.bit || meets y gap.bit) := by
  simp [meets_eq_getLsbD]

/-- A gap is in both of two sets if it is in each of them. -/
theorem meets_and (x y : GapSet) (gap : Gap) :
    meets (x &&& y) gap.bit = (meets x gap.bit && meets y gap.bit) := by
  simp [meets_eq_getLsbD]

/-- No gap is in the empty set. -/
theorem meets_none (gap : Gap) : meets none gap.bit = false := by
  simp [meets_eq_getLsbD, none]

/-- Every gap is in the full set. -/
theorem meets_all (gap : Gap) : meets all gap.bit = true := by
  have h : ∀ gap ∈ kinds, meets all gap.bit = true := by decide +kernel
  exact h gap (mem_kinds gap)

/-- **What holds of a gap is what its bit tells.** -/
theorem meets_ofPred (p : Gap → Bool) (gap : Gap) : meets (ofPred p) gap.bit = p gap := by
  have fold (gaps : List Gap) (set : GapSet) :
      meets (gaps.foldl (fun set gap => if p gap then set ||| gap.bit else set) set) gap.bit =
        (meets set gap.bit || (p gap && gaps.contains gap)) := by
    induction gaps generalizing set with
    | nil => simp
    | cons other gaps ih =>
      rw [List.foldl_cons, ih]
      by_cases h : other = gap
      · subst h
        by_cases hp : p other <;> simp [hp, meets_or, meets_bit]
      · by_cases hp : p other <;> simp [hp, meets_or, meets_bit, h, Ne.symm h]
  rw [ofPred, fold, List.contains_iff_mem.mpr (mem_kinds gap)]
  simp [meets]

end GapSet

end SeedPhrase
