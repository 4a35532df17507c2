/-!
# How often

A part of a pattern may be repeated a number of times that is fixed, bounded, or bounded
only from below.  What is repeated may itself be something repeated; then the numbers
multiply, and often no number between the least and the greatest is left out.

* `Count` — the numbers of times that are allowed;
* `Count.Sums` — the totals of several such numbers;
* `Count.within?` — two counts, one inside the other, as one;
* `allows_within?` — it allows the totals and nothing else.
-/

namespace SeedPhrase

/-- How often something comes: so many times at least, and so many times more at most;
without the latter there is no bound. -/
structure Count where
  least : Nat
  extra : Option Nat
deriving DecidableEq, Repr

namespace Count

/-- Just once. -/
def once : Count := ⟨1, some 0⟩

/-- At least so often, and at most so often. -/
def ofBounds (least : Nat) (most : Option Nat) : Count := ⟨least, most.map (· - least)⟩

/-- Whether a number of times is allowed. -/
def Allows (count : Count) (n : Nat) : Prop :=
  count.least ≤ n ∧ ∀ extra ∈ count.extra, n ≤ count.least + extra

/-- The totals of so many numbers that are allowed. -/
def Sums (count : Count) : Nat → Nat → Prop
  | 0, n => n = 0
  | j + 1, n => ∃ k m, count.Allows k ∧ count.Sums j m ∧ n = k + m

/-- A count of times that each come `outer` times, as one count, if that leaves out no number
in between. -/
def within? (inner outer : Count) : Option Count :=
  let least := outer.least * inner.least
  match inner.extra, outer.extra with
  | some extra, some more =>
    if more = 0 ∨ inner.least ≤ outer.least * extra + 1 then
      some ⟨least, some (outer.least * extra + more * (inner.least + extra))⟩
    else
      none
  | some extra, none =>
    if 0 < inner.least + extra ∧ inner.least ≤ outer.least * extra + 1 then some ⟨least, none⟩
    else none
  | none, some more =>
    if 0 < outer.least ∨ (0 < more ∧ inner.least ≤ 1) then some ⟨least, none⟩ else none
  | none, none =>
    if 0 < outer.least ∨ inner.least ≤ 1 then some ⟨least, none⟩ else none

/-- Nothing but once is allowed when it is just once. -/
theorem allows_once (n : Nat) : once.Allows n ↔ n = 1 := by
  simp only [Allows, once, Option.mem_some_iff, forall_eq']
  omega

/-- The totals of so many numbers are those between that many times the least and that many
times the greatest. -/
theorem sums_iff (count : Count) (j n : Nat) :
    count.Sums j n ↔ j * count.least ≤ n ∧
      (∀ extra ∈ count.extra, n ≤ j * (count.least + extra)) ∧ (j = 0 → n = 0) := by
  induction j generalizing n with
  | zero => simp [Sums]; intros; omega
  | succ j ih =>
    obtain ⟨least, extra⟩ := count
    simp only [Sums, ih, Allows, Nat.add_mul, Nat.one_mul] at *
    cases extra with
    | none =>
      constructor
      · intro hboth
        obtain ⟨k, m, ⟨hk, -⟩, ⟨hm, -, -⟩, rfl⟩ := hboth
        exact ⟨by omega, by simp, by simp⟩
      · intro hboth
        obtain ⟨hn, -, -⟩ := hboth
        rcases Nat.eq_zero_or_pos j with rfl | hj
        · exact ⟨n, 0, by simp; omega, by simp, by omega⟩
        · exact ⟨least, n - least, by simp, ⟨by omega, by simp, by omega⟩, by omega⟩
    | some extra =>
      simp only [Option.mem_some_iff, forall_eq', Nat.mul_add]
      constructor
      · intro hboth
        obtain ⟨k, m, hk, ⟨hm, hm', -⟩, rfl⟩ := hboth
        exact ⟨by omega, by omega, by simp⟩
      · intro hboth
        obtain ⟨hn, hn', -⟩ := hboth
        rcases Nat.eq_zero_or_pos j with rfl | hj
        · exact ⟨n, 0, by omega, by simp, by omega⟩
        · by_cases h : n ≤ least + extra + j * least
          · exact ⟨n - j * least, j * least, by omega, ⟨by omega, by omega, by omega⟩, by omega⟩
          · exact ⟨least + extra, n - (least + extra), by omega,
              ⟨by omega, by omega, by omega⟩, by omega⟩

/-- Between `few` times something and more times as much there are no gaps, if the greatest
of so few comes next to the least of one more. -/
theorem exists_times {least extra few n : Nat} (hpos : 0 < least + extra)
    (hnext : least ≤ few * extra + 1) (hn : few * least ≤ n) :
    ∃ j, few ≤ j ∧ j * least ≤ n ∧ n ≤ j * (least + extra) ∧
      ∀ most, few ≤ most → n ≤ most * (least + extra) → j ≤ most := by
  by_cases hfew : n ≤ few * (least + extra)
  · exact ⟨few, by omega, hn, hfew, fun most h _ => h⟩
  · have hdiv := Nat.div_add_mod (n - 1) (least + extra)
    have hmod := Nat.mod_lt (n - 1) hpos
    have hlt : few ≤ (n - 1) / (least + extra) :=
      (Nat.le_div_iff_mul_le hpos).mpr (by omega)
    generalize (n - 1) / (least + extra) = i at *
    have hmul : few * extra ≤ i * extra := Nat.mul_le_mul_right _ hlt
    rw [Nat.mul_comm] at hdiv
    simp only [Nat.mul_add] at *
    refine ⟨i + 1, by omega, by rw [Nat.add_mul]; omega, by simp only [Nat.add_mul]; omega, ?_⟩
    intro most _ hmost
    by_cases h : i + 1 ≤ most
    · exact h
    · have := Nat.mul_le_mul_right least (show most ≤ i by omega)
      have := Nat.mul_le_mul_right extra (show most ≤ i by omega)
      omega

/-- **No number is left out.**  One count inside another, as one count, allows the totals
that they allow together. -/
theorem allows_within? {inner outer count : Count} (h : inner.within? outer = some count)
    (n : Nat) : count.Allows n ↔ ∃ j, outer.Allows j ∧ inner.Sums j n := by
  obtain ⟨least, extra⟩ := inner
  obtain ⟨few, more⟩ := outer
  have atLeast {j : Nat} (hj : few ≤ j) : few * least ≤ j * least := Nat.mul_le_mul_right _ hj
  cases extra with
  | none =>
    have one (hfew : ¬ 0 < few) (hleast : least ≤ 1) (hn : n ≠ 0) : 1 * least ≤ n := by omega
    cases more with
    | none =>
      simp only [within?, Option.ite_none_right_eq_some, Option.some.injEq] at h
      obtain ⟨hnext, rfl⟩ := h
      simp only [sums_iff, Allows, Option.not_mem_none, false_implies, implies_true, and_true,
        true_and]
      constructor
      · intro hn
        by_cases hfew : 0 < few
        · exact ⟨few, by omega, hn, by omega⟩
        · by_cases hn0 : n = 0
          · exact ⟨0, by omega, by omega, fun _ => hn0⟩
          · exact ⟨1, by omega, one hfew (by omega) hn0, by omega⟩
      · intro hboth
        obtain ⟨j, hj, hn, -⟩ := hboth
        exact Nat.le_trans (atLeast hj) hn
    | some more =>
      simp only [within?, Option.ite_none_right_eq_some, Option.some.injEq] at h
      obtain ⟨hnext, rfl⟩ := h
      simp only [sums_iff, Allows, Option.not_mem_none, false_implies, implies_true, and_true,
        true_and, Option.mem_some_iff, forall_eq']
      constructor
      · intro hn
        by_cases hfew : 0 < few
        · exact ⟨few, by omega, hn, by omega⟩
        · by_cases hn0 : n = 0
          · exact ⟨0, by omega, by omega, fun _ => hn0⟩
          · exact ⟨1, by omega, one hfew (by omega) hn0, by omega⟩
      · intro hboth
        obtain ⟨j, ⟨hj, -⟩, hn, -⟩ := hboth
        exact Nat.le_trans (atLeast hj) hn
  | some extra =>
    have zero {j : Nat} (hn : n ≤ j * (least + extra)) (hj : j = 0) : n = 0 := by
      subst hj; omega
    cases more with
    | none =>
      simp only [within?, Option.ite_none_right_eq_some, Option.some.injEq] at h
      obtain ⟨⟨hpos, hnext⟩, rfl⟩ := h
      simp only [sums_iff, Allows, Option.not_mem_none, false_implies, implies_true, and_true,
        Option.mem_some_iff, forall_eq']
      constructor
      · intro hn
        obtain ⟨j, hj, hlow, hhigh, -⟩ := exists_times hpos hnext hn
        exact ⟨j, hj, hlow, hhigh, zero hhigh⟩
      · intro hboth
        obtain ⟨j, hj, hn, -⟩ := hboth
        exact Nat.le_trans (atLeast hj) hn
    | some more =>
      simp only [within?, Option.ite_none_right_eq_some, Option.some.injEq] at h
      obtain ⟨hnext, rfl⟩ := h
      have hall : few * least + (few * extra + more * (least + extra)) =
          (few + more) * (least + extra) := by simp only [Nat.add_mul, Nat.mul_add]; omega
      simp only [sums_iff, Allows, Option.mem_some_iff, forall_eq', hall]
      constructor
      · intro hboth
        obtain ⟨hn, hmost⟩ := hboth
        by_cases hmore : more = 0
        · subst hmore
          exact ⟨few, ⟨by omega, by omega⟩, hn, hmost, zero hmost⟩
        · by_cases hpos : 0 < least + extra
          · obtain ⟨j, hj, hlow, hhigh, hbound⟩ := exists_times hpos (by omega) hn
            exact ⟨j, ⟨hj, hbound _ (by omega) hmost⟩, hlow, hhigh, zero hhigh⟩
          · have hsum : least + extra = 0 := by omega
            rw [hsum] at hmost
            exact ⟨few, ⟨by omega, by omega⟩, hn, by omega, fun _ => by omega⟩
      · intro hboth
        obtain ⟨j, ⟨hj, hj'⟩, hlow, hhigh, -⟩ := hboth
        exact ⟨Nat.le_trans (atLeast hj) hlow,
          Nat.le_trans hhigh (Nat.mul_le_mul_right _ hj')⟩

end Count

end SeedPhrase
