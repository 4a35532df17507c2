import SeedPhrase.WordList.Basic

/-!
# Looking words up

The words of a list ascend, so a word that is greater than the one in the middle can
only stand in the upper half, and one that is smaller only in the lower half.  Halving
therefore finds every word at the one place where it stands, and finds nothing else.

* `search_eq_some_iff` — what a search among some of the places comes to;
* `indexOf?_eq_some_iff`, `indexOf?_eq_none_iff`, `contains_iff` — what it comes to in
  the whole list.
-/

namespace SeedPhrase.WordList

variable (list : WordList) {w : String}

/-- The greater of two words stands later. -/
theorem lt_of_word_lt {i j : Index} (h : list.word i < list.word j) : i < j := by
  rcases Nat.lt_trichotomy i j with hlt | heq | hgt
  · exact hlt
  · exact absurd (Fin.ext heq ▸ h) (String.lt_irrefl _)
  · exact absurd (String.lt_trans h (list.word_lt_word hgt)) (String.lt_irrefl _)

theorem search_eq_some_iff {low high : Nat} (hhigh : high ≤ size) {i : Index} :
    list.search w low high hhigh = some i ↔ low ≤ i ∧ i < high ∧ list.word i = w := by
  fun_induction search list w low high hhigh with
  | case1 low high hhigh hlow middle hfound =>
    constructor
    · intro h
      obtain rfl : middle = i := Option.some.inj h
      have hmiddle : middle.val = (low + high) / 2 := rfl
      exact ⟨by omega, by omega, hfound⟩
    · intro ⟨_, _, hword⟩
      rw [list.word_injective (hfound.trans hword.symm)]
  | case2 low high hhigh hlow middle hfound hless ih =>
    rw [ih]
    have hmiddle : middle.val = (low + high) / 2 := rfl
    constructor
    · intro ⟨hi, hrest⟩
      exact ⟨by omega, hrest⟩
    · intro ⟨_, hi, hword⟩
      have habove : middle < i := list.lt_of_word_lt (hword ▸ hless)
      exact ⟨habove, hi, hword⟩
  | case3 low high hhigh hlow middle hfound hless ih =>
    rw [ih]
    have hmiddle : middle.val = (low + high) / 2 := rfl
    constructor
    · intro ⟨hi, hhalf, hword⟩
      exact ⟨hi, by omega, hword⟩
    · intro ⟨hi, _, hword⟩
      have hbelow : i < middle := by
        rcases Nat.lt_trichotomy i middle with hlt | heq | hgt
        · exact hlt
        · exact absurd (Fin.ext heq ▸ hword) hfound
        · exact absurd (hword ▸ list.word_lt_word hgt) hless
      exact ⟨hi, hbelow, hword⟩
  | case4 low high hhigh hlow =>
    constructor
    · intro h; cases h
    · intro ⟨_, _, _⟩; omega

/-- **A word is found where it stands,** and nowhere else. -/
theorem indexOf?_eq_some_iff {i : Index} : list.indexOf? w = some i ↔ list.word i = w := by
  rw [indexOf?, search_eq_some_iff]
  constructor
  · intro h; exact h.2.2
  · intro h; exact ⟨Nat.zero_le _, i.isLt, h⟩

theorem mem_toList_iff : w ∈ list.toList ↔ ∃ i, list.word i = w := by
  rw [toList_eq_ofFn, List.mem_ofFn]

theorem mem_toList_of_mem_map {indices : List Index} (h : w ∈ indices.map list.word) :
    w ∈ list.toList := by
  obtain ⟨i, _, hi⟩ := List.mem_map.mp h
  exact list.mem_toList_iff.mpr ⟨i, hi⟩

theorem indexOf?_eq_none_iff : list.indexOf? w = none ↔ w ∉ list.toList := by
  rw [mem_toList_iff, Option.eq_none_iff_forall_ne_some]
  constructor
  · intro h ⟨i, hi⟩
    exact h i (list.indexOf?_eq_some_iff.mpr hi)
  · intro h i hi
    exact h ⟨i, list.indexOf?_eq_some_iff.mp hi⟩

/-- A list contains the words that it lists. -/
theorem contains_iff : list.contains w = true ↔ w ∈ list.toList := by
  rw [contains, Option.isSome_iff_ne_none, ne_eq, indexOf?_eq_none_iff, Classical.not_not]

end SeedPhrase.WordList
