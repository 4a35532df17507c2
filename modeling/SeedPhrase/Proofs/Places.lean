import Mathlib.Logic.ExistsUnique
import SeedPhrase.Proofs.Lookup
import SeedPhrase.WordList.Codes

/-!
# Words and their places

A list answers two questions, which word stands at a place and at which place a word stands, and
the second answer undoes the first.  It is found by halving, but it is the one that going through
the list from the front would come to, and nothing but the bytes of the words decides it: a string
that differs from every word in any byte has no place.

* `getElem?_toList`, `get?_eq_some_iff` — which word stands at a number;
* `map_indexOf?_eq_some_iff`, `get?_unique`, `existsUnique_get?_iff` — the number of a word;
* `map_indexOf?_eq_findIdx?`, `indexOf?_eq_none_iff_codes` — halving by the order and going through
  by the bytes come to the same;
* `lookup_inverts_get` — all of this together.
-/

namespace SeedPhrase.WordList

variable (list : WordList) {w : String}

theorem getElem?_toList (i : Nat) : list.toList[i]? = list.get? i := by
  rw [toList_eq_ofFn, List.getElem?_ofFn, get?]

theorem get?_eq_some_iff {i : Nat} :
    list.get? i = some w ↔ ∃ h : i < size, list.word ⟨i, h⟩ = w := by
  rw [get?]
  split <;> simp [*]

/-- **Looking a word up undoes reading it.** -/
theorem map_indexOf?_eq_some_iff {i : Nat} :
    (list.indexOf? w).map Fin.val = some i ↔ list.get? i = some w := by
  rw [get?_eq_some_iff, Option.map_eq_some_iff]
  constructor
  · rintro ⟨place, hplace, rfl⟩
    exact ⟨place.isLt, list.indexOf?_eq_some_iff.mp hplace⟩
  · rintro ⟨hi, hword⟩
    exact ⟨⟨i, hi⟩, list.indexOf?_eq_some_iff.mpr hword, rfl⟩

/-- A word does not stand at two numbers. -/
theorem get?_unique {i j : Nat} (hi : list.get? i = some w) (hj : list.get? j = some w) :
    i = j := by
  rw [← map_indexOf?_eq_some_iff] at hi hj
  exact Option.some.inj (hi.symm.trans hj)

/-- The words of a list are the strings that stand at exactly one number. -/
theorem existsUnique_get?_iff : (∃! i, i < size ∧ list.get? i = some w) ↔ w ∈ list.toList := by
  constructor
  · rintro ⟨i, ⟨-, hi⟩, -⟩
    rw [← getElem?_toList] at hi
    exact List.mem_of_getElem? hi
  · intro h
    obtain ⟨i, hi⟩ := list.mem_toList_iff.mp h
    have hget : list.get? i = some w := list.get?_eq_some_iff.mpr ⟨i.isLt, hi⟩
    exact ⟨i, ⟨i.isLt, hget⟩, fun j hj => list.get?_unique hj.2 hget⟩

/-- **Halving comes to the place that going through the list comes to,** with the bytes of the
words compared one after the other. -/
theorem map_indexOf?_eq_findIdx? :
    (list.indexOf? w).map Fin.val = list.toList.findIdx? fun v => codes v = codes w := by
  apply Option.ext
  intro i
  rw [map_indexOf?_eq_some_iff, List.findIdx?_eq_some_iff_getElem]
  constructor
  · intro hget
    obtain ⟨hi, hword⟩ := List.getElem?_eq_some_iff.mp ((list.getElem?_toList i).trans hget)
    refine ⟨hi, by rw [hword]; exact decide_eq_true rfl, ?_⟩
    -- An earlier word with the same bytes would be the same word at another number.
    intro j hj hsame
    have hother : list.get? j = some w := by
      rw [← getElem?_toList, List.getElem?_eq_some_iff]
      exact ⟨Nat.lt_trans hj hi, codes_injective (of_decide_eq_true hsame)⟩
    exact absurd (list.get?_unique hother hget) (Nat.ne_of_lt hj)
  · rintro ⟨hi, hsame, -⟩
    rw [← getElem?_toList, List.getElem?_eq_some_iff]
    exact ⟨hi, codes_injective (of_decide_eq_true hsame)⟩

/-- What has no place has not the bytes of any word. -/
theorem indexOf?_eq_none_iff_codes :
    list.indexOf? w = none ↔ ∀ v ∈ list.toList, codes v ≠ codes w := by
  rw [indexOf?_eq_none_iff]
  constructor
  · intro hw v hv hsame
    exact hw (codes_injective hsame ▸ hv)
  · intro h hw
    exact h w hw rfl

/-- What cannot be a word has no place. -/
theorem indexOf?_of_not_isWord (h : ¬ IsWord w) : list.indexOf? w = none := by
  rw [indexOf?_eq_none_iff, mem_toList_iff]
  rintro ⟨i, rfl⟩
  exact h (list.isWord i)

/-- **Looking up and reading are inverse.**  In every list a string has a number as its place if
and only if it is the word at that number.  So every word of the list has one place, which is below
2048, and is found there; what has none is every string that differs from each word in some byte,
among others whatever is empty or has a capital, a blank or any other character than `a` to `z` in
it.  The list contains a string if and only if it lists it.  The search decides by the order of the
bytes, and it comes to the same as comparing the bytes of all words from the first one on. -/
theorem lookup_inverts_get (list : WordList) (w : String) :
    (∀ i : Nat, (list.indexOf? w).map Fin.val = some i ↔ list.get? i = some w) ∧
    ((∃! i, i < 2048 ∧ list.get? i = some w) ↔ w ∈ list.toList) ∧
    (list.indexOf? w = none ↔ ∀ v ∈ list.toList, codes v ≠ codes w) ∧
    (¬ IsWord w → list.indexOf? w = none) ∧
    (list.contains w = true ↔ w ∈ list.toList) ∧
    (∀ i : Index, list.word i < w ↔ codes (list.word i) < codes w) ∧
    (list.indexOf? w).map Fin.val = list.toList.findIdx? fun v => codes v = codes w :=
  ⟨fun _ => list.map_indexOf?_eq_some_iff, list.existsUnique_get?_iff,
    list.indexOf?_eq_none_iff_codes, list.indexOf?_of_not_isWord, list.contains_iff,
    fun i => (codes_lt_iff_of_isWord (list.isWord i)).symm, list.map_indexOf?_eq_findIdx?⟩

end SeedPhrase.WordList
