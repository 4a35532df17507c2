import SeedPhrase.Error
import SeedPhrase.Text.Lines

/-!
# Word lists

A word list holds 2048 words, each a non-empty string of the letters `a` to `z`,
in strictly ascending order.  The rules are part of the type: `WordList` is a
vector of words together with the facts that they are words and that they ascend,
so eleven bits always name a word and a word never has two places.

* `WordList.word`, `WordList.get?` — the word at a place;
* `WordList.indexOf?` — the place of a word, by binary search;
* `WordList.fault?` — the first rule that a sequence of lines breaks;
* `WordList.ofWords`, `WordList.ofText` — the list of a sequence of lines or of a
  text, if it breaks none;
* `ofWords_eq_ok_iff` — a list is had from its own words only;
* `word_lt_word`, `word_injective` — the order of the words is the order of their
  places.
-/

namespace SeedPhrase

/-- Whether a string can be a word: it is not empty and holds only the letters `a`
to `z`. -/
def IsWord (w : String) : Prop := w ≠ "" ∧ ∀ c ∈ w.toList, 'a' ≤ c ∧ c ≤ 'z'

instance (w : String) : Decidable (IsWord w) := inferInstanceAs (Decidable (_ ∧ _))

/-- What is no letter is not in a word. -/
theorem IsWord.notMem {w : String} (h : IsWord w) {c : Char} (hc : ¬ ('a' ≤ c ∧ c ≤ 'z')) :
    c ∉ w.toList := fun hmem => hc (h.2 c hmem)

namespace WordList

/-- The number of words in a list. -/
abbrev size : Nat := 2048

/-- A place in a list. -/
abbrev Index := Fin size

end WordList

/-- A list of 2048 words in ascending order. -/
structure WordList where
  words : Vector String WordList.size
  isWord : ∀ i : WordList.Index, IsWord (words.get i)
  ascending : ∀ i j : WordList.Index, i < j → words.get i < words.get j

namespace WordList

/-- Two lists are the same when their words are. -/
@[ext] theorem ext {x y : WordList} (h : x.words = y.words) : x = y := by
  cases x; cases y; simp_all

instance : DecidableEq WordList := fun x y =>
  decidable_of_iff (x.words = y.words) ⟨ext, fun h => h ▸ rfl⟩

variable (list : WordList)

/-- The word at a place. -/
def word (i : Index) : String := list.words.get i

/-- The word at a place, if there is such a place. -/
def get? (i : Nat) : Option String := if h : i < size then some (list.word ⟨i, h⟩) else none

/-- All words in order. -/
def toList : List String := list.words.toList

/-- The number of words. -/
def length : Nat := list.toList.length

/-- Every list has as many words as there are places. -/
@[simp] theorem length_eq : list.length = size := by simp [length, toList]

/-- **Later words are greater.** -/
theorem word_lt_word {i j : Index} (h : i < j) : list.word i < list.word j :=
  list.ascending i j h

/-- No word has two places. -/
theorem word_injective {i j : Index} (h : list.word i = list.word j) : i = j := by
  rcases Nat.lt_trichotomy i j with hlt | heq | hgt
  · exact absurd (h ▸ list.word_lt_word hlt) (String.lt_irrefl _)
  · exact Fin.ext heq
  · exact absurd (h ▸ list.word_lt_word hgt) (String.lt_irrefl _)

/-- The place of `w` among the places from `low` up to but not including `high`, by
halving: the word in the middle tells which half to go on with. -/
def search (w : String) (low high : Nat) (hhigh : high ≤ size) : Option Index :=
  if hlow : low < high then
    let middle : Index := ⟨(low + high) / 2, by omega⟩
    if list.word middle = w then some middle
    else if list.word middle < w then search w (middle + 1) high hhigh
    else search w low middle (by omega)
  else
    none
termination_by high - low
decreasing_by all_goals omega

/-- The place of a word. -/
def indexOf? (w : String) : Option Index := list.search w 0 size (Nat.le_refl _)

/-- Whether a string is one of the words. -/
def contains (w : String) : Bool := (list.indexOf? w).isSome

/-- A rule that a sequence of lines breaks. -/
inductive Fault
  /-- There are not 2048 lines. -/
  | wrongCount (found : Nat)
  /-- The numbered line, the first being zero, is no word. -/
  | notWord (line : Nat)
  /-- The numbered line is not greater than the one before it. -/
  | outOfOrder (line : Nat)
deriving DecidableEq, Repr

namespace Fault

/-- A fault in words. -/
def message : Fault → String
  | wrongCount found => s!"expected {size} words, got {found}"
  | notWord line => s!"line {line} is not a lowercase ASCII word"
  | outOfOrder line => s!"words out of order at line {line}"

/-- A fault as a failure of the library. -/
def toError (fault : Fault) : Error := .invalidWordList fault.message

end Fault

/-- The first line that is no word. -/
def firstNonWord? (lines : List String) : Option Nat :=
  lines.findIdx? fun line => ¬ IsWord line

/-- The first line that is not greater than the line before it. -/
def firstDescent? (lines : List String) : Option Nat :=
  ((lines.zip lines.tail).findIdx? fun pair => ¬ pair.1 < pair.2).map (· + 1)

/-- The first rule that is broken.  The number of lines is looked at before their
content, and every line before any order. -/
def fault? (lines : List String) : Option Fault :=
  if lines.length ≠ size then
    some (.wrongCount lines.length)
  else
    match firstNonWord? lines with
    | some line => some (.notWord line)
    | none => (firstDescent? lines).map .outOfOrder

/-- Lines without a fault are 2048. -/
theorem length_of_fault?_eq_none {lines : List String} (h : fault? lines = none) :
    lines.length = size := by
  unfold fault? at h
  split at h
  · cases h
  · omega

/-- Lines without a fault are words. -/
theorem isWord_of_fault?_eq_none {lines : List String} (h : fault? lines = none) :
    ∀ line ∈ lines, IsWord line := by
  unfold fault? at h
  split at h
  · cases h
  · split at h
    · cases h
    · rename_i hwords
      simpa [firstNonWord?] using hwords

/-- Of lines without a fault each is greater than the one before it. -/
theorem step_of_fault?_eq_none {lines : List String} (h : fault? lines = none) {i : Nat}
    (hi : i + 1 < lines.length) : lines[i] < lines[i + 1] := by
  unfold fault? at h
  split at h
  · cases h
  · split at h
    · cases h
    · have hnone : (lines.zip lines.tail).findIdx? (fun pair => ¬ pair.1 < pair.2) = none := by
        simpa [firstDescent?] using h
      rw [List.findIdx?_eq_none_iff] at hnone
      have hlen : i < (lines.zip lines.tail).length := by
        simp only [List.length_zip, List.length_tail]; omega
      have := hnone _ (List.getElem_mem hlen)
      simpa using this

/-- Of lines without a fault a later one is greater than an earlier one. -/
theorem lt_of_fault?_eq_none {lines : List String} (h : fault? lines = none) {i : Nat} :
    ∀ (d : Nat) (hi : i + d + 1 < lines.length), lines[i] < lines[i + d + 1] := by
  intro d
  induction d with
  | zero => intro hi; exact step_of_fault?_eq_none h hi
  | succ d ih =>
    intro hi
    exact String.lt_trans (ih (by omega)) (step_of_fault?_eq_none h hi)

/-- Of 2048 lines that are words, each greater than the one before it, no rule is broken. -/
theorem fault?_eq_none {lines : List String} (hlength : lines.length = size)
    (hwords : ∀ line ∈ lines, IsWord line)
    (hsteps : ∀ (i : Nat) (hi : i + 1 < lines.length), lines[i] < lines[i + 1]) :
    fault? lines = none := by
  have hword : firstNonWord? lines = none := by
    simp only [firstNonWord?, List.findIdx?_eq_none_iff]
    intro line hline
    simpa using hwords line hline
  have hdescent : firstDescent? lines = none := by
    simp only [firstDescent?, Option.map_eq_none_iff, List.findIdx?_eq_none_iff]
    intro pair hpair
    obtain ⟨i, hi, rfl⟩ := List.getElem_of_mem hpair
    simp only [List.length_zip, List.length_tail] at hi
    simpa using hsteps i (by omega)
  rw [fault?, if_neg (not_not_intro hlength), hword, hdescent]
  rfl

/-- The list of lines that break no rule. -/
def ofFaultless (lines : List String) (h : fault? lines = none) : WordList where
  words := ⟨lines.toArray, length_of_fault?_eq_none h⟩
  isWord i := isWord_of_fault?_eq_none h _ (by simp [Vector.get])
  ascending i j hij := by
    have hlt : i.val < j.val := hij
    obtain ⟨d, hd⟩ : ∃ d, j.val = i.val + d + 1 := ⟨j.val - i.val - 1, by omega⟩
    have hlen := length_of_fault?_eq_none h
    have := lt_of_fault?_eq_none h (i := i) d (by omega)
    simpa [Vector.get, hd] using this

/-- The list of a sequence of lines, or the first rule that they break. -/
def ofWords (lines : List String) : Except Fault WordList :=
  match h : fault? lines with
  | some fault => .error fault
  | none => .ok (ofFaultless lines h)

/-- The list that a text holds, one word to a line. -/
def ofText (text : String) : Except Fault WordList := ofWords (Text.lines text)

/-- A list made of lines has these lines for its words. -/
theorem toList_ofFaultless (lines : List String) (h : fault? lines = none) :
    (ofFaultless lines h).toList = lines := rfl

theorem ofWords_of_fault?_eq_none {lines : List String} (h : fault? lines = none) :
    ofWords lines = .ok (ofFaultless lines h) := by
  unfold ofWords
  split
  · rename_i fault hfault
    cases h.symm.trans hfault
  · rfl

theorem toList_eq_ofFn : list.toList = List.ofFn list.word := by
  apply List.ext_getElem
  · rw [List.length_ofFn]
    exact list.words.size_toArray
  · intro i _ _
    rw [List.getElem_ofFn]
    rfl

/-- The words of a list break no rule. -/
theorem fault?_toList : fault? list.toList = none := by
  rw [toList_eq_ofFn]
  apply fault?_eq_none List.length_ofFn
  · intro line hline
    obtain ⟨i, rfl⟩ := List.mem_ofFn.mp hline
    exact list.isWord i
  · intro i hi
    rw [List.getElem_ofFn, List.getElem_ofFn]
    exact list.word_lt_word (Nat.lt_succ_self i)

/-- **A list is had from its words,** and from no other lines. -/
theorem ofWords_eq_ok_iff {lines : List String} :
    ofWords lines = .ok list ↔ lines = list.toList := by
  constructor
  · intro h
    unfold ofWords at h
    split at h
    · cases h
    · rename_i hfault
      rw [← Except.ok.inj h, toList_ofFaultless]
  · intro h
    have hfault : fault? lines = none := h ▸ list.fault?_toList
    rw [ofWords_of_fault?_eq_none hfault, Except.ok.injEq]
    apply ext
    apply Vector.toList_inj.mp
    rw [← toList, toList_ofFaultless, h]
    rfl

end WordList

end SeedPhrase
