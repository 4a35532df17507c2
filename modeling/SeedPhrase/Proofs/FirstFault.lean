import Mathlib.Data.List.Chain
import SeedPhrase.WordList.Codes

/-!
# The fault that is told

A text may break the rules for word lists in many places, and only one of them is told.  It is the
number of lines if that is wrong, however bad the lines are; or else the first line that is no
word, even behind lines that are out of order; or else the first line that is not greater than the
one before it.  Lines are numbered from zero in both cases, so the lines in front of the numbered
one are without the fault that is told.

* `firstNonWord?_eq_some_iff`, `firstDescent?_eq_some_iff_codes` — which line each search comes
  upon, by the bytes of the lines;
* `pairwise_take_of_steps` — lines that ascend from each to the next ascend;
* `fault?_eq_some_iff` — which of the faults is found;
* `ofText_eq_error_iff`, `ofText_tells_first_fault` — what is told about a text that is rejected.
-/

namespace SeedPhrase.WordList

/-- A string is no word if it is empty, or for a byte that is not one of the letters. -/
theorem not_isWord_iff_codes {w : String} :
    ¬ IsWord w ↔ w = "" ∨ ∃ n ∈ codes w, n < 97 ∨ 122 < n := by
  rw [isWord_iff_codes, Classical.not_and_iff_not_or_not, Classical.not_not, Classical.not_forall]
  simp only [Classical.not_imp, Classical.not_and_iff_not_or_not, Nat.not_le]

/-- A word that is not greater has bytes that do not come after. -/
theorem codes_le_codes_iff {v w : String} (hv : IsWord v) (hw : IsWord w) :
    codes w ≤ codes v ↔ ¬ v < w := by
  rw [← codes_lt_codes_iff hv hw, not_lt]

section Search

variable {lines : List String} {i : Nat}

theorem firstNonWord?_eq_none_iff :
    firstNonWord? lines = none ↔
      ∀ line ∈ lines, line ≠ "" ∧ ∀ n ∈ codes line, 97 ≤ n ∧ n ≤ 122 := by
  simp [firstNonWord?, isWord_iff_codes]

/-- **The first line that is no word,** by its bytes and those of the lines in front of it. -/
theorem firstNonWord?_eq_some_iff :
    firstNonWord? lines = some i ↔
      ∃ hi : i < lines.length, (lines[i] = "" ∨ ∃ n ∈ codes lines[i], n < 97 ∨ 122 < n) ∧
        ∀ (j : Nat) (hj : j < i), lines[j] ≠ "" ∧ ∀ n ∈ codes lines[j], 97 ≤ n ∧ n ≤ 122 := by
  simp only [firstNonWord?, List.findIdx?_eq_some_iff_getElem, decide_eq_true_eq, Classical.not_not]
  exact exists_congr fun hi =>
    and_congr not_isWord_iff_codes (forall₂_congr fun j hj => isWord_iff_codes)

/-- What is searched are pairs of neighbours.  A pair has the number of its first line, and what
is told is the number of its second. -/
theorem firstDescent?_eq_some_iff :
    firstDescent? lines = some i ↔
      ∃ hi : i < lines.length, 0 < i ∧ ¬ lines[i - 1] < lines[i] ∧
        ∀ (j : Nat) (hj : j < i), 0 < j → lines[j - 1] < lines[j] := by
  have hpairs : (lines.zip lines.tail).length = lines.length - 1 := by
    rw [List.length_zip, List.length_tail]
    omega
  simp only [firstDescent?, Option.map_eq_some_iff, List.findIdx?_eq_some_iff_getElem,
    List.getElem_zip, List.getElem_tail, decide_eq_true_eq, Classical.not_not]
  constructor
  · rintro ⟨k, ⟨hk, hdescent, hbefore⟩, rfl⟩
    refine ⟨by omega, Nat.succ_pos k, hdescent, ?_⟩
    intro j hj hpos
    obtain ⟨m, rfl⟩ : ∃ m, j = m + 1 := ⟨j - 1, by omega⟩
    exact hbefore m (by omega)
  · rintro ⟨hi, hpos, hdescent, hbefore⟩
    obtain ⟨k, rfl⟩ : ∃ k, i = k + 1 := ⟨i - 1, by omega⟩
    refine ⟨k, ⟨by omega, hdescent, ?_⟩, rfl⟩
    intro j hj
    exact hbefore (j + 1) (by omega) (Nat.succ_pos j)

/-- **The first word that does not ascend,** by its bytes and those of the words in front of it. -/
theorem firstDescent?_eq_some_iff_codes (hwords : ∀ line ∈ lines, IsWord line) :
    firstDescent? lines = some i ↔
      ∃ hi : i < lines.length, 0 < i ∧ codes lines[i] ≤ codes lines[i - 1] ∧
        ∀ (j : Nat) (hj : j < i), 0 < j → ¬ codes lines[j] ≤ codes lines[j - 1] := by
  have hbytes : ∀ (j : Nat) (hj : j < lines.length),
      codes lines[j] ≤ codes lines[j - 1] ↔ ¬ lines[j - 1] < lines[j] := fun j hj =>
    codes_le_codes_iff (hwords _ (List.getElem_mem _)) (hwords _ (List.getElem_mem hj))
  rw [firstDescent?_eq_some_iff]
  refine exists_congr fun hi => and_congr_right fun _ => and_congr (hbytes i hi).symm ?_
  refine forall₃_congr fun j hj _ => ?_
  rw [hbytes j (Nat.lt_trans hj hi), Classical.not_not]

/-- Lines that ascend from each to the next ascend. -/
theorem pairwise_take_of_steps (hi : i < lines.length)
    (hsteps : ∀ (j : Nat) (hj : j < i), 0 < j → ¬ codes lines[j] ≤ codes lines[j - 1]) :
    (lines.take i).Pairwise fun earlier later => codes earlier < codes later := by
  have : Trans (fun v w : String => codes v < codes w) (fun v w => codes v < codes w)
    (fun v w => codes v < codes w) := ⟨lt_trans⟩
  rw [← List.isChain_iff_pairwise, List.isChain_iff_getElem]
  intro j hj
  rw [List.length_take] at hj
  rw [List.getElem_take, List.getElem_take]
  exact not_le.mp (hsteps (j + 1) (by omega) (Nat.succ_pos j))

/-- **Which fault is found.**  Each of the three is looked for only where those before it are not
there. -/
theorem fault?_eq_some_iff {fault : Fault} :
    fault? lines = some fault ↔
      (lines.length ≠ size ∧ fault = .wrongCount lines.length) ∨
      (lines.length = size ∧ ∃ i, firstNonWord? lines = some i ∧ fault = .notWord i) ∨
      (lines.length = size ∧ firstNonWord? lines = none ∧
        ∃ i, firstDescent? lines = some i ∧ fault = .outOfOrder i) := by
  unfold fault?
  by_cases hcount : lines.length = size
  · rw [if_neg (not_not_intro hcount)]
    cases hword : firstNonWord? lines with
    | some i => simp [hcount, eq_comm]
    | none => simp [hcount, eq_comm (a := fault)]
  · simp [hcount, eq_comm]

end Search

theorem ofText_eq_error_iff {text : String} {fault : Fault} :
    ofText text = .error fault ↔ fault? (Text.lines text) = some fault := by
  unfold ofText ofWords
  split
  · rename_i found hfound
    rw [hfound, Except.error.injEq, Option.some.injEq]
  · rename_i hnone
    simp [hnone]

/-- The errors that texts are rejected with are those of the faults in their lines. -/
theorem mapError_ofText_eq_error_iff {text : String} {error : Error} :
    (ofText text).mapError Fault.toError = .error error ↔
      ∃ fault, fault? (Text.lines text) = some fault ∧ fault.toError = error := by
  simp only [← ofText_eq_error_iff]
  cases ofText text with
  | ok list => simp [Except.mapError]
  | error fault => simp [Except.mapError]

/-- **The first fault is told.**  A text is rejected with one of three errors.  If it does not have
2048 lines it is their number, and nothing in the lines matters.  If it has, and some line is empty
or has a byte that is not one of the letters, whose bytes are those from 97 to 122, it is the first
such line, and their order does not matter.  Otherwise it is the first line whose bytes do not come
after those of the line before it, and so the lines in front of it ascend. -/
theorem ofText_tells_first_fault (text : String) (error : Error) :
    let lines := Text.lines text
    (ofText text).mapError Fault.toError = .error error ↔
      (lines.length ≠ 2048 ∧
        error = .invalidWordList ("expected 2048 words, got " ++ toString lines.length)) ∨
      (lines.length = 2048 ∧ ∃ (i : Nat) (hi : i < lines.length),
        (lines[i] = "" ∨ ∃ n ∈ codes lines[i], n < 97 ∨ 122 < n) ∧
        (∀ (j : Nat) (hj : j < i), lines[j] ≠ "" ∧ ∀ n ∈ codes lines[j], 97 ≤ n ∧ n ≤ 122) ∧
        error = .invalidWordList
          ("line " ++ toString i ++ " is not a lowercase ASCII word")) ∨
      (lines.length = 2048 ∧
        (∀ line ∈ lines, line ≠ "" ∧ ∀ n ∈ codes line, 97 ≤ n ∧ n ≤ 122) ∧
        ∃ (i : Nat) (hi : i < lines.length), 0 < i ∧ codes lines[i] ≤ codes lines[i - 1] ∧
          (∀ (j : Nat) (hj : j < i), 0 < j → ¬ codes lines[j] ≤ codes lines[j - 1]) ∧
          ((lines.take i).Pairwise fun earlier later => codes earlier < codes later) ∧
          error = .invalidWordList ("words out of order at line " ++ toString i)) := by
  intro lines
  rw [mapError_ofText_eq_error_iff]
  constructor
  · rintro ⟨fault, hfault, rfl⟩
    obtain ⟨hcount, rfl⟩ | ⟨hcount, i, hfound, rfl⟩ | ⟨hcount, hnone, i, hfound, rfl⟩ :=
      fault?_eq_some_iff.mp hfault
    · exact .inl ⟨hcount, rfl⟩
    · obtain ⟨hi, hline, hbefore⟩ := firstNonWord?_eq_some_iff.mp hfound
      exact .inr (.inl ⟨hcount, i, hi, hline, hbefore, rfl⟩)
    · have hletters := firstNonWord?_eq_none_iff.mp hnone
      obtain ⟨hi, hpos, hdescent, hbefore⟩ := (firstDescent?_eq_some_iff_codes
        fun line hline => isWord_iff_codes.mpr (hletters line hline)).mp hfound
      exact .inr (.inr ⟨hcount, hletters, i, hi, hpos, hdescent, hbefore,
        pairwise_take_of_steps hi hbefore, rfl⟩)
  · rintro (⟨hcount, rfl⟩ | ⟨hcount, i, hi, hline, hbefore, rfl⟩ |
      ⟨hcount, hletters, i, hi, hpos, hdescent, hbefore, -, rfl⟩)
    · exact ⟨_, fault?_eq_some_iff.mpr (.inl ⟨hcount, rfl⟩), rfl⟩
    · have hfound : firstNonWord? lines = some i :=
        firstNonWord?_eq_some_iff.mpr ⟨hi, hline, hbefore⟩
      exact ⟨_, fault?_eq_some_iff.mpr (.inr (.inl ⟨hcount, i, hfound, rfl⟩)), rfl⟩
    · have hnone : firstNonWord? lines = none := firstNonWord?_eq_none_iff.mpr hletters
      have hfound : firstDescent? lines = some i := (firstDescent?_eq_some_iff_codes
        fun line hline => isWord_iff_codes.mpr (hletters line hline)).mpr
          ⟨hi, hpos, hdescent, hbefore⟩
      exact ⟨_, fault?_eq_some_iff.mpr (.inr (.inr ⟨hcount, hnone, i, hfound, rfl⟩)), rfl⟩

end SeedPhrase.WordList
