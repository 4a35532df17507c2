import Mathlib.Data.List.OfFn
import SeedPhrase.Text.Written
import SeedPhrase.WordList.Codes

/-!
# Which texts hold a word list

A text is read as a word list by taking its lines and looking for a fault in them.  The texts in
which none is found are described here without any reading: they are 2048 words that ascend, each
with a line end behind it, of either kind, which only the last word may lack.  As the lines are
what is judged, the kind of the ends never matters, and whatever else stands in a text is part of a
line and makes a fault there.

* `ofText_eq_ok_iff` — a list is read from a text that has its words for lines;
* `ofText_eq_ok_iff_written` — such a text is the words with their ends;
* `lines_of_ofText`, `mem_of_ofText`, `feed_after_return_of_ofText` — what its lines and its
  characters are;
* `ofText_accepts_grammar` — the texts that are accepted, and what no text is accepted with.
-/

namespace SeedPhrase.WordList

variable {text : String} {list : WordList}

/-- **Words that ascend are a list.** -/
theorem exists_word_eq {word : Index → String} (hword : ∀ i, IsWord (word i))
    (hascend : ∀ i j, i < j → word i < word j) : ∃ list : WordList, list.word = word := by
  have hget : ∀ i : Index, (Vector.ofFn word).get i = word i := fun i => Vector.getElem_ofFn i.isLt
  refine ⟨⟨.ofFn word, ?_, ?_⟩, funext hget⟩
  · intro i
    rw [hget]
    exact hword i
  · intro i j h
    rw [hget, hget]
    exact hascend i j h

theorem ofText_eq_ok_iff : ofText text = .ok list ↔ Text.lines text = list.toList :=
  list.ofWords_eq_ok_iff

/-- **A list is read from its words,** each with an end of either kind, which the last may lack. -/
theorem ofText_eq_ok_iff_written :
    ofText text = .ok list ↔
      ∃ lineEnd : Index → Text.LineEnd, (∀ i, lineEnd i = .missing → i.val = 2047) ∧
        text = String.join (List.ofFn fun i => list.word i ++ (lineEnd i).text) := by
  have hlines := @Text.lines_eq_ofFn_iff size list.word text (fun i => (list.isWord i).1)
    (fun i => (list.isWord i).notMem (by decide))
    (fun i hreturn => (list.isWord i).notMem (by decide) (List.mem_of_getLast? hreturn))
  have hlast : ∀ i : Index, i.val + 1 = size ↔ i.val = 2047 := fun i => Nat.succ_inj
  simp only [hlast] at hlines
  rw [ofText_eq_ok_iff, toList_eq_ofFn, hlines]

section Accepted

variable (h : ofText text = .ok list)

include h

/-- The lines of a text that holds a list are words, and their bytes ascend. -/
theorem lines_of_ofText :
    (∀ line ∈ Text.lines text, IsWord line) ∧
      (Text.lines text).Pairwise fun earlier later => codes earlier < codes later := by
  rw [ofText_eq_ok_iff.mp h, toList_eq_ofFn, List.pairwise_ofFn]
  constructor
  · intro line hline
    obtain ⟨i, rfl⟩ := List.mem_ofFn.mp hline
    exact list.isWord i
  · intro i j hij
    exact (codes_lt_codes_iff (list.isWord i) (list.isWord j)).mpr (list.word_lt_word hij)

/-- Such a text is words, written. -/
theorem exists_rows_of_ofText :
    ∃ rows, Text.written rows = text ∧ ∀ row ∈ rows, IsWord row.content := by
  obtain ⟨rows, _, htext, hcontent⟩ := Text.exists_written text
  refine ⟨rows, htext, fun row hrow => (lines_of_ofText h).1 _ ?_⟩
  rw [← hcontent]
  exact List.mem_map_of_mem hrow

/-- It has letters and line ends in it, and nothing else. -/
theorem mem_of_ofText {c : Char} (hc : c ∈ text.toList) :
    ('a' ≤ c ∧ c ≤ 'z') ∨ c = '\r' ∨ c = '\n' := by
  obtain ⟨rows, htext, hwords⟩ := exists_rows_of_ofText h
  rw [← htext] at hc
  obtain ⟨row, hrow, hline | hend⟩ := Text.mem_written.mp hc
  · exact .inl ((hwords row hrow).2 c hline)
  · exact .inr (Text.LineEnd.eq_of_mem_text hend)

/-- A carriage return in it has a line feed behind it. -/
theorem feed_after_return_of_ofText {before after : List Char}
    (hreturn : text.toList = before ++ '\r' :: after) : after.head? = some '\n' := by
  obtain ⟨rows, htext, hwords⟩ := exists_rows_of_ofText h
  rw [← htext] at hreturn
  exact Text.feed_after_return (fun row hrow => (hwords row hrow).notMem (by decide)) hreturn

end Accepted

/-- **The texts of word lists.**  Words are read from a text exactly when each is a word, their
bytes ascend, and the text is these words with a line end behind each, a line feed with or without
a carriage return in front of it, which only the last one may lack.  The kinds of the ends do not
matter for any text, nor does it matter whether there is one behind the last line.  In a text that
is accepted there are no other characters than letters and line ends, no carriage return without a
line feed, no line that is empty or otherwise no word, and none that is not greater than all lines
before it. -/
theorem ofText_accepts_grammar :
    (∀ (text : String) (word : Index → String),
      (∃ list, ofText text = .ok list ∧ list.word = word) ↔
        (∀ i, IsWord (word i)) ∧ (∀ i j, i < j → codes (word i) < codes (word j)) ∧
        ∃ lineEnd : Index → Text.LineEnd, (∀ i, lineEnd i = .missing → i.val = 2047) ∧
          text = String.join (List.ofFn fun i => word i ++ (lineEnd i).text)) ∧
    (∀ rows others : List Text.WrittenLine, Text.Legible rows → Text.Legible others →
      rows.map Text.WrittenLine.content = others.map Text.WrittenLine.content →
      ofText (Text.written rows) = ofText (Text.written others)) ∧
    ∀ (text : String) (list : WordList), ofText text = .ok list →
      (∀ c ∈ text.toList, ('a' ≤ c ∧ c ≤ 'z') ∨ c = '\r' ∨ c = '\n') ∧
      (∀ before after, text.toList = before ++ '\r' :: after → after.head? = some '\n') ∧
      (∀ line ∈ Text.lines text, IsWord line) ∧
      (Text.lines text).Pairwise fun earlier later => codes earlier < codes later := by
  refine ⟨?_, ?_, ?_⟩
  · intro text word
    constructor
    · intro ⟨list, hlist, hword⟩
      subst hword
      refine ⟨list.isWord, ?_, ofText_eq_ok_iff_written.mp hlist⟩
      intro i j hij
      exact (codes_lt_codes_iff (list.isWord i) (list.isWord j)).mpr (list.word_lt_word hij)
    · intro ⟨hwords, hascend, hwritten⟩
      obtain ⟨list, rfl⟩ := exists_word_eq hwords fun i j hij =>
        (codes_lt_codes_iff (hwords i) (hwords j)).mp (hascend i j hij)
      exact ⟨list, ofText_eq_ok_iff_written.mpr hwritten, rfl⟩
  · intro rows others hrows hothers hsame
    rw [ofText, ofText, Text.lines_written hrows, Text.lines_written hothers, hsame]
  · intro text list hlist
    exact ⟨fun c hc => mem_of_ofText hlist hc,
      fun before after hreturn => feed_after_return_of_ofText hlist hreturn,
      lines_of_ofText hlist⟩

end SeedPhrase.WordList
