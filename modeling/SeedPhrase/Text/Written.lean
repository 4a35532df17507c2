import SeedPhrase.Text.Lines

/-!
# Lines as they are written

A text is its lines, and behind each of them what ends it: a line feed, a carriage return and a
line feed, or nothing where the text stops without an end.  Reading takes the ends away, so lines
that are written down are read back under whatever ends they stand, and every text can be thought
of as lines that were written in this way.

* `LineEnd`, `WrittenLine`, `written` — lines with their ends, and the text that they make;
* `Ended`, `Legible` — where an end may be missing, and which lines can be told apart again;
* `lines_written`, `lines_join` — what was written is read back;
* `exists_written`, `lines_eq_ofFn_iff` — every text was written, and which texts have given lines;
* `mem_written`, `feed_after_return` — the characters of a text, and where a carriage return is
  among them.
-/

namespace SeedPhrase.Text

/-- What stands behind a line. -/
inductive LineEnd
  /-- A line feed. -/
  | feed
  /-- A carriage return and a line feed. -/
  | returnFeed
  /-- Nothing, for the text stops there. -/
  | missing
deriving DecidableEq, Repr

/-- The characters of a line end. -/
def LineEnd.text : LineEnd → String
  | feed => "\n"
  | returnFeed => "\r\n"
  | missing => ""

/-- Line ends are made of these two characters. -/
theorem LineEnd.eq_of_mem_text {lineEnd : LineEnd} {c : Char} (h : c ∈ lineEnd.text.toList) :
    c = '\r' ∨ c = '\n' := by
  cases lineEnd with
  | feed => exact .inr (List.mem_singleton.mp h)
  | returnFeed => simpa [text] using h
  | missing => cases h

/-- A line as it stands in a text. -/
structure WrittenLine where
  content : String
  lineEnd : LineEnd
deriving DecidableEq, Repr

/-- Lines with their ends, one behind the other. -/
def written (rows : List WrittenLine) : String :=
  String.join (rows.map fun row => row.content ++ row.lineEnd.text)

@[simp] theorem written_nil : written [] = "" := rfl

theorem written_cons (row : WrittenLine) (rows : List WrittenLine) :
    written (row :: rows) = row.content ++ row.lineEnd.text ++ written rows := by
  rw [written, List.map_cons, String.join_cons, written]

/-- Whether every line has an end.  The last one may do without, if it is not empty: otherwise it
could not be seen. -/
def Ended : List WrittenLine → Prop
  | [] => True
  | [row] => row.lineEnd = .missing → row.content ≠ ""
  | row :: rows => row.lineEnd ≠ .missing ∧ Ended rows

/-- A line that has an end can stand in front of others. -/
theorem Ended.cons {row : WrittenLine} {rows : List WrittenLine} (h : row.lineEnd ≠ .missing)
    (hrows : Ended rows) : Ended (row :: rows) := by
  cases rows with
  | nil => exact fun hmissing => absurd hmissing h
  | cons next rest => exact ⟨h, hrows⟩

/-- An end is missing at most behind the last line. -/
theorem ended_iff {rows : List WrittenLine} :
    Ended rows ↔ ∀ (i : Nat) (hi : i < rows.length),
      rows[i].lineEnd = .missing → i + 1 = rows.length ∧ rows[i].content ≠ "" := by
  fun_induction Ended rows with
  | case1 => simp
  | case2 row =>
    constructor
    · intro h i hi hmissing
      obtain rfl : i = 0 := by simpa using hi
      exact ⟨rfl, h hmissing⟩
    · intro h hmissing
      exact (h 0 (by simp) hmissing).2
  | case3 row rows hrows ih =>
    rw [ih]
    constructor
    · intro ⟨hend, h⟩ i hi hmissing
      cases i with
      | zero => exact absurd hmissing hend
      | succ i =>
        obtain ⟨hlast, hne⟩ := h i (by simpa using hi) hmissing
        exact ⟨by simpa using hlast, hne⟩
    · intro h
      constructor
      · intro hmissing
        exact hrows (by simpa using (h 0 (by simp) hmissing).1)
      · intro i hi hmissing
        obtain ⟨hlast, hne⟩ := h (i + 1) (by simpa using hi) hmissing
        exact ⟨by simpa using hlast, hne⟩

/-- Lines that can be told apart again: each has its end, and nothing in a line can be taken for
an end or for a part of one. -/
structure Legible (rows : List WrittenLine) : Prop where
  ended : Ended rows
  noFeed : ∀ row ∈ rows, '\n' ∉ row.content.toList
  noReturn : ∀ row ∈ rows, row.content.toList.getLast? ≠ some '\r'

/-- A line in front of a text is its first line, under either kind of end. -/
theorem lines_append_lineEnd {line : String} {lineEnd : LineEnd} (hend : lineEnd ≠ .missing)
    (hfeed : '\n' ∉ line.toList) (hreturn : line.toList.getLast? ≠ some '\r') (rest : String) :
    lines (line ++ lineEnd.text ++ rest) = line :: lines rest := by
  cases lineEnd with
  | feed =>
    have htext : line ++ "\n" ++ rest = String.ofList (line.toList ++ '\n' :: rest.toList) := by
      apply String.toList_inj.mp
      simp
    rw [LineEnd.text, htext, lines_append_end hfeed, chomp_of_getLast?_ne hreturn,
      String.ofList_toList, String.ofList_toList]
  | returnFeed =>
    have htext : line ++ "\r\n" ++ rest =
        String.ofList ((line.toList ++ ['\r']) ++ '\n' :: rest.toList) := by
      apply String.toList_inj.mp
      simp
    have hfeed' : '\n' ∉ line.toList ++ ['\r'] := by simpa using hfeed
    rw [LineEnd.text, htext, lines_append_end hfeed', chomp_append_cr, String.ofList_toList,
      String.ofList_toList]
  | missing => exact absurd rfl hend

/-- **Lines that were written are read back,** under whatever ends they stand. -/
theorem lines_written {rows : List WrittenLine} (h : Legible rows) :
    lines (written rows) = rows.map WrittenLine.content := by
  obtain ⟨hended, hfeed, hreturn⟩ := h
  fun_induction Ended rows with
  | case1 => exact lines_empty
  | case2 row =>
    have hfeed := hfeed row List.mem_cons_self
    rw [written_cons]
    by_cases hend : row.lineEnd = .missing
    · rw [hend, LineEnd.text, written_nil, String.append_empty, String.append_empty]
      exact lines_of_open (hended hend) hfeed
    · rw [lines_append_lineEnd hend hfeed (hreturn row List.mem_cons_self)]
      exact congrArg _ lines_empty
  | case3 row rows _ ih =>
    rw [written_cons, lines_append_lineEnd hended.1 (hfeed row List.mem_cons_self)
        (hreturn row List.mem_cons_self),
      ih hended.2 (fun other hother => hfeed other (List.mem_cons_of_mem _ hother))
        (fun other hother => hreturn other (List.mem_cons_of_mem _ hother)),
      List.map_cons]

/-- Lines that stand each under a line feed are the lines of their text. -/
theorem lines_join {contents : List String}
    (h : ∀ line ∈ contents, '\n' ∉ line.toList ∧ line.toList.getLast? ≠ some '\r') :
    lines (String.join (contents.map (· ++ "\n"))) = contents := by
  have hended : Ended (contents.map fun line => ⟨line, .feed⟩) := by
    rw [ended_iff]
    intro i hi hmissing
    rw [List.getElem_map] at hmissing
    cases hmissing
  have hlegible : Legible (contents.map fun line => ⟨line, .feed⟩) :=
    ⟨hended, by simpa using fun line hline => (h line hline).1,
      by simpa using fun line hline => (h line hline).2⟩
  simpa [written, Function.comp_def, LineEnd.text] using lines_written hlegible

/-- The end of a line, from what stands in front of the line feed. -/
def endOf (piece : List Char) : LineEnd :=
  if piece.getLast? = some '\r' then .returnFeed else .feed

theorem endOf_ne_missing (piece : List Char) : endOf piece ≠ .missing := by
  unfold endOf
  split <;> simp

/-- What is taken off a line is its end. -/
theorem chomp_append_endOf (piece : List Char) :
    chomp piece ++ (endOf piece).text.toList = piece ++ ['\n'] := by
  unfold chomp endOf
  split
  · rename_i hreturn
    obtain ⟨front, rfl⟩ := List.getLast?_eq_some_iff.mp hreturn
    simp [LineEnd.text]
  · rfl

/-- Pieces between line feeds are lines that were written. -/
theorem exists_written_of_pieces {pieces : List (List Char)} (hne : pieces ≠ []) :
    ∃ rows, Ended rows ∧ (written rows).toList = ['\n'].intercalate pieces ∧
      rows.map WrittenLine.content = (linesOfPieces pieces).map String.ofList := by
  induction pieces with
  | nil => exact absurd rfl hne
  | cons piece pieces ih =>
    cases pieces with
    | nil =>
      by_cases hpiece : piece = []
      · exact ⟨[], trivial, by simp [hpiece], by simp [linesOfPieces, openLine, hpiece]⟩
      · refine ⟨[⟨String.ofList piece, .missing⟩], fun _ => by simpa using hpiece, ?_, ?_⟩
        · simp [written, LineEnd.text]
        · simp [linesOfPieces, openLine, hpiece]
    | cons next rest =>
      obtain ⟨rows, hended, htext, hrows⟩ := ih (List.cons_ne_nil next rest)
      refine ⟨⟨String.ofList (chomp piece), endOf piece⟩ :: rows,
        .cons (endOf_ne_missing piece) hended, ?_, ?_⟩
      · rw [written_cons, String.toList_append, String.toList_append, String.toList_ofList,
          chomp_append_endOf, htext]
        simp [List.intercalate]
      · rw [List.map_cons, hrows, linesOfPieces_cons (List.cons_ne_nil next rest) piece,
          List.map_cons]

/-- **Every text was written,** and its lines are those that were written. -/
theorem exists_written (text : String) :
    ∃ rows, Ended rows ∧ written rows = text ∧ rows.map WrittenLine.content = lines text := by
  obtain ⟨rows, hended, htext, hrows⟩ :=
    exists_written_of_pieces (List.splitOn_ne_nil '\n' text.toList)
  rw [List.intercalate_splitOn] at htext
  exact ⟨rows, hended, String.toList_inj.mp htext, hrows⟩

section Numbered

variable {n : Nat} {content : Fin n → String}

theorem written_ofFn (lineEnd : Fin n → LineEnd) :
    written (List.ofFn fun i => ⟨content i, lineEnd i⟩) =
      String.join (List.ofFn fun i => content i ++ (lineEnd i).text) := by
  rw [written, List.map_ofFn]
  rfl

theorem ended_ofFn_iff (hne : ∀ i, content i ≠ "") {lineEnd : Fin n → LineEnd} :
    Ended (List.ofFn fun i => ⟨content i, lineEnd i⟩) ↔
      ∀ i, lineEnd i = .missing → i.val + 1 = n := by
  rw [ended_iff]
  constructor
  · intro h i hmissing
    have hlast := (h i.val (by simp) (by simpa using hmissing)).1
    rwa [List.length_ofFn] at hlast
  · intro h i hi hmissing
    rw [List.length_ofFn] at hi ⊢
    rw [List.getElem_ofFn] at hmissing ⊢
    exact ⟨h ⟨i, hi⟩ hmissing, hne ⟨i, hi⟩⟩

/-- Lines whose contents are known have only their ends left to choose. -/
theorem eq_ofFn_of_content {rows : List WrittenLine}
    (h : rows.map WrittenLine.content = List.ofFn content) :
    ∃ lineEnd : Fin n → LineEnd, rows = List.ofFn fun i => ⟨content i, lineEnd i⟩ := by
  have hlength : rows.length = n := by
    rw [← List.length_map (f := WrittenLine.content), h, List.length_ofFn]
  subst hlength
  refine ⟨fun i => rows[i.val].lineEnd, ?_⟩
  apply List.ext_getElem
  · rw [List.length_ofFn]
  · intro i hi _
    have hcontent : rows[i].content = content ⟨i, hi⟩ := by
      have hget := List.getElem_of_eq h (by simpa using hi)
      rwa [List.getElem_map, List.getElem_ofFn] at hget
    rw [List.getElem_ofFn, ← hcontent]

/-- **Which texts have given lines:** those in which they are written, each under an end of either
kind, which the last one may lack. -/
theorem lines_eq_ofFn_iff {text : String} (hne : ∀ i, content i ≠ "")
    (hfeed : ∀ i, '\n' ∉ (content i).toList)
    (hreturn : ∀ i, (content i).toList.getLast? ≠ some '\r') :
    lines text = List.ofFn content ↔
      ∃ lineEnd : Fin n → LineEnd, (∀ i, lineEnd i = .missing → i.val + 1 = n) ∧
        text = String.join (List.ofFn fun i => content i ++ (lineEnd i).text) := by
  constructor
  · intro h
    obtain ⟨rows, hended, htext, hrows⟩ := exists_written text
    obtain ⟨lineEnd, rfl⟩ := eq_ofFn_of_content (hrows.trans h)
    exact ⟨lineEnd, (ended_ofFn_iff hne).mp hended, htext ▸ written_ofFn lineEnd⟩
  · intro ⟨lineEnd, hended, htext⟩
    have hlegible : Legible (List.ofFn fun i => ⟨content i, lineEnd i⟩) := by
      refine ⟨(ended_ofFn_iff hne).mpr hended, ?_, ?_⟩
      · intro row hrow
        obtain ⟨i, rfl⟩ := List.mem_ofFn.mp hrow
        exact hfeed i
      · intro row hrow
        obtain ⟨i, rfl⟩ := List.mem_ofFn.mp hrow
        exact hreturn i
    rw [htext, ← written_ofFn, lines_written hlegible, List.map_ofFn]
    rfl

end Numbered

/-- A character of a text is one of a line, or of its end. -/
theorem mem_written {rows : List WrittenLine} {c : Char} :
    c ∈ (written rows).toList ↔
      ∃ row ∈ rows, c ∈ row.content.toList ∨ c ∈ row.lineEnd.text.toList := by
  rw [written, String.toList_join, List.flatMap_map, List.mem_flatMap]
  simp only [String.toList_append, List.mem_append]

/-- A carriage return behind characters that are none stands in what follows them. -/
theorem exists_return_behind {front rest before after : List Char} (hfront : '\r' ∉ front)
    (h : front ++ rest = before ++ '\r' :: after) : ∃ skipped, rest = skipped ++ '\r' :: after := by
  rcases List.append_eq_append_iff.mp h with ⟨skipped, _, hrest⟩ | ⟨back, hback, hrest⟩
  · exact ⟨skipped, hrest⟩
  · cases back with
    | nil => exact ⟨[], hrest.symm⟩
    | cons c back =>
      obtain ⟨rfl, _⟩ := List.cons.inj hrest
      exact absurd (hback ▸ by simp) hfront

/-- **A carriage return belongs to an end** where none is in a line: a line feed follows it. -/
theorem feed_after_return {rows : List WrittenLine} (h : ∀ row ∈ rows, '\r' ∉ row.content.toList)
    {before after : List Char} (htext : (written rows).toList = before ++ '\r' :: after) :
    after.head? = some '\n' := by
  induction rows generalizing before with
  | nil => simp at htext
  | cons row rows ih =>
    have hrow := h row List.mem_cons_self
    have hrest : ∀ skipped, (written rows).toList = skipped ++ '\r' :: after →
        after.head? = some '\n' :=
      fun skipped => ih fun other hother => h other (List.mem_cons_of_mem _ hother)
    rw [written_cons, String.append_assoc, String.toList_append, String.toList_append] at htext
    obtain ⟨skipped, hend⟩ := exists_return_behind hrow htext
    cases hlineEnd : row.lineEnd with
    | feed =>
      rw [hlineEnd] at hend
      obtain ⟨skipped, hrows⟩ := exists_return_behind (by decide) hend
      exact hrest skipped hrows
    | returnFeed =>
      rw [hlineEnd] at hend
      cases skipped with
      | nil =>
        obtain ⟨_, rfl⟩ := List.cons.inj hend
        rfl
      | cons c skipped =>
        have hfeed : ['\n'] ++ (written rows).toList = skipped ++ '\r' :: after :=
          (List.cons.inj hend).2
        obtain ⟨skipped, hrows⟩ := exists_return_behind (by decide) hfeed
        exact hrest skipped hrows
    | missing =>
      rw [hlineEnd] at hend
      exact hrest skipped hend

end SeedPhrase.Text
