import SeedPhrase.Pattern.Course

/-!
# Marks on a course

While a text is read, marks on the course of a pattern say which of its characters have just
been read as part of a text that may fit.  A character moves all marks on at once.

* `Marks` — marks on a course;
* `Course.step` — what a character makes of them;
* `Course.Completes` — what marks have yet to read;
* `Course.Noted`, `meets_ends_iff` — where a text is complete is noted in the marks;
* `completes_step` — a step takes one character off what there was to read.
-/

namespace SeedPhrase

/-- Marks on the parts of a course. -/
inductive Marks
  /-- No marks. -/
  | idle
  /-- Marks on the characters of a row that have just been read; `complete` if the last one
  is among them. -/
  | within (complete : Bool) (bits : UInt64)
  /-- Marks on one of two parts or on both, and the gaps at which a text that they stand for
  is complete. -/
  | both (ends : GapSet) (first second : Marks)
deriving DecidableEq, Hashable, Repr

namespace Marks

/-- The gaps at which a text is complete. -/
@[inline] def ends : Marks → GapSet
  | idle => .none
  | within complete _ => if complete then .all else .none
  | both ends _ _ => ends

/-- The bits of marks on a row. -/
@[inline] def bits : Marks → UInt64
  | within _ bits => bits
  | _ => 0

/-- The marks on the first of two parts. -/
@[inline] def first : Marks → Marks
  | both _ first _ => first
  | _ => idle

/-- The marks on the second of two parts. -/
@[inline] def second : Marks → Marks
  | both _ _ second => second
  | _ => idle

/-- Marks on two parts; if there are none on either, none at all. -/
@[inline] def join (ends : GapSet) : Marks → Marks → Marks
  | idle, idle => idle
  | first, second => both ends first second

/-- Marks on a row. -/
@[inline] def onRow (row : Row) (bits : UInt64) : Marks :=
  if bits = 0 then idle else within (bits &&& row.last ≠ 0) bits

/-- How much there is to remember of marks. -/
def weight : Marks → Nat
  | idle => 1
  | within _ _ => 1
  | both _ first second => weight first + weight second + 1

/-- The bits that marks on a row are made of. -/
@[simp] theorem bits_onRow (row : Row) (bits : UInt64) : (onRow row bits).bits = bits := by
  unfold onRow
  split
  next h => exact h.symm
  next => rfl

/-- Marks on two parts hold those on the first of them. -/
@[simp] theorem first_join (ends : GapSet) (x y : Marks) : (join ends x y).first = x := by
  cases x <;> cases y <;> rfl

/-- Marks on two parts hold those on the second of them. -/
@[simp] theorem second_join (ends : GapSet) (x y : Marks) : (join ends x y).second = y := by
  cases x <;> cases y <;> rfl

/-- A text is complete on a row when the bit of the last character is set. -/
theorem ends_onRow (row : Row) (bits : UInt64) :
    (onRow row bits).ends = if bits &&& row.last ≠ 0 then .all else .none := by
  unfold onRow
  split
  next h => simp [h, ends]
  next => simp [ends]

/-- No text is complete on two parts without marks. -/
theorem ends_join {ends : GapSet} {x y : Marks} (h : x = idle → y = idle → ends = .none) :
    (join ends x y).ends = ends := by
  unfold join
  split
  next => exact (h rfl rfl).symm
  next => rfl

end Marks

namespace Course

/-- The marks on a course after the next character, which stands behind the gap `here`.  A
text may begin with it if the course is `entered`. -/
def step (c : Char) (here : GapSet) : Course → Bool → Marks → Marks
  | _, false, .idle => .idle
  | empty, _, _ => .idle
  | check _, _, _ => .idle
  | chars row, entered, marks =>
    .onRow row (((marks.bits <<< 1) ||| (if entered then 1 else 0)) &&& row.mask c)
  | maybe body, entered, marks => step c here body entered marks
  | both .inTurn _ x y, entered, marks =>
    let passed := (entered && x.passes.meets here) || marks.first.ends.meets here
    let first := step c here x entered marks.first
    let second := step c here y passed marks.second
    .join (second.ends ||| (first.ends &&& y.passes)) first second
  | both .oneOf _ x y, entered, marks =>
    let first := step c here x entered marks.first
    let second := step c here y entered marks.second
    .join (first.ends ||| second.ends) first second
  | loop _ body, entered, marks => step c here body (entered || marks.ends.meets here) marks

/-- What the texts that marks stand for have yet to read. -/
def Completes : Course → Marks → Parts
  | empty, _ => fun _ _ => False
  | check _, _ => fun _ _ => False
  | chars row, marks => fun p q => ∃ place < row.length,
      marks.bits.toBitVec.getLsbD place = true ∧ row.FitsLast (row.length - (place + 1)) p q
  | maybe body, marks => body.Completes marks
  | both .inTurn _ x y, marks =>
    .alt (.seq (x.Completes marks.first) y.Fits) (y.Completes marks.second)
  | both .oneOf _ x y, marks => .alt (x.Completes marks.first) (y.Completes marks.second)
  | loop _ body, marks => .seq (body.Completes marks) (.counted body.Fits ⟨0, none⟩)

/-- That it is rightly noted in marks where texts are complete. -/
def Noted : Course → Marks → Prop
  | empty, marks => marks = .idle
  | check _, marks => marks = .idle
  | chars row, marks => marks.ends = if marks.bits &&& row.last ≠ 0 then .all else .none
  | maybe body, marks => body.Noted marks
  | both .inTurn _ x y, marks =>
    marks.ends = marks.second.ends ||| (marks.first.ends &&& y.passes) ∧
      x.Noted marks.first ∧ y.Noted marks.second
  | both .oneOf _ x y, marks =>
    marks.ends = marks.first.ends ||| marks.second.ends ∧
      x.Noted marks.first ∧ y.Noted marks.second
  | loop _ body, marks => body.Noted marks

/-- It is rightly noted where there are no marks. -/
theorem noted_idle (course : Course) : course.Noted .idle := by
  induction course with
  | empty => rfl
  | check passes => rfl
  | chars row => simp [Noted, Marks.ends, Marks.bits]
  | maybe body ih => exact ih
  | both joint passes x y ihx ihy =>
    cases joint with
    | inTurn => exact ⟨by simp [Marks.ends, Marks.first, Marks.second, GapSet.none], ihx, ihy⟩
    | oneOf => exact ⟨by simp [Marks.ends, Marks.first, Marks.second, GapSet.none], ihx, ihy⟩
  | loop passes body ih => exact ih

/-- Without marks there is nothing to read. -/
theorem not_completes_idle (course : Course) (p q : Spot) : ¬ course.Completes .idle p q := by
  induction course generalizing p q with
  | empty => exact id
  | check passes => exact id
  | chars row => simp [Completes, Marks.bits]
  | maybe body ih => exact ih p q
  | both joint passes x y ihx ihy =>
    cases joint with
    | inTurn =>
      intro heither
      rcases heither with ⟨r, h, -⟩ | h
      · exact ihx p r h
      · exact ihy p q h
    | oneOf =>
      intro heither
      rcases heither with h | h
      · exact ihx p q h
      · exact ihy p q h
  | loop passes body ih =>
    intro hboth
    obtain ⟨r, h, -⟩ := hboth
    exact ih p r h

/-- What is yet to be read lies ahead. -/
theorem forward_completes (course : Course) (marks : Marks) :
    Parts.Forward (course.Completes marks) := by
  induction course generalizing marks with
  | empty => exact fun _ _ h => h.elim
  | check passes => exact fun _ _ h => h.elim
  | chars row => exact fun p q ⟨place, _, _, h⟩ => row.forward_fitsLast _ p q h
  | maybe body ih => exact ih marks
  | both joint passes x y ihx ihy =>
    cases joint with
    | inTurn => exact ((ihx _).seq y.forward_fits).alt (ihy _)
    | oneOf => exact (ihx _).alt (ihy _)
  | loop passes body ih => exact (ih marks).seq (body.forward_fits.counted _)

/-- The last bit of a row. -/
theorem last_eq_twoPow {row : Row} (h : row.Sound) :
    row.last.toBitVec = BitVec.twoPow 64 (row.length - 1) := by
  have hpos := h.length_pos
  have hle : row.length ≤ 64 := h.length_le
  have hmod : (row.length - 1) % 18446744073709551616 % 64 = row.length - 1 := by omega
  apply BitVec.eq_of_toNat_eq
  simp [Row.last, BitVec.toNat_twoPow, Nat.toUInt64, hmod, Nat.shiftLeft_eq]

/-- Whether the last character of a row has been read is told by its bit. -/
theorem and_last_ne_zero_iff {row : Row} (h : row.Sound) (bits : UInt64) :
    bits &&& row.last ≠ 0 ↔ bits.toBitVec.getLsbD (row.length - 1) = true := by
  have hlt : row.length - 1 < 64 := by
    have hpos := h.length_pos
    have hle : row.length ≤ 64 := h.length_le
    omega
  have hne : BitVec.twoPow 64 (row.length - 1) ≠ 0#64 := by
    intro hzero
    have hbit := congrArg (fun x => x.getLsbD (row.length - 1)) hzero
    simp [hlt] at hbit
  rw [ne_eq, ← UInt64.toBitVec_inj, UInt64.toBitVec_and, last_eq_twoPow h, BitVec.and_twoPow]
  by_cases hbit : bits.toBitVec.getLsbD (row.length - 1) = true
  · simp [hbit, hne]
  · simp [hbit]

/-- **What is noted of complete texts.**  Marks that stand for a complete text have nothing
more to read. -/
theorem meets_ends_iff {course : Course} {marks : Marks} (hs : course.Sound)
    (hn : course.Noted marks) (p : Spot) :
    marks.ends.meets p.gap.bit = true ↔ course.Completes marks p p := by
  induction course generalizing marks with
  | empty => simp [show marks = .idle from hn, Marks.ends, GapSet.meets_none, Completes]
  | check passes => simp [show marks = .idle from hn, Marks.ends, GapSet.meets_none, Completes]
  | chars row =>
    have hpos := hs.length_pos
    have hends : marks.ends.meets p.gap.bit = true ↔
        marks.bits.toBitVec.getLsbD (row.length - 1) = true := by
      rw [← and_last_ne_zero_iff hs, show marks.ends = _ from hn]
      split
      next h => simp [GapSet.meets_all, h]
      next h => simp [GapSet.meets_none, h]
    rw [hends]
    constructor
    · intro hbit
      refine ⟨row.length - 1, by omega, hbit, ?_⟩
      rw [show row.length - (row.length - 1 + 1) = 0 by omega]
      rfl
    · intro hboth
      obtain ⟨place, hplace, hbit, hrest⟩ := hboth
      generalize hleft : row.length - (place + 1) = left at hrest
      cases left with
      | zero => rwa [show row.length - 1 = place by omega]
      | succ left =>
        obtain ⟨r, ⟨c, hnext, hc⟩, hrest⟩ := hrest
        have hlength := Spot.length_of_next? hnext
        rcases row.forward_fitsLast left r p hrest with rfl | hlt <;> omega
  | maybe body ih => exact ih hs hn
  | both joint passes x y ihx ihy =>
    obtain ⟨-, hsx, hsy⟩ := hs
    cases joint with
    | inTurn =>
      obtain ⟨hends, hnx, hny⟩ := hn
      rw [hends, GapSet.meets_or, GapSet.meets_and, Bool.or_eq_true, Bool.and_eq_true,
        ihx hsx hnx, ihy hsy hny, meets_passes_iff hsy]
      constructor
      · intro heither
        rcases heither with h | ⟨hx, hy⟩
        · exact Or.inr h
        · exact Or.inl ⟨p, hx, hy⟩
      · intro heither
        rcases heither with ⟨r, hx, hy⟩ | h
        · obtain rfl := (x.forward_completes _).eq_of_seq y.forward_fits hx hy
          exact Or.inr ⟨hx, hy⟩
        · exact Or.inl h
    | oneOf =>
      obtain ⟨hends, hnx, hny⟩ := hn
      rw [hends, GapSet.meets_or, Bool.or_eq_true, ihx hsx hnx, ihy hsy hny]
      exact Iff.rfl
  | loop passes body ih =>
    obtain ⟨-, hsbody⟩ := hs
    rw [ih hsbody hn]
    constructor
    · exact fun h => ⟨p, h, 0, ⟨Nat.le_refl 0, by simp⟩, rfl⟩
    · intro hboth
      obtain ⟨r, hx, hy⟩ := hboth
      obtain rfl := (body.forward_completes _).eq_of_seq (body.forward_fits.counted _) hx hy
      exact hx

/-- A step without marks where nothing is entered leads to no marks. -/
theorem step_idle (c : Char) (here : GapSet) (course : Course) :
    step c here course false .idle = .idle := by
  cases course <;> rfl

/-- A step in a row: the bits move up by one, a new one may come below them, and those stay
that the character can be. -/
theorem step_chars (c : Char) (here : GapSet) (row : Row) (entered : Bool) (marks : Marks) :
    step c here (chars row) entered marks =
      .onRow row (((marks.bits <<< 1) ||| (if entered then 1 else 0)) &&& row.mask c) := by
  by_cases h : entered = false ∧ marks = .idle
  · simp [h.1, h.2, step_idle, Marks.bits, Marks.onRow]
  · rw [step]
    exact fun he hm => h ⟨he, hm⟩

/-- A step in what may be left out is a step in it. -/
theorem step_maybe (c : Char) (here : GapSet) (body : Course) (entered : Bool) (marks : Marks) :
    step c here (maybe body) entered marks = step c here body entered marks := by
  by_cases h : entered = false ∧ marks = .idle
  · simp [h.1, h.2, step_idle]
  · rw [step]
    exact fun he hm => h ⟨he, hm⟩

/-- A step in two parts, one behind the other: the second is entered where the first lets the
empty text through or is complete. -/
theorem step_inTurn (c : Char) (here passes : GapSet) (x y : Course) (entered : Bool)
    (marks : Marks) :
    step c here (both .inTurn passes x y) entered marks =
      let first := step c here x entered marks.first
      let second := step c here y
        ((entered && x.passes.meets here) || marks.first.ends.meets here) marks.second
      .join (second.ends ||| (first.ends &&& y.passes)) first second := by
  by_cases h : entered = false ∧ marks = .idle
  · have hidle : GapSet.meets .none here = false := by simp [GapSet.meets, GapSet.none]
    simp [h.1, h.2, step_idle, Marks.first, Marks.second, Marks.ends, hidle, Marks.join]
  · rw [step]
    exact fun he hm => h ⟨he, hm⟩

/-- A step in one of two parts is a step in each of them. -/
theorem step_oneOf (c : Char) (here passes : GapSet) (x y : Course) (entered : Bool)
    (marks : Marks) :
    step c here (both .oneOf passes x y) entered marks =
      let first := step c here x entered marks.first
      let second := step c here y entered marks.second
      .join (first.ends ||| second.ends) first second := by
  by_cases h : entered = false ∧ marks = .idle
  · simp [h.1, h.2, step_idle, Marks.first, Marks.second, Marks.join]
  · rw [step]
    exact fun he hm => h ⟨he, hm⟩

/-- A step in a loop: where its body is complete it is entered again. -/
theorem step_loop (c : Char) (here passes : GapSet) (body : Course) (entered : Bool)
    (marks : Marks) :
    step c here (loop passes body) entered marks =
      step c here body (entered || marks.ends.meets here) marks := by
  by_cases h : entered = false ∧ marks = .idle
  · have hidle : GapSet.meets .none here = false := by simp [GapSet.meets, GapSet.none]
    simp [h.1, h.2, step_idle, Marks.ends, hidle]
  · rw [step]
    exact fun he hm => h ⟨he, hm⟩

/-- After a step it is again rightly noted where texts are complete. -/
theorem noted_step (c : Char) (here : GapSet) (course : Course) (entered : Bool) (marks : Marks) :
    course.Noted (step c here course entered marks) := by
  induction course generalizing entered marks with
  | empty => cases entered <;> cases marks <;> rfl
  | check passes => cases entered <;> cases marks <;> rfl
  | chars row => rw [step_chars, Noted, Marks.bits_onRow, Marks.ends_onRow]
  | maybe body ih => rw [step_maybe]; exact ih entered marks
  | both joint passes x y ihx ihy =>
    cases joint with
    | inTurn =>
      simp only [step_inTurn, Noted, Marks.first_join, Marks.second_join]
      refine ⟨Marks.ends_join fun hx hy => ?_, ihx _ _, ihy _ _⟩
      rw [hy, hx]
      simp [Marks.ends, GapSet.none]
    | oneOf =>
      simp only [step_oneOf, Noted, Marks.first_join, Marks.second_join]
      refine ⟨Marks.ends_join fun hx hy => ?_, ihx _ _, ihy _ _⟩
      simp [hx, hy, Marks.ends, GapSet.none]
  | loop passes body ih => rw [step_loop]; exact ih _ marks

/-- One text and any number of them behind it are at least one. -/
theorem counted_one_iff (x : Parts) (p q : Spot) :
    x.counted ⟨1, none⟩ p q ↔ ∃ r, x p r ∧ x.counted ⟨0, none⟩ r q := by
  constructor
  · intro hboth
    obtain ⟨n, ⟨hn, -⟩, h⟩ := hboth
    obtain ⟨m, rfl⟩ := Nat.exists_eq_add_of_le' hn
    obtain ⟨r, hx, hrest⟩ := h
    exact ⟨r, hx, m, ⟨Nat.zero_le m, by simp⟩, hrest⟩
  · intro hboth
    obtain ⟨r, hx, n, -, hrest⟩ := hboth
    exact ⟨n + 1, ⟨Nat.le_add_left 1 n, by simp⟩, r, hx, hrest⟩

/-- Any number of texts one behind another that are not empty together begin with one that
is not empty, if the empty ones in front of it are left out. -/
theorem exists_first {x : Parts} {p q : Spot} (h : x.counted ⟨0, none⟩ p q) (hne : p ≠ q) :
    ∃ r, p ≠ r ∧ x p r ∧ x.counted ⟨0, none⟩ r q := by
  obtain ⟨n, -, h⟩ := h
  induction n with
  | zero => exact absurd h hne
  | succ n ih =>
    obtain ⟨r, hx, hrest⟩ := h
    by_cases hr : p = r
    · exact ih (hr ▸ hrest)
    · exact ⟨r, hr, hx, n, ⟨Nat.zero_le n, by simp⟩, hrest⟩

/-- After a step the first bit is set if the row was entered. -/
theorem getLsbD_moved_zero (bits mask : UInt64) (entered : Bool) :
    (((bits <<< 1) ||| (if entered then 1 else 0)) &&& mask).toBitVec.getLsbD 0 =
      (entered && mask.toBitVec.getLsbD 0) := by
  cases entered <;> simp

/-- After a step a further bit is set if the one below it was. -/
theorem getLsbD_moved_succ (bits mask : UInt64) (entered : Bool) {place : Nat}
    (h : place + 1 < 64) :
    (((bits <<< 1) ||| (if entered then 1 else 0)) &&& mask).toBitVec.getLsbD (place + 1) =
      (bits.toBitVec.getLsbD place && mask.toBitVec.getLsbD (place + 1)) := by
  have hplace : place < 64 := by omega
  cases entered <;> simp [h, hplace]

/-- What fits the last characters of a row, if there are any, begins with the next
character. -/
theorem fitsLast_of_next? {row : Row} {c : Char} {p next q : Spot}
    (hnext : p.next? = some (c, next)) (left : Nat) :
    row.FitsLast (left + 1) p q ↔
      row.admits (row.length - (left + 1)) c = true ∧ row.FitsLast left next q := by
  constructor
  · intro hboth
    obtain ⟨r, ⟨d, hd, hc⟩, hrest⟩ := hboth
    rw [hnext, Option.some.injEq, Prod.mk.injEq] at hd
    obtain ⟨rfl, rfl⟩ := hd
    exact ⟨hc, hrest⟩
  · intro hboth
    obtain ⟨hc, hrest⟩ := hboth
    exact ⟨next, ⟨c, hnext, hc⟩, hrest⟩

/-- **A step takes one character.**  Behind the next character the marks that a step leads to
have yet to read what was to be read before it, by the marks there were or from the
beginning on, if the course was entered; what did not take a character is gone. -/
theorem completes_step {course : Course} {marks : Marks} (hs : course.Sound)
    (hn : course.Noted marks) {c : Char} {p next : Spot} (hnext : p.next? = some (c, next))
    (entered : Bool) (q : Spot) :
    course.Completes (step c p.gap.bit course entered marks) next q ↔
      p ≠ q ∧ (course.Completes marks p q ∨ (entered = true ∧ course.Fits p q)) := by
  induction course generalizing marks entered q with
  | empty => simp +contextual [Completes, Fits]
  | check passes => simp +contextual [Completes, Fits, Parts.check]
  | chars row =>
    have hpos := hs.length_pos
    have hle : row.length ≤ 64 := hs.length_le
    have behind {left : Nat} (h : row.FitsLast left next q) : p ≠ q := by
      have hlength := Spot.length_of_next? hnext
      intro heq
      subst heq
      rcases row.forward_fitsLast left next p h with rfl | hlt <;> omega
    rw [step_chars]
    simp only [Completes, Fits, Row.Fits, Marks.bits_onRow]
    constructor
    · intro hboth
      obtain ⟨place, hplace, hbit, hrest⟩ := hboth
      refine ⟨behind hrest, ?_⟩
      cases place with
      | zero =>
        rw [getLsbD_moved_zero, Bool.and_eq_true] at hbit
        refine Or.inr ⟨hbit.1, ?_⟩
        obtain ⟨left, hleft⟩ : ∃ left, row.length = left + 1 := ⟨row.length - 1, by omega⟩
        rw [hleft, fitsLast_of_next? hnext, ← hleft, Nat.sub_self]
        exact ⟨hbit.2, by rwa [show left = row.length - (0 + 1) by omega]⟩
      | succ place =>
        rw [getLsbD_moved_succ _ _ _ (by omega), Bool.and_eq_true] at hbit
        refine Or.inl ⟨place, by omega, hbit.1, ?_⟩
        rw [show row.length - (place + 1) = row.length - (place + 1 + 1) + 1 by omega,
          fitsLast_of_next? hnext,
          show row.length - (row.length - (place + 1 + 1) + 1) = place + 1 by omega]
        exact ⟨hbit.2, hrest⟩
    · intro heither
      rcases heither with ⟨hne, ⟨place, hplace, hbit, hrest⟩ | ⟨rfl, hrest⟩⟩
      · generalize hleft : row.length - (place + 1) = left at hrest
        cases left with
        | zero => exact absurd hrest hne
        | succ left =>
          rw [fitsLast_of_next? hnext, show row.length - (left + 1) = place + 1 by omega] at hrest
          refine ⟨place + 1, by omega, ?_, ?_⟩
          · rw [getLsbD_moved_succ _ _ _ (by omega), hbit, Bool.true_and]
            exact hrest.1
          · rw [show row.length - (place + 1 + 1) = left by omega]
            exact hrest.2
      · obtain ⟨left, hleft⟩ : ∃ left, row.length = left + 1 := ⟨row.length - 1, by omega⟩
        rw [hleft, fitsLast_of_next? hnext, ← hleft, Nat.sub_self] at hrest
        refine ⟨0, hpos, ?_, ?_⟩
        · rw [getLsbD_moved_zero, Bool.true_and]
          exact hrest.1
        · rw [show row.length - (0 + 1) = left by omega]
          exact hrest.2
  | maybe body ih =>
    rw [step_maybe]
    change body.Completes _ next q ↔ p ≠ q ∧ (body.Completes marks p q ∨
      (entered = true ∧ (p = q ∨ body.Fits p q)))
    rw [ih hs hn]
    simp +contextual
  | both joint passes x y ihx ihy =>
    obtain ⟨-, hsx, hsy⟩ := hs
    cases joint with
    | inTurn =>
      obtain ⟨-, hnx, hny⟩ := hn
      rw [step_inTurn]
      change (∃ r, x.Completes (Marks.join _ _ _).first next r ∧ y.Fits r q) ∨
          y.Completes (Marks.join _ _ _).second next q ↔
        p ≠ q ∧ (((∃ r, x.Completes marks.first p r ∧ y.Fits r q) ∨
          y.Completes marks.second p q) ∨ entered = true ∧ ∃ r, x.Fits p r ∧ y.Fits r q)
      simp only [Marks.first_join, Marks.second_join, ihx hsx hnx, ihy hsy hny, Bool.or_eq_true,
        Bool.and_eq_true, meets_passes_iff hsx, meets_ends_iff hsx hnx]
      constructor
      · intro heither
        rcases heither with ⟨r, ⟨hne, hx⟩, hy⟩ | ⟨hne, hy | ⟨hx, hy⟩⟩
        · have hpq : p ≠ q := by
            intro heq
            subst heq
            rcases hx with hx | ⟨-, hx⟩
            · exact hne ((x.forward_completes _).eq_of_seq y.forward_fits hx hy)
            · exact hne (x.forward_fits.eq_of_seq y.forward_fits hx hy)
          grind
        · exact ⟨hne, Or.inl (Or.inr hy)⟩
        · grind
      · grind
    | oneOf =>
      obtain ⟨-, hnx, hny⟩ := hn
      simp only [step_oneOf, Completes, Fits, Joint.link, Parts.alt, Marks.first_join,
        Marks.second_join, ihx hsx hnx, ihy hsy hny]
      grind
  | loop passes body ih =>
    obtain ⟨-, hsbody⟩ := hs
    have hends : marks.ends.meets p.gap.bit = true ↔ body.Completes marks p p :=
      meets_ends_iff hsbody hn p
    rw [step_loop]
    change (∃ r, body.Completes _ next r ∧ body.Fits.counted ⟨0, none⟩ r q) ↔
      p ≠ q ∧ ((∃ r, body.Completes marks p r ∧ body.Fits.counted ⟨0, none⟩ r q) ∨
        entered = true ∧ body.Fits.counted ⟨1, none⟩ p q)
    simp only [ih hsbody hn, Bool.or_eq_true, hends, counted_one_iff]
    constructor
    · intro hboth
      obtain ⟨r, ⟨hne, hx⟩, hrest⟩ := hboth
      have hpq : p ≠ q := by
        have hforward := body.forward_fits.counted ⟨0, none⟩
        intro heq
        subst heq
        rcases hx with hx | ⟨-, hx⟩
        · exact hne ((body.forward_completes _).eq_of_seq hforward hx hrest)
        · exact hne (body.forward_fits.eq_of_seq hforward hx hrest)
      refine ⟨hpq, ?_⟩
      rcases hx with hx | ⟨hentered | hdone, hx⟩
      · exact Or.inl ⟨r, hx, hrest⟩
      · exact Or.inr ⟨hentered, r, hx, hrest⟩
      · obtain ⟨n, -, hn⟩ := hrest
        exact Or.inl ⟨p, hdone, n + 1, ⟨Nat.zero_le _, by simp⟩, r, hx, hn⟩
    · intro heither
      rcases heither with ⟨hpq, ⟨r, hx, hrest⟩ | ⟨hentered, r, hx, hrest⟩⟩
      · by_cases hr : p = r
        · subst hr
          obtain ⟨s, hne, hs, hrest⟩ := exists_first hrest hpq
          exact ⟨s, ⟨hne, Or.inr ⟨Or.inr hx, hs⟩⟩, hrest⟩
        · exact ⟨r, ⟨hr, Or.inl hx⟩, hrest⟩
      · by_cases hr : p = r
        · subst hr
          obtain ⟨s, hne, hs, hrest⟩ := exists_first hrest hpq
          exact ⟨s, ⟨hne, Or.inr ⟨Or.inl hentered, hs⟩⟩, hrest⟩
        · exact ⟨r, ⟨hr, Or.inr ⟨Or.inl hentered, hx⟩⟩, hrest⟩

end Course

end SeedPhrase
