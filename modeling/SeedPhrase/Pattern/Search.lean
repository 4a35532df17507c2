import SeedPhrase.Pattern.Drawn
import SeedPhrase.Pattern.Marks
import Std.Data.HashMap

/-!
# Looking for a pattern

A text is read once from its beginning to its end.  With every character the marks on the
course of the pattern move on, and new ones begin.  Steps that have been taken before are
not worked out again: marks that have come up have numbers, and it is remembered to which
number a character leads from another.

* `Known` — marks and steps that are remembered;
* `Known.Right` — that they are remembered as they are;
* `Course.occursIn` — whether some part of a text fits a course;
* `occursIn_course_iff` — some part of a text is found to fit the course of a pattern if and
  only if some part fits the pattern.
-/

namespace SeedPhrase

/-- A step: the number of the marks before it, what stands before the next character, and
that character. -/
structure Move where
  origin : Nat
  before : Side
  next : Char
deriving DecidableEq, Repr

instance : Hashable Move where
  hash move := mixHash (hash move.origin) (mixHash (hash move.before) move.next.val.toUInt64)

/-- Marks, and the number by which they are remembered, if they are. -/
structure Stand where
  marks : Marks
  number : Option Nat

/-- Marks that have come up, by their numbers, and the steps that led from some of them to
others. -/
structure Known where
  marks : Array Marks
  numbers : Std.HashMap Marks Nat
  moves : Std.HashMap Move Nat
  weight : Nat

namespace Known

/-- The weight from which on marks are not remembered. -/
def heavy : Nat := 100000

/-- How much is remembered before all of it is forgotten. -/
def maxWeight : Nat := 300000

/-- Nothing is known. -/
def nothing : Known := ⟨#[], ∅, ∅, 0⟩

/-- Marks with their number, under which they are remembered from now on unless they are
heavy. -/
def place (marks : Marks) (known : Known) : Stand × Known :=
  let weight := marks.weight
  if heavy ≤ weight then (⟨marks, none⟩, known)
  else
    match known.numbers[marks]? with
    | some number => (⟨marks, some number⟩, known)
    | none =>
      let number := known.marks.size
      (⟨marks, some number⟩,
        { known with
          marks := known.marks.push marks
          numbers := known.numbers.insert marks number
          weight := known.weight + weight })

/-- Where a step leads. -/
def step (course : Course) (before : Side) (c : Char) (stand : Stand) (known : Known) :
    Stand × Known :=
  let next := fun () => course.step c (Gap.bit ⟨before, .ofChar c⟩) true stand.marks
  match stand.number with
  | none => known.place (next ())
  | some origin =>
    if maxWeight ≤ known.weight then nothing.place (next ())
    else
      let move : Move := ⟨origin, before, c⟩
      match known.moves[move]? with
      | some target => (⟨known.marks.getD target .idle, some target⟩, known)
      | none =>
        let (stand, known) := known.place (next ())
        match stand.number with
        | none => (stand, known)
        | some target => (stand, { known with moves := known.moves.insert move target })

/-- That what is remembered is right: marks have the numbers of their places, and steps lead
where they should. -/
structure Right (course : Course) (known : Known) : Prop where
  number : ∀ {marks : Marks} {number : Nat}, known.numbers[marks]? = some number →
    known.marks[number]? = some marks
  move : ∀ {move : Move} {target : Nat}, known.moves[move]? = some target →
    ∃ marks, known.marks[move.origin]? = some marks ∧ known.marks[target]? =
      some (course.step move.next (Gap.bit ⟨move.before, .ofChar move.next⟩) true marks)

/-- That marks are remembered by the number they have, if they have one. -/
def Places (known : Known) (stand : Stand) : Prop :=
  ∀ number ∈ stand.number, known.marks[number]? = some stand.marks

/-- Nothing is right. -/
theorem right_nothing (course : Course) : nothing.Right course where
  number h := by simp [nothing] at h
  move h := by simp [nothing] at h

/-- Marks get their place, and what was remembered remains. -/
theorem right_place {course : Course} {known : Known} (h : known.Right course) (marks : Marks) :
    (place marks known).1.marks = marks ∧ (place marks known).2.Places (place marks known).1 ∧
      (place marks known).2.Right course ∧
      ∀ {number : Nat} {others : Marks}, known.marks[number]? = some others →
        (place marks known).2.marks[number]? = some others := by
  simp only [place]
  split
  next => exact ⟨rfl, by simp [Places], h, id⟩
  next =>
    split
    next number hnumber => exact ⟨rfl, by simpa [Places] using h.number hnumber, h, id⟩
    next hnone =>
      have kept {number : Nat} {others : Marks} (hold : known.marks[number]? = some others) :
          (known.marks.push marks)[number]? = some others := by
        obtain ⟨hlt, -⟩ := Array.getElem?_eq_some_iff.mp hold
        rwa [Array.getElem?_push_lt hlt, ← Array.getElem?_eq_getElem hlt]
      refine ⟨rfl, by simp [Places], ⟨?_, ?_⟩, kept⟩
      · intro others number hothers
        rw [Std.HashMap.getElem?_insert] at hothers
        split at hothers
        next heq =>
          simp only [beq_iff_eq] at heq
          simp only [Option.some.injEq] at hothers
          simp [← heq, ← hothers]
        next => exact kept (h.number hothers)
      · intro move target hmove
        obtain ⟨others, horigin, htarget⟩ := h.move hmove
        exact ⟨others, kept horigin, kept htarget⟩

/-- **Remembered steps are steps.**  Whether a step is worked out or remembered, it leads to
the same marks. -/
theorem right_step {course : Course} {known : Known} (h : known.Right course) {stand : Stand}
    (hstand : known.Places stand) (before : Side) (c : Char) :
    (step course before c stand known).1.marks =
        course.step c (Gap.bit ⟨before, .ofChar c⟩) true stand.marks ∧
      (step course before c stand known).2.Places (step course before c stand known).1 ∧
      (step course before c stand known).2.Right course := by
  generalize hnext : course.step c (Gap.bit ⟨before, .ofChar c⟩) true stand.marks = next
  have fresh {known : Known} (h : known.Right course) :
      (place next known).1.marks = next ∧ (place next known).2.Places (place next known).1 ∧
        (place next known).2.Right course :=
    ⟨(right_place h next).1, (right_place h next).2.1, (right_place h next).2.2.1⟩
  simp only [step, hnext]
  split
  next => exact fresh h
  next origin horigin =>
    have hplace := hstand origin horigin
    split
    next => exact fresh (right_nothing course)
    next =>
      split
      next target htarget =>
        obtain ⟨others, hothers, hmarks⟩ := h.move htarget
        obtain rfl := Option.some.inj (hothers.symm.trans hplace)
        rw [hnext] at hmarks
        exact ⟨by simp [Array.getD_eq_getD_getElem?, hmarks],
          by simp [Places, Array.getD_eq_getD_getElem?, hmarks], h⟩
      next =>
        obtain ⟨hmarks, hplaces, hright, kept⟩ := right_place h next
        split
        next => exact ⟨hmarks, hplaces, hright⟩
        next target htarget =>
          refine ⟨hmarks, hplaces, ⟨hright.number, ?_⟩⟩
          intro move number hmove
          rw [Std.HashMap.getElem?_insert] at hmove
          split at hmove
          next heq =>
            simp only [beq_iff_eq] at heq
            simp only [Option.some.injEq] at hmove
            subst heq hmove
            exact ⟨stand.marks, kept hplace,
              (hplaces _ htarget).trans (by rw [hmarks, hnext])⟩
          next => exact hright.move hmove

end Known

namespace Course

/-- Whether a text that fits ends, or begins and ends, in the rest of a text. -/
def occursFrom (course : Course) (known : Known) (stand : Stand) (before : Side) :
    List Char → Bool
  | [] => (course.passes ||| stand.marks.ends).meets (Gap.bit ⟨before, .nothing⟩)
  | c :: rest =>
    (course.passes ||| stand.marks.ends).meets (Gap.bit ⟨before, .ofChar c⟩) ||
      let (stand, known) := known.step course before c stand
      occursFrom course known stand (.ofChar c) rest

/-- Whether some part of a text fits. -/
def occursIn (course : Course) (text : String) : Bool :=
  let (stand, known) := Known.nothing.place .idle
  course.occursFrom known stand .nothing text.toList

/-- Whether a part of a text that fits ends at a spot, where it may also have begun. -/
theorem meets_passes_or_ends_iff {course : Course} (hs : course.Sound) {marks : Marks}
    (hn : course.Noted marks) (p : Spot) :
    (course.passes ||| marks.ends).meets p.gap.bit = true ↔
      course.Fits p p ∨ course.Completes marks p p := by
  rw [GapSet.meets_or, Bool.or_eq_true, meets_passes_iff hs, meets_ends_iff hs hn]

/-- What is found in the rest of a text: a part that the marks stand for, or one that begins
there. -/
theorem occursFrom_iff {course : Course} (hs : course.Sound) {known : Known} {stand : Stand}
    (hknown : known.Right course) (hplaces : known.Places stand)
    (hnoted : course.Noted stand.marks) (before : Option Char) (rest : List Char) :
    course.occursFrom known stand (.of before) rest = true ↔
      (∃ q, course.Completes stand.marks ⟨before, rest⟩ q) ∨
        ∃ p ∈ Spot.onward before rest, ∃ q, course.Fits p q := by
  induction rest generalizing known stand before with
  | nil =>
    have stays {x : Parts} (hx : x.Forward) {q : Spot} (h : x ⟨before, []⟩ q) :
        x ⟨before, []⟩ ⟨before, []⟩ := by
      rcases hx _ _ h with rfl | hlt
      · exact h
      · simp at hlt
    rw [occursFrom]
    simp only [Spot.onward, List.mem_singleton, exists_eq_left]
    refine (meets_passes_or_ends_iff hs hnoted ⟨before, []⟩).trans ⟨?_, ?_⟩
    · intro heither
      rcases heither with h | h
      · exact Or.inr ⟨_, h⟩
      · exact Or.inl ⟨_, h⟩
    · intro heither
      rcases heither with ⟨q, h⟩ | ⟨q, h⟩
      · exact Or.inr (stays (course.forward_completes _) h)
      · exact Or.inl (stays course.forward_fits h)
  | cons c rest ih =>
    obtain ⟨hmarks, hplaces', hknown'⟩ := Known.right_step hknown hplaces (.of before) c
    have hnoted' : course.Noted (Known.step course (.of before) c stand known).1.marks := by
      rw [hmarks]
      exact noted_step ..
    have hrest := ih hknown' hplaces' hnoted' (some c)
    have hstep := completes_step hs hnoted (c := c) (p := ⟨before, c :: rest⟩) rfl true
    have hhere := meets_passes_or_ends_iff hs hnoted ⟨before, c :: rest⟩
    rw [hmarks] at hrest
    rw [occursFrom, Bool.or_eq_true]
    refine (or_congr hhere (hrest.trans (or_congr (exists_congr hstep) Iff.rfl))).trans ?_
    simp only [Spot.onward, List.mem_cons, exists_eq_or_imp]
    grind

/-- A part of a text is found if there is one that fits. -/
theorem occursIn_iff {course : Course} (hs : course.Sound) (text : String) :
    course.occursIn text = true ↔
      ∃ p ∈ Spot.onward none text.toList, ∃ q, course.Fits p q := by
  obtain ⟨hmarks, hplaces, hknown, -⟩ := Known.right_place (Known.right_nothing course) .idle
  have hnoted : course.Noted (Known.nothing.place .idle).1.marks := by
    rw [hmarks]
    exact noted_idle course
  refine (occursFrom_iff hs hknown hplaces hnoted none text.toList).trans ?_
  rw [hmarks]
  simp [not_completes_idle]

end Course

/-- **Patterns are found.**  Some part of a text is found to fit the course of a pattern if
and only if some part fits the pattern. -/
theorem occursIn_course_iff (pattern : Pattern) (text : String) :
    pattern.course.occursIn text = true ↔ pattern.OccursIn text := by
  obtain ⟨hfits, hsound⟩ := pattern.fits_course
  rw [Course.occursIn_iff hsound, hfits, Pattern.OccursIn]

end SeedPhrase
