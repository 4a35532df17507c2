import SeedPhrase.Pattern.Joint
import SeedPhrase.Pattern.Row

/-!
# Courses

A course is a pattern in the form in which it is read: of characters in rows, of assertions as
sets of gaps, and of pairs and loops of such parts.  Where it has parts it is noted at which
gaps they let the empty text through.

* `Course.Fits` — what fits a course;
* `Course.Sound` — that all that is noted is right;
* `meets_passes_iff` — what is noted, where it is right;
* `Course.join`, `Course.all` — courses from parts, with `fits_join` and `fits_all`.
-/

namespace SeedPhrase

/-- A pattern drawn out for reading.  Where a course has parts it is noted from them at
which gaps the empty text fits. -/
inductive Course
  | empty
  /-- The empty text, at certain gaps. -/
  | check (passes : GapSet)
  /-- Characters one behind another. -/
  | chars (row : Row)
  /-- A text or none. -/
  | maybe (body : Course)
  /-- Two parts. -/
  | both (joint : Joint) (passes : GapSet) (first second : Course)
  /-- Texts one behind another, one at least. -/
  | loop (passes : GapSet) (body : Course)
deriving DecidableEq, Repr

namespace Course

/-- The gaps at which the empty text fits. -/
@[inline] def passes : Course → GapSet
  | empty => .all
  | check passes => passes
  | chars _ => .none
  | maybe _ => .all
  | both _ passes _ _ => passes
  | loop passes _ => passes

/-- What fits a course. -/
def Fits : Course → Parts
  | empty => Eq
  | check passes => .check fun gap => passes.meets gap.bit
  | chars row => row.Fits
  | maybe body => .alt Eq body.Fits
  | both joint _ first second => joint.link first.Fits second.Fits
  | loop _ body => .counted body.Fits ⟨1, none⟩

/-- That all that is noted in a course is right. -/
def Sound : Course → Prop
  | empty => True
  | check _ => True
  | chars row => row.Sound
  | maybe body => body.Sound
  | both joint passes first second =>
    passes = joint.passes first.passes second.passes ∧ first.Sound ∧ second.Sound
  | loop passes body => passes = body.passes ∧ body.Sound

/-- One character of a set. -/
def one (set : CharSet) : Course := chars (.single set)

/-- Two courses as one. -/
def join : Joint → Course → Course → Course
  | .inTurn, empty, second => second
  | .inTurn, first, empty => first
  | .inTurn, chars x, chars y =>
    if x.length + y.length ≤ Row.maxLength then chars (x.append y)
    else both .inTurn .none (chars x) (chars y)
  | joint, first, second => both joint (joint.passes first.passes second.passes) first second

/-- Several courses as one, halved again and again. -/
def all (joint : Joint) (courses : List Course) : Course :=
  match courses with
  | [] =>
    match joint with
    | .inTurn => empty
    | .oneOf => one .nothing
  | [course] => course
  | first :: second :: rest =>
    let courses := first :: second :: rest
    let half := courses.length / 2
    join joint (all joint (courses.take half)) (all joint (courses.drop half))
termination_by courses.length
decreasing_by all_goals simp; omega

/-- Parts of texts that fit a course do not end before they begin. -/
theorem forward_fits (course : Course) : Parts.Forward course.Fits := by
  induction course with
  | empty => exact Parts.forward_eq
  | check passes => exact Parts.forward_check _
  | chars row => exact row.forward_fitsLast _
  | maybe body ih => exact Parts.forward_eq.alt ih
  | both joint passes first second ihFirst ihSecond =>
    cases joint with
    | inTurn => exact ihFirst.seq ihSecond
    | oneOf => exact ihFirst.alt ihSecond
  | loop passes body ih => exact ih.counted _

/-- **What is noted of the empty text.**  A course lets it through at a gap if the gap is
among those that are noted. -/
theorem meets_passes_iff {course : Course} (h : course.Sound) (p : Spot) :
    course.passes.meets p.gap.bit = true ↔ course.Fits p p := by
  induction course with
  | empty => simp [passes, Fits, GapSet.meets_all]
  | check passes => simp [Course.passes, Fits, Parts.check]
  | chars row =>
    obtain ⟨left, hleft⟩ : ∃ left, row.length = left + 1 :=
      ⟨row.length - 1, by have := h.length_pos; omega⟩
    simp only [passes, GapSet.meets_none, Bool.false_eq_true, false_iff, Fits, Row.Fits, hleft,
      Row.FitsLast]
    intro hboth
    obtain ⟨r, ⟨c, hnext, hc⟩, hrest⟩ := hboth
    have hlength := Spot.length_of_next? hnext
    rcases row.forward_fitsLast left r p hrest with rfl | hlt <;> omega
  | maybe body ih => simp [passes, Fits, GapSet.meets_all, Parts.alt]
  | both joint passes first second ihFirst ihSecond =>
    obtain ⟨rfl, hfirst, hsecond⟩ := h
    cases joint with
    | inTurn =>
      change GapSet.meets (first.passes &&& second.passes) p.gap.bit = true ↔
        Parts.seq first.Fits second.Fits p p
      rw [GapSet.meets_and, Bool.and_eq_true, ihFirst hfirst, ihSecond hsecond]
      constructor
      · intro hboth
        obtain ⟨hx, hy⟩ := hboth
        exact ⟨p, hx, hy⟩
      · intro hboth
        obtain ⟨r, hx, hy⟩ := hboth
        obtain rfl := first.forward_fits.eq_of_seq second.forward_fits hx hy
        exact ⟨hx, hy⟩
    | oneOf =>
      change GapSet.meets (first.passes ||| second.passes) p.gap.bit = true ↔
        Parts.alt first.Fits second.Fits p p
      rw [GapSet.meets_or, Bool.or_eq_true, ihFirst hfirst, ihSecond hsecond, Parts.alt]
  | loop passes body ih =>
    obtain ⟨rfl, hbody⟩ := h
    change body.passes.meets p.gap.bit = true ↔ Parts.counted body.Fits ⟨1, none⟩ p p
    rw [ih hbody]
    constructor
    · exact fun hp => ⟨1, ⟨Nat.le_refl 1, by simp⟩, (Parts.times_one _).symm ▸ hp⟩
    · intro hboth
      obtain ⟨n, ⟨hn, -⟩, hp⟩ := hboth
      obtain ⟨m, rfl⟩ := Nat.exists_eq_add_of_le' hn
      obtain ⟨r, hx, hy⟩ := hp
      obtain rfl := body.forward_fits.eq_of_seq (body.forward_fits.times m) hx hy
      exact hx

/-- Two courses as one fit what they fit together. -/
theorem fits_join (joint : Joint) {first second : Course} (hfirst : first.Sound)
    (hsecond : second.Sound) :
    (join joint first second).Fits = joint.link first.Fits second.Fits := by
  unfold join
  split
  · exact (Parts.eq_seq _).symm
  · exact (Parts.seq_eq _).symm
  · split
    next h => exact Row.fits_append hfirst hsecond h
    next => rfl
  · rfl

/-- What is noted in two courses as one is right if it is in each of them. -/
theorem sound_join (joint : Joint) {first second : Course} (hfirst : first.Sound)
    (hsecond : second.Sound) : (join joint first second).Sound := by
  unfold join
  split
  · exact hsecond
  · exact hfirst
  · split
    next h => exact Row.Sound.append hfirst hsecond h
    next => exact ⟨by simp [Joint.passes, passes, GapSet.none], hfirst, hsecond⟩
  · exact ⟨rfl, hfirst, hsecond⟩

/-- Several courses as one fit what they fit together. -/
theorem fits_all (joint : Joint) (courses : List Course) (h : ∀ course ∈ courses, course.Sound) :
    (all joint courses).Fits = joint.total (courses.map Fits) ∧ (all joint courses).Sound := by
  fun_induction all joint courses with
  | case1 hjoint =>
    subst hjoint
    exact ⟨rfl, trivial⟩
  | case2 hjoint =>
    subst hjoint
    refine ⟨?_, Row.sound_single _⟩
    funext p q
    have hnone (c : Char) : CharSet.nothing.contains c = false := rfl
    simp [one, Fits, Row.fits_single, Joint.total, Joint.nothing, Parts.char, hnone]
  | case3 course => exact ⟨(Joint.total_single _ _).symm, h course (by simp)⟩
  | case4 first second rest courses half ihFirst ihSecond =>
    obtain ⟨hfirst, sfirst⟩ := ihFirst fun course hc => h course (List.mem_of_mem_take hc)
    obtain ⟨hsecond, ssecond⟩ := ihSecond fun course hc => h course (List.mem_of_mem_drop hc)
    refine ⟨?_, sound_join joint sfirst ssecond⟩
    rw [fits_join joint sfirst ssecond, hfirst, hsecond, ← Joint.total_append, ← List.map_append,
      List.take_append_drop]

end Course

end SeedPhrase
