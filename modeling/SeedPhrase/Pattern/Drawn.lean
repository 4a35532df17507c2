import SeedPhrase.Pattern.Copies

/-!
# The course of a pattern

A pattern is drawn out for reading: its numbers are dropped, its texts are taken apart into
characters, what is repeated is copied, and counts inside counts are multiplied out where
they can be.  Long rows of parts are halved, so that a course is hardly deeper than the
pattern is nested.

* `Pattern.course` — the course of a pattern;
* `fits_course` — what fits the course is what fits the pattern.
-/

namespace SeedPhrase

namespace Course

/-- The courses of some parts in front of others, if all of them stand to each other in the
same way and none is repeated; else one course for the parts.  The last one comes first. -/
@[inline] def put (outer inner : Joint) (count : Count) (parts : List Course → List Course)
    (others : List Course) : List Course :=
  if outer = inner ∧ count = .once then parts others
  else (all inner (parts []).reverse).repeated count :: others

/-- What fits courses of which the last one comes first. -/
def FitsBack (joint : Joint) (courses : List Course) : Parts :=
  joint.total (courses.reverse.map Fits)

/-- One more course at the end. -/
theorem fitsBack_cons (joint : Joint) (course : Course) (others : List Course) :
    FitsBack joint (course :: others) = joint.link (FitsBack joint others) course.Fits := by
  rw [FitsBack, List.reverse_cons, List.map_append, Joint.total_append]
  exact congrArg _ (Joint.total_single _ _)

/-- Courses that are put in front of others fit, as often as the count allows, what they fit
alone. -/
theorem fitsBack_put (outer inner : Joint) (count : Count) {parts : List Course → List Course}
    {x : Parts}
    (h : ∀ others, (∀ course ∈ others, course.Sound) →
      FitsBack inner (parts others) = inner.link (FitsBack inner others) x ∧
        ∀ course ∈ parts others, course.Sound)
    {others : List Course} (hothers : ∀ course ∈ others, course.Sound) :
    FitsBack outer (put outer inner count parts others) =
        outer.link (FitsBack outer others) (x.counted count) ∧
      ∀ course ∈ put outer inner count parts others, course.Sound := by
  unfold put
  split
  next hsame =>
    obtain ⟨rfl, rfl⟩ := hsame
    rw [Parts.counted_once]
    exact h others hothers
  next =>
    obtain ⟨hfits, hsound⟩ := h [] (by simp)
    obtain ⟨hall, sall⟩ := fits_all inner (parts []).reverse fun course hc =>
      hsound course (List.mem_reverse.mp hc)
    obtain ⟨hrepeated, srepeated⟩ := fits_repeated sall count
    have hx : (all inner (parts []).reverse).Fits = x := by
      rw [hall]
      exact hfits.trans (Joint.nothing_link _ _)
    constructor
    · rw [fitsBack_cons, hrepeated, hx]
    · exact List.forall_mem_cons.mpr ⟨srepeated, hothers⟩

end Course

namespace Pattern

/-- The courses of the parts of a pattern that is repeated, the last one first, in front of
others. -/
def coursesOnto (joint : Joint) (count : Count) : Pattern → List Course → List Course
  | empty, others => Course.put joint .inTurn count (fun others => others) others
  | text chars, others =>
    Course.put joint .inTurn count
      (fun others => chars.foldl (fun others c => .one (.single c) :: others) others) others
  | one set _, others => (Course.one set).repeated count :: others
  | check assertion _, others => (Course.check (.ofPred assertion.holds)).repeated count :: others
  | group _ body, others => coursesOnto joint count body others
  | seq first second, others =>
    Course.put joint .inTurn count
      (fun others =>
        coursesOnto .inTurn .once second (coursesOnto .inTurn .once first others)) others
  | alt left right, others =>
    Course.put joint .oneOf count
      (fun others => coursesOnto .oneOf .once right (coursesOnto .oneOf .once left others)) others
  | times body least most _, others =>
    let inner := Count.ofBounds least most
    match inner.within? count with
    | some count => coursesOnto joint count body others
    | none =>
      (Course.all .inTurn (coursesOnto .inTurn inner body []).reverse).repeated count :: others

/-- The courses of a pattern that is repeated fit what it fits as often as the count
allows. -/
theorem fits_coursesOnto (joint : Joint) (count : Count) (pattern : Pattern)
    {others : List Course} (hothers : ∀ course ∈ others, course.Sound) :
    Course.FitsBack joint (coursesOnto joint count pattern others) =
        joint.link (Course.FitsBack joint others) (pattern.Fits.counted count) ∧
      ∀ course ∈ coursesOnto joint count pattern others, course.Sound := by
  have alone (course : Course) (h : course.Sound) (joint : Joint) (count : Count)
      {others : List Course} (hothers : ∀ course ∈ others, course.Sound) :
      Course.FitsBack joint (course.repeated count :: others) =
          joint.link (Course.FitsBack joint others) (course.Fits.counted count) ∧
        ∀ other ∈ course.repeated count :: others, other.Sound := by
    obtain ⟨hfits, hsound⟩ := Course.fits_repeated h count
    exact ⟨by rw [Course.fitsBack_cons, hfits], List.forall_mem_cons.mpr ⟨hsound, hothers⟩⟩
  induction pattern generalizing joint count others with
  | empty =>
    exact Course.fitsBack_put joint .inTurn count
      (fun others h => ⟨(Joint.link_nothing .inTurn _).symm, h⟩) hothers
  | text chars =>
    refine Course.fitsBack_put joint .inTurn count ?_ hothers
    induction chars with
    | nil => exact fun others h => ⟨(Joint.link_nothing .inTurn _).symm, h⟩
    | cons c chars ih =>
      intro others h
      obtain ⟨hfits, hsound⟩ := ih (.one (.single c) :: others)
        (List.forall_mem_cons.mpr ⟨Row.sound_single _, h⟩)
      refine ⟨?_, hsound⟩
      have hc : (CharSet.single c).contains = fun d => decide (d = c) := by
        funext d
        rw [Bool.eq_iff_iff, CharSet.contains_single]
        simp [eq_comm]
      rw [List.foldl_cons, hfits, Course.fitsBack_cons, Joint.link_assoc]
      simp only [Course.one, Course.Fits, Row.fits_single, hc, Fits, Parts.text, Joint.link]
  | one set inAscii =>
    have h := alone (.one set) (Row.sound_single set) joint count hothers
    rwa [show (Course.one set).Fits = Parts.char set.contains from Row.fits_single set] at h
  | check assertion allScripts =>
    have h := alone (.check (.ofPred assertion.holds)) trivial joint count hothers
    simp only [Course.Fits, GapSet.meets_ofPred] at h
    exact h
  | group number body ih => exact ih joint count hothers
  | seq first second ihFirst ihSecond =>
    refine Course.fitsBack_put joint .inTurn count (fun others h => ?_) hothers
    obtain ⟨hfirst, sfirst⟩ := ihFirst .inTurn .once h
    obtain ⟨hsecond, ssecond⟩ := ihSecond .inTurn .once sfirst
    refine ⟨?_, ssecond⟩
    rw [hsecond, hfirst, Parts.counted_once, Parts.counted_once, Joint.link_assoc]
    rfl
  | alt left right ihLeft ihRight =>
    refine Course.fitsBack_put joint .oneOf count (fun others h => ?_) hothers
    obtain ⟨hleft, sleft⟩ := ihLeft .oneOf .once h
    obtain ⟨hright, sright⟩ := ihRight .oneOf .once sleft
    refine ⟨?_, sright⟩
    rw [hright, hleft, Parts.counted_once, Parts.counted_once, Joint.link_assoc]
    rfl
  | times body least most isLazy ih =>
    simp only [coursesOnto]
    split
    next merged hmerged =>
      rw [Fits, Parts.counted_within? _ hmerged]
      exact ih joint merged hothers
    next =>
      obtain ⟨hfits, hsound⟩ := ih .inTurn (.ofBounds least most) (List.forall_mem_nil _)
      obtain ⟨hall, sall⟩ := Course.fits_all .inTurn _ fun course hc =>
        hsound course (List.mem_reverse.mp hc)
      have h := alone _ sall joint count hothers
      rwa [hall.trans (hfits.trans (Joint.nothing_link _ _))] at h

/-- The course of a pattern. -/
def course (pattern : Pattern) : Course :=
  .all .inTurn (coursesOnto .inTurn .once pattern []).reverse

/-- **What fits the course is what fits the pattern.** -/
theorem fits_course (pattern : Pattern) :
    pattern.course.Fits = pattern.Fits ∧ pattern.course.Sound := by
  obtain ⟨hfits, hsound⟩ := fits_coursesOnto .inTurn .once pattern (List.forall_mem_nil _)
  obtain ⟨hall, sall⟩ := Course.fits_all .inTurn _ fun course hc =>
    hsound course (List.mem_reverse.mp hc)
  exact ⟨hall.trans (hfits.trans ((Joint.nothing_link _ _).trans (Parts.counted_once _))), sall⟩

end Pattern

end SeedPhrase
