import SeedPhrase.Pattern.Course

/-!
# Courses repeated

What is repeated a number of times is written that often.  Copies are made by doubling, so
that even very many of them take only a few steps to write and share what they have in common.

* `Course.copies` — a course a number of times;
* `Course.upTo` — a course at most a number of times;
* `Course.repeated` — a course as often as a count allows;
* `fits_copies`, `fits_upTo`, `fits_repeated` — what fits them.
-/

namespace SeedPhrase.Course

/-- A course so many times. -/
def copies (course : Course) (count : Nat) : Course :=
  if count = 0 then empty
  else
    let half := copies course (count / 2)
    let twice := join .inTurn half half
    if count % 2 = 0 then twice else join .inTurn twice course
termination_by count

/-- A course at most so many times: half of them or none, and then at most the other
half. -/
def upTo (course : Course) (most : Nat) : Course :=
  if most = 0 then empty
  else join .inTurn (maybe (copies course ((most + 1) / 2))) (upTo course (most / 2))
termination_by most

/-- A course as often as a count allows. -/
def repeated (course : Course) (count : Count) : Course :=
  match count.extra, count.least with
  | some extra, least => join .inTurn (copies course least) (upTo course extra)
  | none, 0 => maybe (loop course.passes course)
  | none, least + 1 => join .inTurn (copies course least) (loop course.passes course)

/-- Copies fit what fits a course repeated. -/
theorem fits_copies {course : Course} (h : course.Sound) (count : Nat) :
    (copies course count).Fits = course.Fits.times count ∧ (copies course count).Sound := by
  have double (half : Nat) {x : Course} (hx : x.Fits = course.Fits.times half ∧ x.Sound) :
      (join .inTurn x x).Fits = course.Fits.times (half + half) ∧ (join .inTurn x x).Sound :=
    ⟨by rw [fits_join _ hx.2 hx.2, hx.1, Parts.times_add]; rfl, sound_join _ hx.2 hx.2⟩
  fun_induction copies course count with
  | case1 => exact ⟨rfl, trivial⟩
  | case2 count hcount half twice heven ih =>
    have hcount : count / 2 + count / 2 = count := by omega
    exact hcount ▸ double _ ih
  | case3 count hcount half twice hodd ih =>
    obtain ⟨hfits, hsound⟩ := double _ ih
    have hcount : count / 2 + count / 2 + 1 = count := by omega
    refine ⟨?_, sound_join _ hsound h⟩
    rw [fits_join _ hsound h, hfits, ← hcount, Parts.times_add _ (_ + _) 1, Parts.times_one,
      hcount]
    rfl

/-- Copies of which none need be there fit what fits a course at most so many times. -/
theorem fits_upTo {course : Course} (h : course.Sound) (most : Nat) :
    (upTo course most).Fits = course.Fits.counted ⟨0, some most⟩ ∧ (upTo course most).Sound := by
  fun_induction upTo course most with
  | case1 =>
    refine ⟨?_, trivial⟩
    funext p q
    simp [Fits, Parts.counted, Count.Allows, Parts.times]
  | case2 most hmost ih =>
    obtain ⟨hfits, hsound⟩ := ih
    obtain ⟨hcopies, scopies⟩ := fits_copies h ((most + 1) / 2)
    have smaybe : (maybe (copies course ((most + 1) / 2))).Sound := scopies
    refine ⟨?_, sound_join _ smaybe hsound⟩
    rw [fits_join _ smaybe hsound, hfits, Fits, hcopies]
    funext p q
    simp only [Joint.link, Parts.seq, Parts.alt, Parts.counted, Count.Allows, Nat.zero_add,
      Nat.zero_le, true_and, Option.mem_some_iff, forall_eq', eq_iff_iff]
    constructor
    · intro heither
      rcases heither with ⟨r, rfl | hfirst, n, hn, hrest⟩
      · exact ⟨n, by omega, hrest⟩
      · exact ⟨(most + 1) / 2 + n, by omega, Parts.times_add _ _ _ ▸ ⟨r, hfirst, hrest⟩⟩
    · intro hboth
      obtain ⟨n, hn, hall⟩ := hboth
      by_cases hhalf : n ≤ most / 2
      · exact ⟨p, Or.inl rfl, n, hhalf, hall⟩
      · have hsum : n = (most + 1) / 2 + (n - (most + 1) / 2) := by omega
        rw [hsum, Parts.times_add] at hall
        obtain ⟨r, hfirst, hrest⟩ := hall
        exact ⟨r, Or.inr hfirst, n - (most + 1) / 2, by omega, hrest⟩

/-- A course repeated fits what fits it as often as the count allows. -/
theorem fits_repeated {course : Course} (h : course.Sound) (count : Count) :
    (repeated course count).Fits = course.Fits.counted count ∧ (repeated course count).Sound := by
  have sloop : (loop course.passes course).Sound := ⟨rfl, h⟩
  obtain ⟨least, extra⟩ := count
  cases extra with
  | some extra =>
    obtain ⟨hcopies, scopies⟩ := fits_copies h least
    obtain ⟨hupTo, supTo⟩ := fits_upTo h extra
    refine ⟨?_, sound_join _ scopies supTo⟩
    rw [repeated, fits_join _ scopies supTo, hcopies, hupTo]
    funext p q
    simp only [Joint.link, Parts.seq, Parts.counted, Count.Allows, Nat.zero_add, Nat.zero_le,
      true_and, Option.mem_some_iff, forall_eq', eq_iff_iff]
    constructor
    · intro hboth
      obtain ⟨r, hfirst, n, hn, hrest⟩ := hboth
      exact ⟨least + n, by omega, Parts.times_add _ _ _ ▸ ⟨r, hfirst, hrest⟩⟩
    · intro hboth
      obtain ⟨n, hn, hall⟩ := hboth
      rw [show n = least + (n - least) by omega, Parts.times_add] at hall
      obtain ⟨r, hfirst, hrest⟩ := hall
      exact ⟨r, hfirst, n - least, by omega, hrest⟩
  | none =>
    cases least with
    | zero =>
      refine ⟨?_, sloop⟩
      funext p q
      simp only [repeated, Fits, Parts.alt, Parts.counted, Count.Allows, Option.not_mem_none,
        false_implies, implies_true, and_true, Nat.zero_le, true_and, eq_iff_iff]
      constructor
      · intro heither
        rcases heither with rfl | ⟨n, -, hall⟩
        · exact ⟨0, rfl⟩
        · exact ⟨n, hall⟩
      · intro hboth
        obtain ⟨n, hall⟩ := hboth
        cases n with
        | zero => exact Or.inl hall
        | succ n => exact Or.inr ⟨n + 1, by omega, hall⟩
    | succ least =>
      obtain ⟨hcopies, scopies⟩ := fits_copies h least
      refine ⟨?_, sound_join _ scopies sloop⟩
      rw [repeated, fits_join _ scopies sloop, hcopies]
      funext p q
      simp only [Fits, Joint.link, Parts.seq, Parts.counted, Count.Allows, Option.not_mem_none,
        false_implies, implies_true, and_true, eq_iff_iff]
      constructor
      · intro hboth
        obtain ⟨r, hfirst, n, hn, hrest⟩ := hboth
        exact ⟨least + n, by omega, Parts.times_add _ _ _ ▸ ⟨r, hfirst, hrest⟩⟩
      · intro hboth
        obtain ⟨n, hn, hall⟩ := hboth
        rw [show n = least + (n - least) by omega, Parts.times_add] at hall
        obtain ⟨r, hfirst, hrest⟩ := hall
        exact ⟨r, hfirst, n - least, by omega, hrest⟩

end SeedPhrase.Course
