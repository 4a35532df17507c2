import SeedPhrase.Proofs.Cache.Account
import SeedPhrase.WordList.English

/-!
# Calls at the same time are calls one after another

However the threads take their steps, what they see could have been seen if the calls had
been made one after another: there is an order of the calls, in which none comes before one
that was over when it began, such that a cache that nobody else uses gives the same answers
when the calls are made in that order, and is left as the shared cache is.

The order is that in which the calls take effect.  It is built up along the run: a call is
put at its end in the step in which it takes effect, which is after its beginning and before
its end, so that whatever is over by then is in the order already.

* `Machine.answerIn` — the answer of a call, once it has taken effect;
* `Placed` — the invariant: the calls that have taken effect, in the order in which they
  have, lead from the first cache to the settled one, with these answers;
* `Placed.advance`, `explained_step`, `explained_run` — one step keeps it, and so does a run;
* `Linearizes` — an order of calls that explains what was observed;
* `linearizable` — once all calls have returned there is one.
-/

namespace SeedPhrase

open ObservedCall

namespace Cache

/-- One more call after others. -/
theorem run_concat (loader : Loader) (calls : List CacheCall) (call : CacheCall) (cache : Cache) :
    (run loader (calls ++ [call]) cache).value =
      ((run loader calls cache).value.1 ++
          [((run loader calls cache).value.2.perform loader call).value.1],
        ((run loader calls cache).value.2.perform loader call).value.2) := by
  induction calls generalizing cache with
  | nil => rfl
  | cons first calls ih => simp [run, ih]

end Cache

namespace Machine

/-- The answer of a call that has taken effect: the one it was given, or the one it will be
given. -/
def answerIn (machine : Machine) (one : ObservedCall) : Option CacheAnswer :=
  one.answer?.or (machine.phaseOf one.thread).effect?

/-- The calls of a history that have taken effect. -/
def effected (machine : Machine) : List ObservedCall :=
  (observe machine.history).filter fun one => (machine.answerIn one).isSome

/-- The calls that have taken effect, in an order, lead from one cache to another. -/
structure Placed (loader : Loader) (cache : Cache) (machine : Machine) (settled : Cache)
    (order : List ObservedCall) : Prop where
  perm : order.Perm machine.effected
  inTime : order.Pairwise fun first second => ¬ second.Precedes first
  answers : order.map machine.answerIn =
    (cache.run loader (order.map ObservedCall.call)).value.1.map some
  settles : (cache.run loader (order.map ObservedCall.call)).value.2 = settled

section OneStep

variable {loader : Loader} {cache settled settled' : Cache} {machine next : Machine}
  {order : List ObservedCall} {one : ObservedCall} {t : Nat} {thread thread' : Thread}

/-- A call that is open will get the answer that its thread has made certain. -/
theorem answerIn_of_open (h : one.isOpenOf t = true) :
    machine.answerIn one = (machine.phaseOf t).effect? := by
  obtain ⟨hopen, hthread⟩ := isOpenOf_iff.mp h
  rw [answerIn, answer?, hopen, hthread]
  rfl

/-- A step of a thread leaves alone the answers of all calls but its own open one. -/
theorem answerIn_of_not_open (hthreads : next.threads = machine.threads.set t thread')
    (h : ¬ one.isOpenOf t = true) : next.answerIn one = machine.answerIn one := by
  unfold answerIn
  by_cases heq : one.thread = t
  · have hended : one.ended ≠ none := fun hnone => h (isOpenOf_iff.mpr ⟨hnone, heq⟩)
    obtain ⟨ended, hsome⟩ := Option.ne_none_iff_exists'.mp hended
    rw [answer?, hsome]
    rfl
  · rw [phaseOf_other hthreads heq]

/-- A step that does not change whether the thread's call has taken effect leaves alone all
answers. -/
theorem answerIn_of_same_effect (hthread : machine.threads[t]? = some thread)
    (hthreads : next.threads = machine.threads.set t thread')
    (heffect : thread'.phase.effect? = thread.phase.effect?) (one : ObservedCall) :
    next.answerIn one = machine.answerIn one := by
  by_cases hopen : one.isOpenOf t = true
  · rw [answerIn_of_open hopen, answerIn_of_open hopen, phaseOf_self hthread hthreads,
      phaseOf_eq hthread, heffect]
  · exact answerIn_of_not_open hthreads hopen

/-- The one open call of a thread, while it has a call under way. -/
theorem Recounted.filter_isOpenOf {programs : List (List CacheCall)} {call : CacheCall}
    (h : Recounted programs machine) (hthread : machine.threads[t]? = some thread)
    (hcall : thread.phase.call? = some call) :
    ∃ one, (observe machine.history).filter (isOpenOf t) = [one] ∧ one.call = call := by
  obtain ⟨ht, _⟩ := List.getElem?_eq_some_iff.mp hthread
  have hprogram := List.getElem?_eq_getElem (h.length ▸ ht)
  obtain ⟨one, hone, heq⟩ := (h.traced hthread hprogram).filter_open hcall
  rw [own, List.filter_filter] at hone
  exact ⟨one, hone, heq⟩

/-- A call that takes effect joins those that have. -/
theorem perm_effected (hthread : machine.threads[t]? = some thread)
    (hthreads : next.threads = machine.threads.set t thread')
    (hpending : thread.phase.effect? = none) (heffect : thread'.phase.effect?.isSome = true)
    (hhistory : next.history = machine.history)
    (hopen : (observe machine.history).filter (isOpenOf t) = [one]) :
    (machine.effected ++ [one]).Perm next.effected := by
  have hmine : next.effected.filter (isOpenOf t) = [one] := by
    rw [← hopen, effected, hhistory, List.filter_filter]
    apply List.filter_congr
    intro other _
    by_cases hother : other.isOpenOf t = true
    · rw [answerIn_of_open hother, phaseOf_self hthread hthreads, heffect, Bool.and_true]
    · rw [Bool.not_eq_true] at hother
      rw [hother, Bool.false_and]
  have hothers : next.effected.filter (fun other => !other.isOpenOf t) = machine.effected := by
    rw [effected, effected, hhistory, List.filter_filter]
    apply List.filter_congr
    intro other _
    by_cases hother : other.isOpenOf t = true
    · have hnone : machine.answerIn other = none := by
        rw [answerIn_of_open hother, phaseOf_eq hthread, hpending]
      rw [hnone, hother]
      rfl
    · rw [answerIn_of_not_open hthreads hother, Bool.eq_false_iff.mpr hother, Bool.not_false,
        Bool.true_and]
  have hsplit := List.filter_append_perm (isOpenOf t) next.effected
  rw [hmine, hothers] at hsplit
  exact List.perm_append_comm.trans hsplit

theorem Placed.mem (h : Placed loader cache machine settled order) (hone : one ∈ order) :
    one ∈ observe machine.history ∧ (machine.answerIn one).isSome :=
  List.mem_filter.mp (h.perm.mem_iff.mp hone)

theorem Placed.of_same (h : Placed loader cache machine settled order)
    (heffected : next.effected = machine.effected)
    (hanswerIn : ∀ one, next.answerIn one = machine.answerIn one) :
    Placed loader cache next settled order := by
  refine ⟨heffected ▸ h.perm, h.inTime, ?_, h.settles⟩
  rw [← h.answers]
  exact List.map_congr_left fun one _ => hanswerIn one

/-- **A call takes effect.**  It is put at the end of the order: it is not over yet, so it
comes before no other. -/
theorem Placed.effective {answer : CacheAnswer} (h : Placed loader cache machine settled order)
    (hopen : one.isOpenOf t = true) (hthreads : next.threads = machine.threads.set t thread')
    (heffected : (machine.effected ++ [one]).Perm next.effected)
    (hpending : machine.answerIn one = none) (hanswer : next.answerIn one = some answer)
    (hperform : (settled.perform loader one.call).value = (answer, settled')) :
    Placed loader cache next settled' (order ++ [one]) := by
  have hrun : cache.run loader ((order ++ [one]).map ObservedCall.call) =
      cache.run loader (order.map ObservedCall.call ++ [one.call]) := by
    rw [List.map_append, List.map_singleton]
  constructor
  · exact (h.perm.append_right [one]).trans heffected
  · rw [List.pairwise_append]
    refine ⟨h.inTime, List.pairwise_singleton _ _, ?_⟩
    intro earlier _ last hlast hprecedes
    rw [List.mem_singleton.mp hlast] at hprecedes
    obtain ⟨place, given, hended, _⟩ := hprecedes
    rw [(isOpenOf_iff.mp hopen).1] at hended
    cases hended
  · have hearlier : order.map next.answerIn = order.map machine.answerIn := by
      apply List.map_congr_left
      intro other hother
      by_cases hopen' : other.isOpenOf t = true
      -- The open call of the thread has not taken effect, so it is not in the order yet.
      · have hnone : machine.answerIn other = none := by
          rw [answerIn_of_open hopen', ← answerIn_of_open hopen, hpending]
        have hsome := (h.mem hother).2
        rw [hnone] at hsome
        cases hsome
      · exact answerIn_of_not_open hthreads hopen'
    rw [hrun, Cache.run_concat, h.settles, hperform]
    simp only [List.map_append, hearlier, h.answers, List.map_singleton, hanswer]
  · rw [hrun, Cache.run_concat, h.settles, hperform]

/-- **A call ends.**  It keeps its place: whatever comes before it in the order has begun by
now, so that the end is not before its beginning. -/
theorem Placed.answered {answer : CacheAnswer} (h : Placed loader cache machine settled order)
    (hthread : machine.threads[t]? = some thread) (hphase : thread.phase = .answering answer)
    (hthreads : next.threads = machine.threads.set t thread')
    (hhistory : next.history = machine.history ++ [.answered t answer]) :
    Placed loader cache next settled (order.map (close t machine.history.length answer)) := by
  have hanswerIn : ∀ one : ObservedCall,
      next.answerIn (one.close t machine.history.length answer) = machine.answerIn one := by
    intro one
    unfold answerIn
    by_cases heq : one.thread = t
    · rw [answer?_close _ _ heq, heq, phaseOf_eq hthread, hphase]
      cases one.answer? <;> rfl
    · rw [close_of_thread_ne _ _ heq, phaseOf_other hthreads heq]
  have heffected : next.effected = machine.effected.map (close t machine.history.length answer) := by
    rw [effected, hhistory, observe_concat]
    simp only [note, List.filter_map, Function.comp_def, hanswerIn]
    rfl
  constructor
  · rw [heffected]
    exact h.perm.map _
  -- The place of the end is behind every beginning so far, so no call comes before another now
  -- that did not before.
  · rw [List.pairwise_map]
    apply h.inTime.imp_of_mem
    intro first second hfirst _ hnot hprecedes
    apply hnot
    have hbegun := begun_lt_of_mem_observe (h.mem hfirst).1
    exact hprecedes.of_close (Nat.le_of_lt hbegun)
  · rw [List.map_map, List.map_map]
    simpa [Function.comp_def, hanswerIn] using h.answers
  · rw [List.map_map]
    simpa [Function.comp_def] using h.settles

theorem Placed.advance {programs : List (List CacheCall)}
    (h : Placed loader cache machine settled order) (hrecounted : Recounted programs machine)
    (hadvance : Advance loader t machine settled next settled') :
    ∃ order', Placed loader cache next settled' order' := by
  cases hadvance with
  | still => exact ⟨order, h⟩
  | @begun _ _ _ call _ hthread hidle _ _ heffect hthreads hhistory =>
    have hsame := answerIn_of_same_effect hthread hthreads (heffect.trans (by rw [hidle]; rfl))
    have hnew : machine.answerIn ⟨t, call, machine.history.length, none⟩ = none := by
      rw [answerIn_of_open (isOpenOf_iff.mpr ⟨rfl, rfl⟩), phaseOf_eq hthread, hidle]
      rfl
    refine ⟨order, h.of_same ?_ hsame⟩
    rw [effected, hhistory, observe_concat]
    simp [note, hsame, hnew, effected]
  | quiet hthread _ heffect hthreads hhistory =>
    have hsame := answerIn_of_same_effect hthread hthreads heffect
    refine ⟨order, h.of_same ?_ hsame⟩
    rw [effected, effected, hhistory]
    simp only [hsame]
  | effective hthread hbefore hpending _ heffect hperform hthreads hhistory =>
    obtain ⟨one, hone, rfl⟩ := hrecounted.filter_isOpenOf hthread hbefore
    have hopen : one.isOpenOf t = true := by
      have hmem : one ∈ (observe machine.history).filter (isOpenOf t) :=
        hone ▸ List.mem_singleton_self one
      exact (List.mem_filter.mp hmem).2
    have heffected :=
      perm_effected hthread hthreads hpending (by rw [heffect]; rfl) hhistory hone
    refine ⟨order ++ [one], h.effective hopen hthreads heffected ?_ ?_ hperform⟩
    · rw [answerIn_of_open hopen, phaseOf_eq hthread, hpending]
    · rw [answerIn_of_open hopen, phaseOf_self hthread hthreads, heffect]
  | answered hthread hphase hthreads hhistory =>
    exact ⟨_, h.answered hthread hphase hthreads hhistory⟩

end OneStep

/-- The run so far is explained by calls one after another. -/
def Explained (loader : Loader) (cache : Cache) (programs : List (List CacheCall))
    (machine : Machine) : Prop :=
  ∃ settled order, Settled loader machine settled ∧ Recounted programs machine ∧
    Placed loader cache machine settled order

variable {loader : Loader} {cache : Cache} {programs : List (List CacheCall)} {machine : Machine}

theorem explained_start (loader : Loader) (cache : Cache) (programs : List (List CacheCall)) :
    Explained loader cache programs (start cache programs) := by
  refine ⟨cache, [], settled_start loader cache programs, recounted_start cache programs, ?_⟩
  exact ⟨List.Perm.nil, List.Pairwise.nil, rfl, rfl⟩

theorem explained_step (h : Explained loader cache programs machine) (t : Nat) :
    Explained loader cache programs (machine.step loader t) := by
  obtain ⟨settled, order, hsettled, hrecounted, hplaced⟩ := h
  obtain ⟨settled', hadvance, hsettled'⟩ := advances_step hsettled t
  obtain ⟨order', hplaced'⟩ := hplaced.advance hrecounted hadvance
  exact ⟨settled', order', hsettled', hrecounted.advance hadvance, hplaced'⟩

/-- **A run stays explained**, whatever the order of the steps. -/
theorem explained_run (h : Explained loader cache programs machine) (schedule : List Nat) :
    Explained loader cache programs (machine.run loader schedule) := by
  unfold run
  induction schedule generalizing machine with
  | nil => exact h
  | cons t schedule ih => exact ih (explained_step h t)

section Done

variable (hdone : machine.isDone = true)

include hdone

theorem phaseOf_of_isDone (t : Nat) : machine.phaseOf t = .idle := by
  unfold phaseOf
  cases hthread : machine.threads[t]? with
  | none => rfl
  | some thread =>
    have hthreadDone := List.all_eq_true.mp hdone thread (List.mem_of_getElem? hthread)
    have hboth : thread.program = [] ∧ thread.phase = .idle := by
      simpa [Thread.isDone] using hthreadDone
    exact hboth.2

/-- With all calls over nobody has the lock, and nothing is ahead of the settled cache. -/
theorem Settled.cache_eq {settled : Cache} (h : Settled loader machine settled) :
    machine.cache = settled := by
  have hleads := h.leads
  have hidle : machine.underLock = .idle := by
    unfold underLock
    cases machine.holder with
    | none => rfl
    | some t => exact phaseOf_of_isDone hdone t
  rw [hidle] at hleads
  exact hleads

theorem answerIn_of_isDone (one : ObservedCall) : machine.answerIn one = one.answer? := by
  rw [answerIn, phaseOf_of_isDone hdone]
  exact Option.or_none

/-- With all calls over all have taken effect. -/
theorem Recounted.effected_eq (h : Recounted programs machine) :
    machine.effected = observe machine.history := by
  apply List.filter_eq_self.mpr
  intro one hone
  rw [answerIn_of_isDone hdone]
  have ht : one.thread < machine.threads.length := h.length ▸ h.thread_lt one hone
  have hthread := List.getElem?_eq_getElem ht
  have hprogram := List.getElem?_eq_getElem (h.thread_lt one hone)
  have hanswers := (h.of_isDone hdone hthread hprogram).2
  have hmem : one.answer? ∈ (own one.thread (observe machine.history)).map answer? :=
    List.mem_map_of_mem (mem_own_iff.mpr ⟨hone, rfl⟩)
  rw [hanswers] at hmem
  obtain ⟨answer, _, heq⟩ := List.mem_map.mp hmem
  rw [← heq]
  rfl

/-- The calls that were observed are those of the programs. -/
theorem Recounted.perm_calls (h : Recounted programs machine) :
    ((observe machine.history).map ObservedCall.call).Perm programs.flatten := by
  apply perm_flatten_of_own _ h.thread_lt
  intro t program hprogram
  have ht : t < machine.threads.length := by
    rw [h.length]
    exact (List.getElem?_eq_some_iff.mp hprogram).1
  exact (h.of_isDone hdone (List.getElem?_eq_getElem ht) hprogram).1

/-- The answers that were observed are those of the threads. -/
theorem Recounted.perm_answers (h : Recounted programs machine) :
    ((observe machine.history).map answer?).Perm
      ((machine.threads.flatMap Thread.answers).map some) := by
  rw [List.map_flatMap, List.flatMap_def]
  apply perm_flatten_of_own
  · rw [List.length_map, h.length]
    exact h.thread_lt
  · intro t given hgiven
    rw [List.getElem?_map, Option.map_eq_some_iff] at hgiven
    obtain ⟨thread, hthread, rfl⟩ := hgiven
    have ht : t < programs.length := by
      rw [← h.length]
      exact (List.getElem?_eq_some_iff.mp hthread).1
    exact (h.of_isDone hdone hthread (List.getElem?_eq_getElem ht)).2

end Done

end Machine

/-- An order of calls explains what was observed: they are the same calls, none comes before
one that was over when it began, and a cache that nobody else uses gives the same answers and
is left the same when they are made in that order. -/
structure Linearizes (loader : Loader) (cache last : Cache) (observed order : List ObservedCall) :
    Prop where
  perm : order.Perm observed
  inTime : order.Pairwise fun first second => ¬ second.Precedes first
  answers : order.map answer? =
    (cache.run loader (order.map ObservedCall.call)).value.1.map some
  leaves : (cache.run loader (order.map ObservedCall.call)).value.2 = last

/-- Calls that all ask for the list can be made in any order. -/
theorem Linearizes.of_gets {loader : Loader} {cache last : Cache}
    {observed order : List ObservedCall} (h : Linearizes loader cache last observed order)
    {n : Nat} (hcalls : (observed.map ObservedCall.call).Perm (List.replicate n .get))
    {answers : List CacheAnswer} (hanswers : (observed.map answer?).Perm (answers.map some)) :
    answers.Perm (cache.run loader (List.replicate n .get)).value.1 ∧
      (cache.run loader (List.replicate n .get)).value.2 = last := by
  have horder : order.map ObservedCall.call = List.replicate n .get :=
    List.perm_replicate.mp ((h.perm.map _).trans hcalls)
  have hgiven := h.answers
  have hleaves := h.leaves
  rw [horder] at hgiven hleaves
  have hsome := hanswers.symm.trans (h.perm.map answer?).symm
  rw [hgiven] at hsome
  refine ⟨?_, hleaves⟩
  have hperm := hsome.filterMap id
  simpa [List.filterMap_map, Function.comp_def] using hperm

namespace Machine

/-- A run that is explained and over has calls that are explained by an order. -/
theorem Explained.linearizes {loader : Loader} {cache : Cache} {programs : List (List CacheCall)}
    {machine : Machine} (h : Explained loader cache programs machine)
    (hdone : machine.isDone = true) :
    ∃ order, Linearizes loader cache machine.cache (observe machine.history) order := by
  obtain ⟨settled, order, hsettled, hrecounted, hplaced⟩ := h
  refine ⟨order, ?_, hplaced.inTime, ?_, ?_⟩
  · have hperm := hplaced.perm
    rw [hrecounted.effected_eq hdone] at hperm
    exact hperm
  · rw [← hplaced.answers]
    exact List.map_congr_left fun one _ => (answerIn_of_isDone hdone one).symm
  · rw [hplaced.settles]
    exact (hsettled.cache_eq hdone).symm

/-- **The cache is linearizable.**  Whatever the loader brings, however many threads there
are, whatever they call and in whatever order they take their steps: once all calls have
returned, the calls that were observed are those of the programs, with the answers that the
threads were given, and there is an order of them that explains what was observed.  In
particular threads that all ask for the list fare as if they had asked one after another. -/
theorem linearizable (loader : Loader) (cache : Cache) (programs : List (List CacheCall))
    (schedule : List Nat)
    (hdone : ((start cache programs).run loader schedule).isDone = true) :
    let machine := (start cache programs).run loader schedule
    let observed := observe machine.history
    (∃ order, Linearizes loader cache machine.cache observed order) ∧
      (machine.threads.length = programs.length ∧
        ∀ (t : Nat) (thread : Thread) (program : List CacheCall),
          machine.threads[t]? = some thread → programs[t]? = some program →
            (own t observed).map ObservedCall.call = program ∧
              (own t observed).map answer? = thread.answers.map some) ∧
      ∀ n, programs.flatten = List.replicate n .get →
        (machine.threads.flatMap Thread.answers).Perm
            (cache.run loader (List.replicate n .get)).value.1 ∧
          (cache.run loader (List.replicate n .get)).value.2 = machine.cache := by
  intro machine observed
  have hexplained := explained_run (explained_start loader cache programs) schedule
  obtain ⟨order, horder⟩ := hexplained.linearizes hdone
  obtain ⟨_, _, _, hrecounted, _⟩ := hexplained
  refine ⟨⟨order, horder⟩, ⟨hrecounted.length, ?_⟩, ?_⟩
  · intro t thread program hthread hprogram
    exact hrecounted.of_isDone hdone hthread hprogram
  · intro n hgets
    have hcalls := hrecounted.perm_calls hdone
    rw [hgets] at hcalls
    exact horder.of_gets hcalls (hrecounted.perm_answers hdone)

/-- Three threads that get in each other's way: all find the slot empty, one load panics, one
fails and one brings the list, which is forgotten while the last call is about to hand it
out. -/
theorem linearizable_contended :
    let loader : Loader := fun call =>
      [.panic, .failure (.internal "absent")].getD call (.list WordList.english)
    let schedule :=
      [0, 1, 2, 0, 1, 2, 0, 1, 0, 0, 0, 0, 2, 1, 2, 2, 2, 2, 1, 1, 1, 2, 2, 1, 1, 1, 1, 1, 2, 2,
        1, 2, 2, 1]
    let machine := (start Cache.empty [[.get], [.get, .evict], [.get, .get]]).run loader schedule
    machine.isDone = true ∧
      ∃ order, Linearizes loader Cache.empty machine.cache (observe machine.history) order := by
  intro loader schedule machine
  have hdone : machine.isDone = true := by decide +kernel
  exact ⟨hdone, (linearizable loader Cache.empty _ schedule hdone).1⟩

end Machine

end SeedPhrase
