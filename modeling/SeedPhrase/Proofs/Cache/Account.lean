import SeedPhrase.Proofs.Cache.Advance
import SeedPhrase.Proofs.Cache.History

/-!
# The history tells what the threads do

What an observer makes out of the history of a run agrees with the threads themselves: the
calls observed of a thread are those of its program that it has begun, in their order, with
the answers it has had; and the last of them is still open exactly while the thread has a
call under way.

* `Traced` — the calls of one thread agree with the thread;
* `Machine.Recounted` — the invariant, for all threads;
* `Recounted.advance` — every step keeps it;
* `Recounted.of_isDone` — once all calls have returned, every thread has made the calls of its
  program and has had the answers that were observed.
-/

namespace SeedPhrase

open ObservedCall

/-- Observed calls are those that a thread has made out of its program, with its answers. -/
structure Traced (program : List CacheCall) (thread : Thread) (calls : List ObservedCall) :
    Prop where
  made : calls.map ObservedCall.call ++ thread.program = program
  answers : calls.map answer? =
    thread.answers.map some ++ thread.phase.call?.toList.map fun _ => none
  current : (calls.filter fun one => one.ended.isNone).map ObservedCall.call =
    thread.phase.call?.toList

namespace Traced

variable {program rest : List CacheCall} {thread : Thread} {calls : List ObservedCall} {t : Nat}

theorem begun {phase : Phase} {call : CacheCall} (h : Traced program thread calls)
    (hidle : thread.phase = .idle) (hprogram : thread.program = call :: rest)
    (hcall : phase.call? = some call) (place : Nat) :
    Traced program { thread with program := rest, phase := phase }
      (calls ++ [⟨t, call, place, none⟩]) := by
  have hnone : thread.phase.call? = none := by rw [hidle]; rfl
  constructor
  · rw [← h.made, hprogram]
    simp
  · have hanswers := h.answers
    rw [hnone] at hanswers
    rw [List.map_append, hanswers, hcall]
    simp [answer?]
  · have hcurrent := h.current
    rw [hnone] at hcurrent
    rw [List.filter_append, List.map_append, hcurrent, hcall]
    rfl

theorem goes_on {phase : Phase} (h : Traced program thread calls)
    (hcall : phase.call? = thread.phase.call?) :
    Traced program { thread with phase := phase } calls := by
  refine ⟨h.made, ?_, ?_⟩
  · rw [hcall]
    exact h.answers
  · rw [hcall]
    exact h.current

theorem answered {answer : CacheAnswer} (h : Traced program thread calls)
    (hphase : thread.phase = .answering answer) (hthread : ∀ one ∈ calls, one.thread = t)
    (place : Nat) :
    Traced program { thread with phase := .idle, answers := thread.answers ++ [answer] }
      (calls.map (close t place answer)) := by
  have hunderway : ∃ call, thread.phase.call? = some call := by
    rw [hphase]
    cases answer with
    | got reply => exact ⟨.get, rfl⟩
    | evicted => exact ⟨.evict, rfl⟩
  obtain ⟨call, hcall⟩ := hunderway
  have hclosed : ∀ one ∈ calls,
      (one.close t place answer).answer? = some (one.answer?.getD answer) := by
    intro one hone
    exact answer?_close place answer (hthread one hone)
  constructor
  · rw [List.map_map]
    simpa [Function.comp_def] using h.made
  · have hanswers := h.answers
    rw [hcall] at hanswers
    calc (calls.map (close t place answer)).map answer?
        = calls.map fun one => some (one.answer?.getD answer) := by
          rw [List.map_map]
          exact List.map_congr_left hclosed
      _ = (calls.map answer?).map fun given => some (given.getD answer) := by
          rw [List.map_map]
          rfl
      _ = (thread.answers ++ [answer]).map some ++ [] := by
          rw [hanswers]
          simp [Function.comp_def]
  · have hnone : (calls.map (close t place answer)).filter (fun one => one.ended.isNone) = [] := by
      rw [List.filter_eq_nil_iff]
      intro one hone
      obtain ⟨earlier, hmem, rfl⟩ := List.mem_map.mp hone
      rw [close, if_pos (hthread earlier hmem)]
      simp
    rw [hnone]
    rfl

/-- The one call that is open, while a call is under way. -/
theorem filter_open {call : CacheCall} (h : Traced program thread calls)
    (hcall : thread.phase.call? = some call) :
    ∃ one, calls.filter (fun one => one.ended.isNone) = [one] ∧ one.call = call := by
  have hcurrent := h.current
  rw [hcall] at hcurrent
  obtain ⟨one, hone, heq⟩ := List.map_eq_singleton_iff.mp hcurrent
  exact ⟨one, hone, heq⟩

end Traced

namespace Machine

/-- The calls observed are those of the threads. -/
structure Recounted (programs : List (List CacheCall)) (machine : Machine) : Prop where
  length : machine.threads.length = programs.length
  thread_lt : ∀ one ∈ observe machine.history, one.thread < programs.length
  traced : ∀ {t : Nat} {thread : Thread} {program : List CacheCall},
    machine.threads[t]? = some thread → programs[t]? = some program →
      Traced program thread (own t (observe machine.history))

theorem recounted_start (cache : Cache) (programs : List (List CacheCall)) :
    Recounted programs (start cache programs) := by
  refine ⟨List.length_map _, by simp [start], ?_⟩
  intro t thread program hthread hprogram
  have hthread : (programs.map Thread.ofProgram)[t]? = some thread := hthread
  rw [List.getElem?_map, hprogram] at hthread
  obtain rfl : Thread.ofProgram program = thread := Option.some.inj hthread
  exact ⟨rfl, rfl, rfl⟩

variable {programs : List (List CacheCall)} {machine next : Machine}

/-- A step of one thread that the history tells of that thread only. -/
theorem Recounted.of_set {t : Nat} {thread thread' : Thread} (h : Recounted programs machine)
    (hthread : machine.threads[t]? = some thread)
    (hthreads : next.threads = machine.threads.set t thread')
    (hlt : ∀ one ∈ observe next.history, one.thread < programs.length)
    (hother : ∀ u, u ≠ t → own u (observe next.history) = own u (observe machine.history))
    (hown : ∀ program, Traced program thread (own t (observe machine.history)) →
      Traced program thread' (own t (observe next.history))) : Recounted programs next := by
  refine ⟨by rw [hthreads, List.length_set, h.length], hlt, ?_⟩
  intro u stepped program hstepped hprogram
  rw [hthreads] at hstepped
  by_cases heq : u = t
  · subst heq
    obtain ⟨hu, _⟩ := List.getElem?_eq_some_iff.mp hthread
    rw [List.getElem?_set_self hu] at hstepped
    rw [← Option.some.inj hstepped]
    exact hown program (h.traced hthread hprogram)
  · rw [List.getElem?_set_ne (Ne.symm heq)] at hstepped
    rw [hother u heq]
    exact h.traced hstepped hprogram

theorem Recounted.advance {loader : Loader} {settled settled' : Cache} {t : Nat}
    (h : Recounted programs machine)
    (hadvance : Advance loader t machine settled next settled') : Recounted programs next := by
  cases hadvance with
  | still => exact h
  | @begun _ thread _ call _ hthread hidle hprogram hcall _ hthreads hhistory =>
    have hobserve : observe next.history =
        observe machine.history ++ [⟨t, call, machine.history.length, none⟩] := by
      rw [hhistory, observe_concat]
      rfl
    obtain ⟨ht, _⟩ := List.getElem?_eq_some_iff.mp hthread
    refine h.of_set hthread hthreads ?_ ?_ ?_
    · intro one hone
      rw [hobserve] at hone
      rcases List.mem_append.mp hone with hold | hnew
      · exact h.thread_lt one hold
      · rw [List.mem_singleton.mp hnew, ← h.length]
        exact ht
    · intro u hne
      rw [hobserve, own_concat, if_neg (Ne.symm hne), List.append_nil]
    · intro program htraced
      rw [hobserve, own_concat, if_pos rfl]
      exact htraced.begun hidle hprogram hcall _
  | quiet hthread hcall _ hthreads hhistory =>
    refine h.of_set hthread hthreads ?_ ?_ ?_
    · rw [hhistory]
      exact h.thread_lt
    · intro u _
      rw [hhistory]
    · intro program htraced
      rw [hhistory]
      exact htraced.goes_on hcall
  | effective hthread hbefore _ hcall _ _ hthreads hhistory =>
    refine h.of_set hthread hthreads ?_ ?_ ?_
    · rw [hhistory]
      exact h.thread_lt
    · intro u _
      rw [hhistory]
    · intro program htraced
      rw [hhistory]
      exact htraced.goes_on (hcall.trans hbefore.symm)
  | @answered _ thread answer hthread hphase hthreads hhistory =>
    have hobserve : observe next.history =
        (observe machine.history).map (close t machine.history.length answer) := by
      rw [hhistory, observe_concat]
      rfl
    refine h.of_set hthread hthreads ?_ ?_ ?_
    · intro one hone
      rw [hobserve] at hone
      obtain ⟨earlier, hmem, rfl⟩ := List.mem_map.mp hone
      rw [thread_close]
      exact h.thread_lt earlier hmem
    · intro u hne
      rw [hobserve, own_map_close, if_neg hne]
    · intro program htraced
      rw [hobserve, own_map_close, if_pos rfl]
      exact htraced.answered hphase (fun one hone => (mem_own_iff.mp hone).2) _

theorem Recounted.of_isDone (h : Recounted programs machine) (hdone : machine.isDone = true)
    {t : Nat} {thread : Thread} {program : List CacheCall}
    (hthread : machine.threads[t]? = some thread) (hprogram : programs[t]? = some program) :
    (own t (observe machine.history)).map ObservedCall.call = program ∧
      (own t (observe machine.history)).map answer? = thread.answers.map some := by
  have hthreadDone := List.all_eq_true.mp hdone thread (List.mem_of_getElem? hthread)
  obtain ⟨hempty, hidle⟩ : thread.program = [] ∧ thread.phase = .idle := by
    simpa [Thread.isDone] using hthreadDone
  have htraced := h.traced hthread hprogram
  constructor
  · rw [← htraced.made, hempty, List.append_nil]
  · rw [htraced.answers, hidle]
    exact List.append_nil _

end Machine

end SeedPhrase
