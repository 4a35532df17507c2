import Mathlib.Data.List.Basic
import Mathlib.Data.List.Induction
import SeedPhrase.Cache.Threads

/-!
# Calls, as an observer sees them

An observer of the threads sees when calls begin and when they are answered, and numbers
these events by their place in the history.  A call that was answered before another began
comes before it in time; of two that overlap, neither does.

* `ObservedCall` — one call: whose it is, what was asked, and the places of its beginning
  and of its end;
* `observe` — the calls of a history, in the order of their beginnings;
* `ObservedCall.Precedes` — one call was over before the other began;
* `own` — the calls of one thread;
* `perm_flatMap_own`, `perm_flatten_of_own` — sorted by threads, the calls are the same calls.
-/

namespace SeedPhrase

/-- A call of a thread, with the place in the history where it began and, once it is over,
the place where it ended and the answer. -/
structure ObservedCall where
  thread : Nat
  call : CacheCall
  begun : Nat
  ended : Option (Nat × CacheAnswer)

namespace ObservedCall

/-- The answer, once there is one. -/
def answer? (observed : ObservedCall) : Option CacheAnswer := observed.ended.map Prod.snd

/-- Whether a call is a thread's and is not over yet. -/
def isOpenOf (t : Nat) (observed : ObservedCall) : Bool :=
  observed.ended.isNone && observed.thread = t

theorem isOpenOf_iff {t : Nat} {observed : ObservedCall} :
    observed.isOpenOf t = true ↔ observed.ended = none ∧ observed.thread = t := by
  simp [isOpenOf]

/-- One call was over before the other began. -/
def Precedes (first second : ObservedCall) : Prop :=
  ∃ place answer, first.ended = some (place, answer) ∧ place < second.begun

/-- What an answer to a thread makes of a call: that thread's call ends, if it has not. -/
def close (t place : Nat) (answer : CacheAnswer) (observed : ObservedCall) : ObservedCall :=
  if observed.thread = t then
    { observed with ended := some (observed.ended.getD (place, answer)) }
  else observed

variable (t place : Nat) (answer : CacheAnswer) (observed : ObservedCall)

@[simp] theorem thread_close : (observed.close t place answer).thread = observed.thread := by
  unfold close
  split <;> rfl

@[simp] theorem call_close : (observed.close t place answer).call = observed.call := by
  unfold close
  split <;> rfl

@[simp] theorem begun_close : (observed.close t place answer).begun = observed.begun := by
  unfold close
  split <;> rfl

variable {t observed}

theorem close_of_thread_ne (h : observed.thread ≠ t) :
    observed.close t place answer = observed := by
  rw [close, if_neg h]

theorem answer?_close (h : observed.thread = t) :
    (observed.close t place answer).answer? = some (observed.answer?.getD answer) := by
  rw [close, if_pos h]
  cases hended : observed.ended with
  | none => simp [answer?, hended]
  | some ended => simp [answer?, hended]

variable {place answer}

/-- A call that ends now does not come before any that has begun. -/
theorem Precedes.of_close {second : ObservedCall} (hbegun : second.begun ≤ place)
    (h : (observed.close t place answer).Precedes (second.close t place answer)) :
    observed.Precedes second := by
  obtain ⟨last, given, hended, hbefore⟩ := h
  rw [begun_close] at hbefore
  by_cases hthread : observed.thread = t
  · rw [close, if_pos hthread] at hended
    have hgetD : observed.ended.getD (place, answer) = (last, given) := Option.some.inj hended
    cases hopen : observed.ended with
    | none =>
      rw [hopen] at hgetD
      have hplace : place = last := congrArg Prod.fst hgetD
      omega
    | some ended =>
      rw [hopen] at hgetD
      exact ⟨last, given, by rw [hopen, ← hgetD]; rfl, hbefore⟩
  · rw [close_of_thread_ne place answer hthread] at hended
    exact ⟨last, given, hended, hbefore⟩

end ObservedCall

open ObservedCall

/-- What an event at a place adds to the calls observed before. -/
def note (observed : List ObservedCall) (event : CacheEvent × Nat) : List ObservedCall :=
  match event with
  | (.called t call, place) => observed ++ [⟨t, call, place, none⟩]
  | (.answered t answer, place) => observed.map (close t place answer)

/-- The calls of a history, in the order of their beginnings. -/
def observe (history : List CacheEvent) : List ObservedCall :=
  history.zipIdx.foldl note []

@[simp] theorem observe_nil : observe [] = [] := rfl

theorem observe_concat (history : List CacheEvent) (event : CacheEvent) :
    observe (history ++ [event]) = note (observe history) (event, history.length) := by
  simp [observe, List.zipIdx_append]

/-- Every call began somewhere in the history. -/
theorem begun_lt_of_mem_observe {history : List CacheEvent} {observed : ObservedCall}
    (h : observed ∈ observe history) : observed.begun < history.length := by
  induction history using List.reverseRecOn generalizing observed with
  | nil => cases h
  | append_singleton history event ih =>
    rw [observe_concat] at h
    rw [List.length_append]
    cases event with
    | called t call =>
      rcases List.mem_append.mp h with hold | hnew
      · have := ih hold
        omega
      · rw [List.mem_singleton.mp hnew]
        exact Nat.lt_succ_self _
    | answered t answer =>
      obtain ⟨earlier, hmem, rfl⟩ := List.mem_map.mp h
      have := ih hmem
      rw [begun_close]
      omega

/-- The calls of one thread. -/
def own (t : Nat) (observed : List ObservedCall) : List ObservedCall :=
  observed.filter fun one => one.thread = t

theorem mem_own_iff {t : Nat} {observed : List ObservedCall} {one : ObservedCall} :
    one ∈ own t observed ↔ one ∈ observed ∧ one.thread = t := by
  simp [own]

/-- A call that begins is the last one of its thread and does not concern the others. -/
theorem own_concat (u : Nat) (observed : List ObservedCall) (one : ObservedCall) :
    own u (observed ++ [one]) = own u observed ++ if one.thread = u then [one] else [] := by
  by_cases h : one.thread = u
  · simp [own, h]
  · simp [own, h]

/-- An answer concerns the calls of its thread only. -/
theorem own_map_close (u t place : Nat) (answer : CacheAnswer) (observed : List ObservedCall) :
    own u (observed.map (close t place answer)) =
      if u = t then (own u observed).map (close t place answer) else own u observed := by
  have hmap : own u (observed.map (close t place answer)) =
      (own u observed).map (close t place answer) := by
    simp [own, List.filter_map, Function.comp_def]
  rw [hmap]
  by_cases heq : u = t
  · rw [if_pos heq]
  · rw [if_neg heq]
    have hsame : ∀ one ∈ own u observed, one.close t place answer = id one := by
      intro one hone
      have hthread := (mem_own_iff.mp hone).2
      exact close_of_thread_ne place answer (hthread ▸ heq)
    rw [List.map_congr_left hsame, List.map_id]

/-- **Sorted by threads, the calls are the same calls.** -/
theorem perm_flatMap_own (n : Nat) (observed : List ObservedCall)
    (h : ∀ one ∈ observed, one.thread < n) :
    ((List.range n).flatMap fun t => own t observed).Perm observed := by
  induction n generalizing observed with
  | zero =>
    have hnil : observed = [] := List.eq_nil_iff_forall_not_mem.mpr fun one hone =>
      Nat.not_lt_zero _ (h one hone)
    rw [hnil]
    exact List.Perm.nil
  | succ n ih =>
    let others := observed.filter fun one => !decide (one.thread = n)
    have hothers : ∀ one ∈ others, one.thread < n := by
      intro one hone
      obtain ⟨hmem, hne⟩ := List.mem_filter.mp hone
      have hlt := h one hmem
      have hne : one.thread ≠ n := by simpa using hne
      omega
    have hown : ∀ t ∈ List.range n, own t observed = own t others := by
      intro t ht
      have hlt := List.mem_range.mp ht
      simp only [own, others, List.filter_filter]
      apply List.filter_congr
      intro one _
      by_cases heq : one.thread = t
      · have hne : t ≠ n := by omega
        simp [heq, hne]
      · simp [heq]
    have hsplit : (others ++ own n observed).Perm observed :=
      List.perm_append_comm.trans (List.filter_append_perm _ observed)
    rw [List.range_succ, List.flatMap_append, List.flatMap_congr hown]
    have hlast : ([n].flatMap fun t => own t observed) = own n observed := by simp
    rw [hlast]
    exact ((ih others hothers).append_right _).trans hsplit

/-- What is noted of the calls, thread by thread, is what is noted of all of them. -/
theorem perm_flatten_of_own {β : Type} (f : ObservedCall → β) {observed : List ObservedCall}
    {parts : List (List β)} (hlt : ∀ one ∈ observed, one.thread < parts.length)
    (hparts : ∀ t part, parts[t]? = some part → (own t observed).map f = part) :
    (observed.map f).Perm parts.flatten := by
  have hlist : ((List.range parts.length).map fun t => (own t observed).map f) = parts := by
    apply List.ext_getElem
    · simp
    · intro t _ ht
      rw [List.getElem_map, List.getElem_range]
      exact hparts t _ (List.getElem?_eq_getElem ht)
  have hperm := (perm_flatMap_own parts.length observed hlt).symm.map f
  rw [List.map_flatMap, List.flatMap_def, hlist] at hperm
  exact hperm

end SeedPhrase
