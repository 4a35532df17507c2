import SeedPhrase.Proofs.Cache.Ledger
import SeedPhrase.WordList.English

/-!
# What a cache has loaded, at any time

A run of many threads can be stopped anywhere, and the books of the cache balance there.
Moreover every list that a thread has in hand, or was given, is the one that was brought by
the load whose number it has.  So where nobody evicts, and the loader is therefore not called
again once it has brought a list, all who are given a list are given the same.

* `evictionsFound` — the evictions that find a list, along a run;
* `Loader.Brought`, `Genuine` — what it is for a numbered list to be brought by a load, and
  that all lists in sight are;
* `Undisturbed` — nobody will evict, and no call comes after the one that brings a list;
* `Accounted.run`, `Undisturbed.run` — a run keeps all of this;
* `load_accounting` — what it comes to.
-/

namespace SeedPhrase

namespace Loader

variable (loader : Loader)

/-- A numbered list was brought by one of the first calls of a loader, and has as its number
how many lists had been brought before. -/
def Brought (calls : Nat) (loaded : Loaded) : Prop :=
  ∃ k < calls, loader k = .list loaded.list ∧ loader.successes k = loaded.serial

variable {loader}

theorem Brought.mono {calls calls' : Nat} {loaded : Loaded} (h : loader.Brought calls loaded)
    (hle : calls ≤ calls') : loader.Brought calls' loaded := by
  obtain ⟨k, hk, hrest⟩ := h
  exact ⟨k, by omega, hrest⟩

end Loader

namespace Machine

/-- How many evictions of a run find a list. -/
def evictionsFound (loader : Loader) : Machine → List Nat → Nat
  | _, [] => 0
  | machine, t :: schedule =>
    (machine.evicts t).toNat + evictionsFound loader (machine.step loader t) schedule

/-- Every list in sight was brought by the load whose number it has. -/
structure Genuine (loader : Loader) (machine : Machine) : Prop where
  slot : ∀ loaded, machine.cache.slot = some loaded → loader.Brought machine.cache.calls loaded
  sees : ∀ thread ∈ machine.threads, ∀ loaded, thread.Sees loaded →
    loader.Brought machine.cache.calls loaded

/-- Nobody will evict, and nobody will call the loader again once it has brought a list. -/
structure Undisturbed (loader : Loader) (machine : Machine) : Prop where
  unfinished : ∀ thread ∈ machine.threads, .evict ∉ thread.unfinished
  last : ∀ k < machine.cache.calls, ∀ list, loader k = .list list → k + 1 = machine.cache.calls

section OneStep

variable {loader : Loader} {machine next : Machine} {settled : Cache} {found t : Nat}
  {thread : Thread}

/-- A step of one thread that brings only genuine lists into sight. -/
theorem Genuine.of_set {phase : Phase} (h : Genuine loader machine)
    (hthread : machine.threads[t]? = some thread)
    (hthreads : next.threads = machine.threads.set t { thread with phase := phase })
    (hcalls : machine.cache.calls ≤ next.cache.calls)
    (hslot : ∀ loaded, next.cache.slot = some loaded → loader.Brought next.cache.calls loaded)
    (hshown : ∀ loaded, phase.shown? = some loaded → loader.Brought next.cache.calls loaded) :
    Genuine loader next := by
  refine ⟨hslot, forall_threads_set hthreads ?_ ?_⟩
  · intro other hother loaded hsees
    exact (h.sees other hother loaded hsees).mono hcalls
  · intro loaded hsees
    rcases hsees with hnow | hgiven
    · exact hshown loaded hnow
    · have hmem := List.mem_of_getElem? hthread
      exact (h.sees thread hmem loaded (.inr hgiven)).mono hcalls

/-- **No list is mistaken for another.**  A list gets its number when it is counted, and keeps
it wherever it is handed on. -/
theorem Genuine.tick (h : Genuine loader machine) (hledger : Ledger loader found machine)
    (hsettled : Settled loader machine settled) (htick : Tick loader t machine next) :
    Genuine loader next := by
  cases htick with
  | still => exact h
  | @aside _ thread _ hthread hthreads haside hcache hrecords =>
    have hcalls : next.cache.calls = machine.cache.calls := by rw [hcache]
    constructor
    · rw [hcache]
      exact h.slot
    · rw [hcalls]
      refine forall_threads_set hthreads h.sees ?_
      intro loaded hsees
      rcases haside.sees loaded hsees with hbefore | hslot
      · exact h.sees thread (List.mem_of_getElem? hthread) loaded hbefore
      · exact h.slot loaded hslot
  | @failed _ _ reply hthread hphase hload hthreads hcache hrecords =>
    refine h.of_set hthread hthreads (by rw [hcache]; exact Nat.le_succ _) ?_ ?_
    · rw [hcache]
      intro loaded hslot
      exact (h.slot loaded hslot).mono (Nat.le_succ _)
    · intro loaded hshown
      cases reply with
      | list held =>
        cases hfailed : loader machine.cache.calls <;> rw [hfailed] at hload <;> cases hload
      | failure error => cases hshown
      | panic => cases hshown
  | brought hthread hphase hload hthreads hcache hrecords =>
    refine h.of_set hthread hthreads (by rw [hcache]; exact Nat.le_succ _) ?_ ?_
    · rw [hcache]
      intro loaded hslot
      exact (h.slot loaded hslot).mono (Nat.le_succ _)
    · intro loaded hshown
      cases hshown
  | @counted _ _ list hthread hphase hthreads hcache hrecords =>
    refine h.of_set hthread hthreads (Nat.le_of_eq (by rw [hcache])) ?_ ?_
    · rw [hcache]
      exact h.slot
    · intro loaded hshown
      rw [hcache, ← Option.some.inj hshown]
      obtain ⟨k, hcalls, hload⟩ := hsettled.load_of_counting hthread hphase
      refine ⟨k, ?_, hload, ?_⟩
      · show k < machine.cache.calls
        omega
      · -- The last call brought the one list that is not counted yet.
        have hone : machine.counting = 1 := by
          rw [counting, hsettled.countP_eq_toNat locked_of_isCounting hthread (by rw [hphase]; rfl),
            hphase]
          rfl
        have hsuccesses := hledger.successes
        rw [hcalls, Loader.successes_succ, hload, hone] at hsuccesses
        exact Nat.add_right_cancel hsuccesses
  | @stored _ thread loaded hthread hphase hthreads hcache hrecords =>
    have hhand : loader.Brought machine.cache.calls loaded := by
      apply h.sees thread (List.mem_of_getElem? hthread)
      left
      rw [hphase]
      rfl
    refine h.of_set hthread hthreads (Nat.le_of_eq (by rw [hcache])) ?_ ?_
    · intro other hslot
      rw [hcache] at hslot ⊢
      rw [← Option.some.inj hslot]
      exact hhand
    · intro other hshown
      rw [hcache, ← Option.some.inj hshown]
      exact hhand
  | cleared hthread hphase hthreads hcache hrecords =>
    refine h.of_set hthread hthreads (Nat.le_of_eq (by rw [hcache])) ?_ ?_
    · intro loaded hslot
      rw [hcache] at hslot
      cases hslot
    · intro loaded hshown
      cases hshown

/-- Without evictions the loader has brought nothing as long as it is about to be called. -/
theorem Ledger.none_of_loading (h : Ledger loader 0 machine)
    (hsettled : Settled loader machine settled) (hthread : machine.threads[t]? = some thread)
    (hphase : thread.phase = .loading) :
    ∀ k < machine.cache.calls, ∀ list, loader k ≠ .list list := by
  rw [← Loader.successes_eq_zero_iff]
  have hlocked : thread.phase.isLocked = true := by rw [hphase]; rfl
  have hcounting : machine.counting = 0 := by
    rw [counting, hsettled.countP_eq_toNat locked_of_isCounting hthread hlocked, hphase]
    rfl
  have hstoring : machine.storing = 0 := by
    rw [storing, hsettled.countP_eq_toNat locked_of_isStoring hthread hlocked, hphase]
    rfl
  have hempty : machine.cache.isLoaded.toNat = 0 := by
    rw [Cache.isLoaded, hsettled.slot_of_loading hthread hphase]
    rfl
  have hloads := h.loads
  have hsuccesses := h.successes
  omega

theorem Undisturbed.of_set {phase : Phase} (h : Undisturbed loader machine)
    (hthread : machine.threads[t]? = some thread) (hcall : thread.phase.call? = some .get)
    (hthreads : next.threads = machine.threads.set t { thread with phase := phase })
    (hphase : phase.call? = some .get)
    (hlast : ∀ k < next.cache.calls, ∀ list, loader k = .list list → k + 1 = next.cache.calls) :
    Undisturbed loader next := by
  refine ⟨forall_threads_set hthreads h.unfinished ?_, hlast⟩
  have hsame := h.unfinished thread (List.mem_of_getElem? hthread)
  rw [Thread.unfinished, hcall] at hsame
  rw [Thread.unfinished, hphase]
  exact hsame

/-- Who evicts has not finished an eviction. -/
theorem Undisturbed.phase_ne (h : Undisturbed loader machine)
    (hthread : machine.threads[t]? = some thread) : thread.phase ≠ .evicting := by
  intro hphase
  apply h.unfinished thread (List.mem_of_getElem? hthread)
  rw [Thread.unfinished, hphase]
  exact List.mem_cons_self

theorem Undisturbed.not_evicts (h : Undisturbed loader machine) (t : Nat) :
    machine.evicts t = false := by
  apply evicts_of_ne
  unfold phaseOf
  cases hthread : machine.threads[t]? with
  | none => simp
  | some thread => exact h.phase_ne hthread

/-- **The call that brings the list is the last one.** -/
theorem Undisturbed.tick (h : Undisturbed loader machine) (hledger : Ledger loader 0 machine)
    (hsettled : Settled loader machine settled) (htick : Tick loader t machine next) :
    Undisturbed loader next := by
  cases htick with
  | still => exact h
  | @aside _ thread _ hthread hthreads haside hcache hrecords =>
    refine ⟨forall_threads_set hthreads h.unfinished ?_, ?_⟩
    · intro hevict
      exact h.unfinished thread (List.mem_of_getElem? hthread) (haside.unfinished hevict)
    · rw [hcache]
      exact h.last
  | failed hthread hphase hload hthreads hcache hrecords =>
    refine h.of_set hthread (by rw [hphase]; rfl) hthreads rfl ?_
    rw [hcache]
    intro k hk list hlist
    rcases Nat.lt_succ_iff_lt_or_eq.mp hk with hbefore | hnow
    · exact absurd hlist (hledger.none_of_loading hsettled hthread hphase k hbefore list)
    · rw [← hnow, hlist] at hload
      cases hload
  | brought hthread hphase hload hthreads hcache hrecords =>
    refine h.of_set hthread (by rw [hphase]; rfl) hthreads rfl ?_
    rw [hcache]
    intro k hk list hlist
    rcases Nat.lt_succ_iff_lt_or_eq.mp hk with hbefore | hnow
    · exact absurd hlist (hledger.none_of_loading hsettled hthread hphase k hbefore list)
    · rw [hnow]
  | counted hthread hphase hthreads hcache hrecords =>
    refine h.of_set hthread (by rw [hphase]; rfl) hthreads rfl ?_
    rw [hcache]
    exact h.last
  | stored hthread hphase hthreads hcache hrecords =>
    refine h.of_set hthread (by rw [hphase]; rfl) hthreads rfl ?_
    rw [hcache]
    exact h.last
  | cleared hthread hphase hthreads hcache hrecords => exact absurd hphase (h.phase_ne hthread)

end OneStep

/-- The books of a run that has evicted `found` lists. -/
structure Accounted (loader : Loader) (found : Nat) (machine : Machine) : Prop where
  settled : ∃ settled, Settled loader machine settled
  ledger : Ledger loader found machine
  genuine : Genuine loader machine

section Run

variable {loader : Loader} {machine : Machine} {found : Nat}

theorem accounted_start (loader : Loader) (programs : List (List CacheCall)) :
    Accounted loader 0 (start .empty programs) := by
  have hidle : ∀ thread ∈ (start .empty programs).threads,
      thread.phase = .idle ∧ thread.answers = [] := by
    intro thread hthread
    obtain ⟨program, _, rfl⟩ := List.mem_map.mp hthread
    exact ⟨rfl, rfl⟩
  have hstoring : (start .empty programs).storing = 0 := by
    rw [storing, List.countP_eq_zero]
    intro thread hthread
    rw [(hidle thread hthread).1]
    simp [Phase.isStoring]
  have hcounting : (start .empty programs).counting = 0 := by
    rw [counting, List.countP_eq_zero]
    intro thread hthread
    rw [(hidle thread hthread).1]
    simp [Phase.isCounting]
  refine ⟨⟨_, settled_start loader .empty programs⟩, ⟨?_, ?_, rfl⟩, ⟨?_, ?_⟩⟩
  · rw [hstoring]
    rfl
  · rw [hcounting]
    rfl
  · intro loaded hslot
    cases hslot
  · intro thread hthread loaded hsees
    obtain ⟨hphase, hanswers⟩ := hidle thread hthread
    rw [Thread.Sees, hphase, hanswers] at hsees
    rcases hsees with hnow | hgiven
    · cases hnow
    · cases hgiven

theorem Accounted.step (h : Accounted loader found machine) (t : Nat) :
    Accounted loader (found + (machine.evicts t).toNat) (machine.step loader t) := by
  obtain ⟨⟨settled, hsettled⟩, hledger, hgenuine⟩ := h
  have htick := tick_step loader machine t
  obtain ⟨settled', _, hsettled'⟩ := advances_step hsettled t
  exact ⟨⟨settled', hsettled'⟩, hledger.tick hsettled htick, hgenuine.tick hledger hsettled htick⟩

/-- **The books of a whole run.** -/
theorem Accounted.run (h : Accounted loader found machine) (schedule : List Nat) :
    Accounted loader (found + evictionsFound loader machine schedule)
      (machine.run loader schedule) := by
  induction schedule generalizing found machine with
  | nil => exact h
  | cons t schedule ih =>
    have hrest := ih (h.step t)
    rw [Nat.add_assoc] at hrest
    exact hrest

theorem undisturbed_start (loader : Loader) {programs : List (List CacheCall)}
    (h : ∀ program ∈ programs, .evict ∉ program) :
    Undisturbed loader (start .empty programs) := by
  constructor
  · intro thread hthread
    obtain ⟨program, hprogram, rfl⟩ := List.mem_map.mp hthread
    exact h program hprogram
  · intro k hk
    cases hk

theorem Undisturbed.run (h : Undisturbed loader machine) (haccounted : Accounted loader 0 machine)
    (schedule : List Nat) : Undisturbed loader (machine.run loader schedule) := by
  induction schedule generalizing machine with
  | nil => exact h
  | cons t schedule ih =>
    obtain ⟨settled, hsettled⟩ := haccounted.settled
    have hstep := haccounted.step t
    rw [h.not_evicts t] at hstep
    exact ih (h.tick haccounted.ledger hsettled (tick_step loader machine t)) hstep

/-- Without evictions one list is brought at most. -/
theorem Undisturbed.successes_le_one (h : Undisturbed loader machine) :
    loader.successes machine.cache.calls ≤ 1 := by
  have hlast := h.last
  cases hcalls : machine.cache.calls with
  | zero => exact Nat.zero_le _
  | succ n =>
    have hnone : loader.successes n = 0 := by
      rw [Loader.successes_eq_zero_iff]
      intro k hk list hlist
      have := hlast k (by omega) list hlist
      omega
    rw [Loader.successes_succ, hnone]
    have := Bool.toNat_le (loader n).reply?.isNone
    omega

/-- Without evictions all who are given a list are given the one that was brought. -/
theorem Undisturbed.eq_of_brought (h : Undisturbed loader machine) {k : Nat} {list : WordList}
    (hk : k < machine.cache.calls) (hlist : loader k = .list list) {loaded : Loaded}
    (hbrought : loader.Brought machine.cache.calls loaded) : loaded = ⟨0, list⟩ := by
  obtain ⟨j, hj, hload, hserial⟩ := hbrought
  have hsame : j + 1 = k + 1 := (h.last j hj _ hload).trans (h.last k hk list hlist).symm
  obtain rfl := Nat.succ.inj hsame
  have hone := h.successes_le_one
  rw [← h.last j hj _ hload, Loader.successes_succ, hload, hserial] at hone
  have hzero : loaded.serial = 0 := Nat.le_zero.mp (Nat.le_of_succ_le_succ hone)
  have hwords : loaded.list = list := LoadResult.list.inj (hload.symm.trans hlist)
  rw [← hzero, ← hwords]

end Run

/-- **Every load is accounted for,** whatever the loader brings, however many threads there are,
whatever they call, and wherever the run is stopped.  No two threads are between taking the lock
and giving it back, which is where the loader is called.  What is about to be stored overwrites
nothing.  The loads are the evictions that found a list, and one more if there is a list in the
slot, and one more if a list was counted that is not there yet.  Each list that the loader brought
is counted once and logged once, the first differently from the others.  And if nobody evicts, the
loader is not called again after it has brought a list, and everybody is given that list. -/
theorem load_accounting (loader : Loader) (programs : List (List CacheCall))
    (schedule : List Nat) :
    let machine := (start .empty programs).run loader schedule
    let cache := machine.cache
    (∀ t u, (machine.phaseOf t).isLocked = true → (machine.phaseOf u).isLocked = true → t = u) ∧
    (∀ t loaded, machine.phaseOf t = .storing loaded → cache.slot = none) ∧
    cache.loads = evictionsFound loader (start .empty programs) schedule +
      cache.isLoaded.toNat + (machine.threads.any fun thread => thread.phase.isStoring).toNat ∧
    loader.successes cache.calls =
      cache.loads + (machine.threads.any fun thread => thread.phase.isCounting).toNat ∧
    machine.records.filter Cache.isLoadRecord =
      (List.range cache.loads).map (Cache.loadRecord · WordList.size) ∧
    (∀ earlier, (Cache.loadRecord earlier WordList.size).message =
      if earlier = 0 then "Cache: word list loaded (2048 entries)"
      else "Cache: word list reloaded (2048 entries)") ∧
    ((∀ program ∈ programs, .evict ∉ program) →
      loader.successes cache.calls ≤ 1 ∧
      (∀ k < cache.calls, ∀ list, loader k = .list list →
        k + 1 = cache.calls ∧ ∀ thread ∈ machine.threads, ∀ loaded,
          .got (.list loaded) ∈ thread.answers → loaded = ⟨0, list⟩) ∧
      ∀ thread ∈ machine.threads, ∀ loaded, .got (.list loaded) ∈ thread.answers →
        ∃ k < cache.calls, loader k = .list loaded.list) := by
  intro machine cache
  have hstart := accounted_start loader programs
  obtain ⟨⟨settled, hsettled⟩, hledger, hgenuine⟩ := hstart.run schedule
  rw [Nat.zero_add] at hledger
  refine ⟨fun t u => hsettled.eq_of_locked, ?_, ?_, ?_, hledger.logged, ?_, ?_⟩
  · intro t loaded hphase
    cases hthread : machine.threads[t]? with
    | none =>
      rw [phaseOf, hthread] at hphase
      cases hphase
    | some thread =>
      rw [phaseOf_eq hthread] at hphase
      exact hsettled.slot_of_storing hthread hphase
  · rw [← hsettled.countP_eq locked_of_isStoring]
    exact hledger.loads
  · rw [← hsettled.countP_eq locked_of_isCounting]
    exact hledger.successes
  · intro earlier
    cases earlier <;> rfl
  · intro hnobody
    have hundisturbed := (undisturbed_start loader hnobody).run hstart schedule
    refine ⟨hundisturbed.successes_le_one, ?_, ?_⟩
    · intro k hk list hlist
      refine ⟨hundisturbed.last k hk list hlist, ?_⟩
      intro thread hthread loaded hgiven
      exact hundisturbed.eq_of_brought hk hlist (hgenuine.sees thread hthread loaded (.inr hgiven))
    · intro thread hthread loaded hgiven
      obtain ⟨k, hk, hlist, _⟩ := hgenuine.sees thread hthread loaded (.inr hgiven)
      exact ⟨k, hk, hlist⟩

/-- Three threads of which none evicts: the first call of the loader panics, the second fails
and the third brings the list, while others wait for the lock. -/
theorem load_accounting_unevicted :
    let loader : Loader := fun call =>
      [.panic, .failure (.internal "absent")].getD call (.list WordList.english)
    let programs : List (List CacheCall) := [[.get], [.get], [.get, .get]]
    let schedule :=
      [0, 1, 2, 0, 1, 2, 0, 0, 0, 0, 0, 1, 2, 1, 1, 1, 2, 1, 2, 1, 2, 2, 2, 2, 2, 2, 2, 2, 2, 2]
    let machine := (start .empty programs).run loader schedule
    machine.isDone = true ∧ 2 < machine.cache.calls ∧
      (∀ program ∈ programs, .evict ∉ program) ∧
      ∀ thread ∈ machine.threads, ∀ loaded, .got (.list loaded) ∈ thread.answers →
        loaded = ⟨0, WordList.english⟩ := by
  intro loader programs schedule
  have hdone : ((start .empty programs).run loader schedule).isDone = true := by decide +kernel
  have hcalls : 2 < ((start .empty programs).run loader schedule).cache.calls := by
    decide +kernel
  have hnobody : ∀ program ∈ programs, .evict ∉ program := by decide
  have hunevicted := (load_accounting loader programs schedule).2.2.2.2.2.2 hnobody
  exact ⟨hdone, hcalls, hnobody, (hunevicted.2.1 2 hcalls _ rfl).2⟩

end Machine

end SeedPhrase
