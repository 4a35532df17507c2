import SeedPhrase.Cache.Threads

/-!
# When a call takes effect

A call on a shared cache takes many steps, but there is one of them at which it takes
effect: before it nobody can tell that the call was made, and after it the answer is
fixed.  For a call that finds the list it is the look that finds it, for one that loads
it is the filling of the slot, for one whose load fails it is the call of the loader,
and for one that forgets the list it is the emptying of the slot.

The *settled* cache is what the calls that have taken effect, made one after another,
leave behind.  The cache itself runs ahead of it, by no more than the thread with the
lock has done since it found the slot empty.

* `Phase.call?`, `Phase.effect?` — the call that is under way, and its answer once it
  has taken effect;
* `Phase.Leads` — how far the cache is ahead in each phase of the thread with the lock;
* `Machine.Settled` — the invariant: there is one thread with the lock at most, and the
  cache is ahead by what that thread has done;
* `Settled.outside`, `Settled.inside`, `Settled.taken`, `Settled.given` — what it takes for
  a step to keep it, by what the step does with the lock.
-/

namespace SeedPhrase

namespace Phase

/-- The call that is under way. -/
def call? : Phase → Option CacheCall
  | idle => none
  | evicting => some .evict
  | answering .evicted => some .evict
  | _ => some .get

/-- The answer of the call that is under way, once it has taken effect. -/
def effect? : Phase → Option CacheAnswer
  | releasing reply => some (.got reply)
  | answering answer => some answer
  | _ => none

/-- Whether a thread has the lock. -/
def isLocked : Phase → Bool
  | rechecking => true
  | loading => true
  | counting _ => true
  | storing _ => true
  | releasing _ => true
  | _ => false

/-- How a cache is ahead of the settled one while the thread with the lock is in a phase. -/
def Leads (loader : Loader) (phase : Phase) (cache settled : Cache) : Prop :=
  match phase with
  | loading => settled.slot = none ∧ cache = settled
  | counting list =>
    settled.slot = none ∧ loader settled.calls = .list list ∧
      cache = { settled with calls := settled.calls + 1 }
  | storing loaded =>
    settled.slot = none ∧ loader settled.calls = .list loaded.list ∧
      loaded.serial = settled.loads ∧
      cache = { settled with loads := settled.loads + 1, calls := settled.calls + 1 }
  | releasing .panic => settled = { cache with poisoned := true }
  | _ => cache = settled

variable {loader : Loader} {cache settled : Cache}

/-- What the slot holds is settled at any time. -/
theorem Leads.slot_eq {phase : Phase} (h : phase.Leads loader cache settled) :
    cache.slot = settled.slot := by
  unfold Leads at h
  split at h
  · rw [h.2]
  · rw [h.2.2]
  · rw [h.2.2.2]
  · rw [h]
  · rw [h]

/-- Emptying the slot makes no difference to how far a cache is ahead. -/
theorem Leads.clear {phase : Phase} (h : phase.Leads loader cache settled) :
    phase.Leads loader { cache with slot := none } { settled with slot := none } := by
  unfold Leads at h ⊢
  split at h
  · exact ⟨rfl, by rw [h.2]⟩
  · exact ⟨rfl, h.2.1, by rw [h.2.2]⟩
  · exact ⟨rfl, h.2.1, h.2.2.1, by rw [h.2.2.2]⟩
  · rw [h]
  · rw [h]

end Phase

namespace Machine

/-- Where a thread stands; threads that there are not stand idle. -/
def phaseOf (machine : Machine) (t : Nat) : Phase :=
  match machine.threads[t]? with
  | some thread => thread.phase
  | none => .idle

/-- Where the thread with the lock stands, if there is one. -/
def underLock (machine : Machine) : Phase :=
  match machine.holder with
  | some t => machine.phaseOf t
  | none => .idle

/-- The lock is had by the thread that is in a phase with the lock, and the cache is ahead of
the settled one as that phase says. -/
structure Settled (loader : Loader) (machine : Machine) (settled : Cache) : Prop where
  locked : ∀ t, (machine.phaseOf t).isLocked = true ↔ machine.holder = some t
  leads : machine.underLock.Leads loader machine.cache settled

/-- A thread that there is stands where it says. -/
theorem phaseOf_eq {machine : Machine} {t : Nat} {thread : Thread}
    (h : machine.threads[t]? = some thread) : machine.phaseOf t = thread.phase := by
  rw [phaseOf, h]

/-- Nobody has the lock before the first step, and nothing is ahead. -/
theorem settled_start (loader : Loader) (cache : Cache) (programs : List (List CacheCall)) :
    Settled loader (start cache programs) cache := by
  constructor
  · intro t
    have hidle : (start cache programs).phaseOf t = .idle := by
      unfold phaseOf start
      cases hthread : (programs.map Thread.ofProgram)[t]? with
      | none => rfl
      | some thread =>
        obtain ⟨program, _, rfl⟩ := List.mem_map.mp (List.mem_of_getElem? hthread)
        rfl
    rw [hidle]
    simp [Phase.isLocked, start]
  · rfl

section OneThread

variable {loader : Loader} {machine next : Machine} {settled settled' : Cache} {t : Nat}
  {thread thread' : Thread} (hthread : machine.threads[t]? = some thread)
  (hthreads : next.threads = machine.threads.set t thread')

include hthread hthreads

theorem phaseOf_self : next.phaseOf t = thread'.phase := by
  obtain ⟨ht, _⟩ := List.getElem?_eq_some_iff.mp hthread
  apply phaseOf_eq
  rw [hthreads, List.getElem?_set_self ht]

omit hthread in
theorem phaseOf_other {u : Nat} (hne : u ≠ t) : next.phaseOf u = machine.phaseOf u := by
  unfold phaseOf
  rw [hthreads, List.getElem?_set_ne (Ne.symm hne)]

/-- A step of a thread that neither had the lock nor takes it. -/
theorem Settled.outside (h : Settled loader machine settled)
    (hholder : next.holder = machine.holder) (hbefore : thread.phase.isLocked = false)
    (hafter : thread'.phase.isLocked = false)
    (hleads : ∀ phase : Phase, phase.Leads loader machine.cache settled →
      phase.Leads loader next.cache settled') : Settled loader next settled' := by
  have hother : machine.holder ≠ some t := by
    intro hmine
    have hlocked := (h.locked t).mpr hmine
    rw [phaseOf_eq hthread, hbefore] at hlocked
    cases hlocked
  have hunder : next.underLock = machine.underLock := by
    unfold underLock
    rw [hholder]
    cases hheld : machine.holder with
    | none => rfl
    | some u =>
      have hne : u ≠ t := by
        intro heq
        exact hother (heq ▸ hheld)
      exact phaseOf_other hthreads hne
  constructor
  · intro u
    rw [hholder]
    by_cases heq : u = t
    · rw [heq, phaseOf_self hthread hthreads, hafter]
      simp [hother]
    · rw [phaseOf_other hthreads heq]
      exact h.locked u
  · rw [hunder]
    exact hleads _ h.leads

/-- A step of the thread with the lock that keeps the lock. -/
theorem Settled.inside (h : Settled loader machine settled)
    (hholder : next.holder = machine.holder) (hbefore : thread.phase.isLocked = true)
    (hafter : thread'.phase.isLocked = true)
    (hleads : thread'.phase.Leads loader next.cache settled') : Settled loader next settled' := by
  have hmine : machine.holder = some t := by
    rw [← h.locked t, phaseOf_eq hthread, hbefore]
  constructor
  · intro u
    rw [hholder]
    by_cases heq : u = t
    · rw [heq, phaseOf_self hthread hthreads, hafter, hmine]
      simp
    · rw [phaseOf_other hthreads heq]
      exact h.locked u
  · rw [underLock, hholder, hmine]
    show (next.phaseOf t).Leads loader next.cache settled'
    rw [phaseOf_self hthread hthreads]
    exact hleads

/-- A step that takes the lock. -/
theorem Settled.taken (h : Settled loader machine settled) (hfree : machine.holder = none)
    (hholder : next.holder = some t) (hafter : thread'.phase.isLocked = true)
    (hleads : thread'.phase.Leads loader next.cache settled') : Settled loader next settled' := by
  constructor
  · intro u
    rw [hholder]
    by_cases heq : u = t
    · rw [heq, phaseOf_self hthread hthreads, hafter]
      simp
    · rw [phaseOf_other hthreads heq, h.locked u, hfree]
      simp [Ne.symm heq]
  · rw [underLock, hholder]
    show (next.phaseOf t).Leads loader next.cache settled'
    rw [phaseOf_self hthread hthreads]
    exact hleads

/-- A step that gives the lock back. -/
theorem Settled.given (h : Settled loader machine settled) (hholder : next.holder = none)
    (hbefore : thread.phase.isLocked = true) (hafter : thread'.phase.isLocked = false)
    (hcache : next.cache = settled') : Settled loader next settled' := by
  have hmine : machine.holder = some t := by
    rw [← h.locked t, phaseOf_eq hthread, hbefore]
  constructor
  · intro u
    rw [hholder]
    by_cases heq : u = t
    · rw [heq, phaseOf_self hthread hthreads, hafter]
      simp
    · rw [phaseOf_other hthreads heq, h.locked u, hmine]
      simp [Ne.symm heq]
  · unfold underLock
    rw [hholder]
    exact hcache

end OneThread

end Machine

end SeedPhrase
