import SeedPhrase.Proofs.Cache.Tick

/-!
# Every load is accounted for

The number of loads, the slot and the log are changed in steps of their own, and readers and
evictors come in between.  Still the books balance after every single step, if one counts
what is under way: a list that was counted is in the slot, or was evicted from it, or is
still in the hand of the one thread that is about to put it there.

* `Loader.successes` — the lists among the first outcomes of a loader;
* `Settled.eq_of_locked`, `Settled.countP_eq_toNat` — there is one thread with the lock at
  most, and it is the only one that has a list on its way;
* `Settled.slot_of_storing` — nothing is overwritten;
* `Ledger` — the balance, and `Ledger.tick` that every step keeps it.
-/

namespace SeedPhrase

section Counting

variable {α : Type} {p : α → Bool} {l : List α}

/-- How many members satisfy a condition when one of them is exchanged. -/
theorem countP_set_add {i : Nat} {x : α} (h : l[i]? = some x) (y : α) :
    (l.set i y).countP p + (p x).toNat = l.countP p + (p y).toNat := by
  obtain ⟨hi, hx⟩ := List.getElem?_eq_some_iff.mp h
  rw [List.countP_set hi, hx]
  cases hpx : p x with
  | true =>
    have hpos : 0 < l.countP p := List.countP_pos_iff.mpr ⟨x, List.mem_of_getElem? h, hpx⟩
    cases p y <;> simp <;> omega
  | false => cases p y <;> simp

/-- A condition that is met at one place at most is met once or not at all. -/
theorem countP_eq_toNat_any
    (h : ∀ (i j : Nat) (x y : α), l[i]? = some x → l[j]? = some y → p x = true → p y = true →
      i = j) : l.countP p = (l.any p).toNat := by
  induction l with
  | nil => rfl
  | cons a l ih =>
    by_cases ha : p a = true
    · have hnone : l.countP p = 0 := by
        rw [List.countP_eq_zero]
        intro x hx hpx
        obtain ⟨j, hj⟩ := List.mem_iff_getElem?.mp hx
        have := h 0 (j + 1) a x rfl hj ha hpx
        omega
      simp [ha, hnone]
    · have hrest := ih fun i j x y hx hy hpx hpy => by
        have := h (i + 1) (j + 1) x y hx hy hpx hpy
        omega
      simp [ha, hrest]

end Counting

namespace Loader

variable (loader : Loader)

/-- How many of the first calls of a loader brought a list. -/
def successes (calls : Nat) : Nat :=
  (List.range calls).countP fun k => (loader k).reply?.isNone

variable {loader}

theorem successes_succ (calls : Nat) :
    loader.successes (calls + 1) =
      loader.successes calls + (loader calls).reply?.isNone.toNat := by
  rw [successes, List.range_succ, List.countP_append, successes]
  cases hreply : (loader calls).reply? <;> simp [hreply]

theorem successes_eq_zero_iff {calls : Nat} :
    loader.successes calls = 0 ↔ ∀ k < calls, ∀ list, loader k ≠ .list list := by
  rw [successes, List.countP_eq_zero]
  constructor
  · intro h k hk list hlist
    apply h k (List.mem_range.mpr hk)
    rw [Option.isNone_iff_eq_none, LoadResult.reply?_eq_none_iff]
    exact ⟨list, hlist⟩
  · intro h k hk hnone
    rw [Option.isNone_iff_eq_none, LoadResult.reply?_eq_none_iff] at hnone
    obtain ⟨list, hlist⟩ := hnone
    exact h k (List.mem_range.mp hk) list hlist

end Loader

/-- Whether a record is that of a load, the first or a later one. -/
def Cache.isLoadRecord (record : Log.Record) : Bool :=
  record = loadRecord 0 WordList.size || record = loadRecord 1 WordList.size

namespace Machine

/-- Whether the next step of a thread is an eviction that finds a list. -/
def evicts (machine : Machine) (t : Nat) : Bool :=
  machine.phaseOf t = .evicting && machine.cache.isLoaded

/-- How many threads have brought a list that is not counted yet. -/
def counting (machine : Machine) : Nat :=
  machine.threads.countP fun thread => thread.phase.isCounting

/-- How many threads have counted a list that is not in the slot yet. -/
def storing (machine : Machine) : Nat :=
  machine.threads.countP fun thread => thread.phase.isStoring

/-- The books balance: the loads were evicted, are in the slot or are on their way there; the
lists that the loader brought were counted or are about to be; and the log has one record for
each load, the first of which differs from the others. -/
structure Ledger (loader : Loader) (found : Nat) (machine : Machine) : Prop where
  loads : machine.cache.loads = found + machine.cache.isLoaded.toNat + machine.storing
  successes : loader.successes machine.cache.calls = machine.cache.loads + machine.counting
  logged : machine.records.filter Cache.isLoadRecord =
    (List.range machine.cache.loads).map (Cache.loadRecord · WordList.size)

section Exclusion

variable {loader : Loader} {machine : Machine} {settled : Cache} {t : Nat} {thread : Thread}
  (h : Settled loader machine settled)

include h

/-- **Nobody else is inside.**  Between taking the lock and giving it back there is one thread
at most. -/
theorem Settled.eq_of_locked {t u : Nat} (ht : (machine.phaseOf t).isLocked = true)
    (hu : (machine.phaseOf u).isLocked = true) : t = u := by
  have hholder := (h.locked t).mp ht
  rw [(h.locked u).mp hu] at hholder
  exact (Option.some.inj hholder).symm

/-- What only the thread with the lock can do is done by one thread at most. -/
theorem Settled.countP_eq {p : Phase → Bool} (hp : ∀ phase, p phase = true → phase.isLocked = true) :
    machine.threads.countP (fun thread => p thread.phase) =
      (machine.threads.any fun thread => p thread.phase).toNat := by
  apply countP_eq_toNat_any
  intro i j x y hx hy hpx hpy
  apply h.eq_of_locked
  · rw [phaseOf_eq hx]
    exact hp _ hpx
  · rw [phaseOf_eq hy]
    exact hp _ hpy

/-- While one thread is inside, no other is doing what takes the lock. -/
theorem Settled.countP_eq_toNat {p : Phase → Bool}
    (hp : ∀ phase, p phase = true → phase.isLocked = true)
    (hthread : machine.threads[t]? = some thread) (hlocked : thread.phase.isLocked = true) :
    machine.threads.countP (fun thread => p thread.phase) = (p thread.phase).toNat := by
  rw [h.countP_eq hp]
  congr 1
  rw [Bool.eq_iff_iff, List.any_eq_true]
  constructor
  · intro ⟨other, hother, hpother⟩
    obtain ⟨u, hu⟩ := List.mem_iff_getElem?.mp hother
    have hsame : u = t := by
      apply h.eq_of_locked
      · rw [phaseOf_eq hu]
        exact hp _ hpother
      · rw [phaseOf_eq hthread]
        exact hlocked
    rw [hsame, hthread] at hu
    rw [Option.some.inj hu]
    exact hpother
  · intro hpthread
    exact ⟨thread, List.mem_of_getElem? hthread, hpthread⟩

end Exclusion

theorem locked_of_isCounting (phase : Phase) (h : phase.isCounting = true) :
    phase.isLocked = true := by
  cases phase with
  | counting list => rfl
  | _ => cases h

theorem locked_of_isStoring (phase : Phase) (h : phase.isStoring = true) :
    phase.isLocked = true := by
  cases phase with
  | storing loaded => rfl
  | _ => cases h

section OneStep

variable {loader : Loader} {machine next : Machine} {settled : Cache} {found t : Nat}
  {thread : Thread}

/-- The slot is empty while a list is on its way there: nothing is overwritten. -/
theorem Settled.slot_of_storing (h : Settled loader machine settled)
    (hthread : machine.threads[t]? = some thread) {loaded : Loaded}
    (hphase : thread.phase = .storing loaded) : machine.cache.slot = none := by
  have hleads := h.leads_of_locked hthread (by rw [hphase]; rfl)
  rw [hleads.slot_eq]
  rw [hphase] at hleads
  exact hleads.1

/-- Whoever is about to call the loader has found the slot empty. -/
theorem Settled.slot_of_loading (h : Settled loader machine settled)
    (hthread : machine.threads[t]? = some thread) (hphase : thread.phase = .loading) :
    machine.cache.slot = none := by
  have hleads := h.leads_of_locked hthread (by rw [hphase]; rfl)
  rw [hleads.slot_eq]
  rw [hphase] at hleads
  exact hleads.1

/-- A list that is not counted yet was brought by the last call. -/
theorem Settled.load_of_counting (h : Settled loader machine settled)
    (hthread : machine.threads[t]? = some thread) {list : WordList}
    (hphase : thread.phase = .counting list) :
    ∃ k, machine.cache.calls = k + 1 ∧ loader k = .list list := by
  have hleads := h.leads_of_locked hthread (by rw [hphase]; rfl)
  rw [hphase] at hleads
  obtain ⟨_, hload, hcache⟩ := hleads
  exact ⟨settled.calls, by rw [hcache], hload⟩

theorem evicts_of_ne (hphase : machine.phaseOf t ≠ .evicting) : machine.evicts t = false := by
  simp [evicts, hphase]

section Numbers

variable {phase : Phase} {thread' : Thread} (hthread : machine.threads[t]? = some thread)
  (hphase : thread.phase = phase) (hthreads : next.threads = machine.threads.set t thread')

include hthread hphase hthreads

theorem counting_set : next.counting + phase.isCounting.toNat =
    machine.counting + thread'.phase.isCounting.toNat := by
  rw [counting, hthreads, ← hphase]
  exact countP_set_add (p := fun thread => thread.phase.isCounting) hthread thread'

theorem storing_set : next.storing + phase.isStoring.toNat =
    machine.storing + thread'.phase.isStoring.toNat := by
  rw [storing, hthreads, ← hphase]
  exact countP_set_add (p := fun thread => thread.phase.isStoring) hthread thread'

end Numbers

theorem filter_append_other {records : List Log.Record} {record : Log.Record}
    (h : Cache.isLoadRecord record = false) :
    (records ++ [record]).filter Cache.isLoadRecord = records.filter Cache.isLoadRecord := by
  rw [List.filter_append, List.filter_cons_of_neg (by rw [h]; decide), List.filter_nil,
    List.append_nil]

theorem isLoadRecord_loadRecord (earlier : Nat) :
    Cache.isLoadRecord (Cache.loadRecord earlier WordList.size) = true := by
  cases earlier with
  | zero => rfl
  | succ n => simp [Cache.isLoadRecord, Cache.loadRecord]

/-- Only an eviction of a list that is there lowers what is in the slot or on its way. -/
theorem Tick.loads_eq (htick : Tick loader t machine next)
    (hsettled : Settled loader machine settled)
    (h : machine.cache.loads = found + machine.cache.isLoaded.toNat + machine.storing) :
    next.cache.loads =
      found + (machine.evicts t).toNat + next.cache.isLoaded.toNat + next.storing := by
  have hnot {thread : Thread} (hthread : machine.threads[t]? = some thread)
      (hphase : thread.phase ≠ .evicting) : (machine.evicts t).toNat = 0 := by
    rw [evicts_of_ne (phaseOf_eq hthread ▸ hphase)]
    rfl
  cases htick with
  | still hphase =>
    rw [evicts_of_ne hphase]
    exact h
  | @aside _ _ _ hthread hthreads haside hcache hrecords =>
    have hstoring := storing_set hthread rfl hthreads
    rw [haside.storing] at hstoring
    rw [hcache, hnot hthread haside.evicting, Nat.add_right_cancel hstoring]
    exact h
  | failed hthread hphase hload hthreads hcache hrecords =>
    have hstoring := storing_set hthread hphase hthreads
    rw [hcache, hnot hthread (by rw [hphase]; simp), Nat.add_right_cancel hstoring]
    exact h
  | brought hthread hphase hload hthreads hcache hrecords =>
    have hstoring := storing_set hthread hphase hthreads
    rw [hcache, hnot hthread (by rw [hphase]; simp), Nat.add_right_cancel hstoring]
    exact h
  | counted hthread hphase hthreads hcache hrecords =>
    have hmore : next.storing = machine.storing + 1 := storing_set hthread hphase hthreads
    rw [hcache, hnot hthread (by rw [hphase]; simp), hmore]
    show machine.cache.loads + 1 = found + 0 + machine.cache.isLoaded.toNat + _
    omega
  | stored hthread hphase hthreads hcache hrecords =>
    have hless : next.storing + 1 = machine.storing := storing_set hthread hphase hthreads
    have hempty : machine.cache.isLoaded.toNat = 0 := by
      rw [Cache.isLoaded, hsettled.slot_of_storing hthread hphase]
      rfl
    rw [hcache, hnot hthread (by rw [hphase]; simp)]
    show machine.cache.loads = found + 0 + 1 + next.storing
    omega
  | cleared hthread hphase hthreads hcache hrecords =>
    have hstoring := storing_set hthread hphase hthreads
    have hevicts : machine.evicts t = machine.cache.isLoaded := by
      rw [evicts, phaseOf_eq hthread, hphase]
      simp
    rw [hcache, hevicts, Nat.add_right_cancel hstoring]
    exact h

/-- A list that the loader brings is about to be counted, and then it is. -/
theorem Tick.successes_eq (htick : Tick loader t machine next)
    (h : loader.successes machine.cache.calls = machine.cache.loads + machine.counting) :
    loader.successes next.cache.calls = next.cache.loads + next.counting := by
  cases htick with
  | still => exact h
  | aside hthread hthreads haside hcache hrecords =>
    have hcounting := counting_set hthread rfl hthreads
    rw [haside.counting] at hcounting
    rw [hcache, Nat.add_right_cancel hcounting]
    exact h
  | failed hthread hphase hload hthreads hcache hrecords =>
    have hcounting := counting_set hthread hphase hthreads
    rw [hcache, Loader.successes_succ, hload, Nat.add_right_cancel hcounting]
    exact h
  | brought hthread hphase hload hthreads hcache hrecords =>
    have hmore : next.counting = machine.counting + 1 := counting_set hthread hphase hthreads
    rw [hcache, Loader.successes_succ, hload, hmore, h]
    rfl
  | counted hthread hphase hthreads hcache hrecords =>
    have hless : next.counting + 1 = machine.counting := counting_set hthread hphase hthreads
    rw [hcache]
    show loader.successes machine.cache.calls = machine.cache.loads + 1 + next.counting
    omega
  | stored hthread hphase hthreads hcache hrecords =>
    have hcounting := counting_set hthread hphase hthreads
    rw [hcache, Nat.add_right_cancel hcounting]
    exact h
  | cleared hthread hphase hthreads hcache hrecords =>
    have hcounting := counting_set hthread hphase hthreads
    rw [hcache, Nat.add_right_cancel hcounting]
    exact h

/-- A load is logged when it is counted, and nothing else is logged like that. -/
theorem Tick.logged_eq (htick : Tick loader t machine next)
    (h : machine.records.filter Cache.isLoadRecord =
      (List.range machine.cache.loads).map (Cache.loadRecord · WordList.size)) :
    next.records.filter Cache.isLoadRecord =
      (List.range next.cache.loads).map (Cache.loadRecord · WordList.size) := by
  cases htick with
  | still => exact h
  | aside hthread hthreads haside hcache hrecords =>
    rw [hrecords, hcache]
    exact h
  | failed hthread hphase hload hthreads hcache hrecords =>
    rw [hcache]
    rcases hrecords with hsame | hfailure
    · rw [hsame]
      exact h
    · rw [hfailure, filter_append_other rfl]
      exact h
  | brought hthread hphase hload hthreads hcache hrecords =>
    rw [hrecords, hcache]
    exact h
  | counted hthread hphase hthreads hcache hrecords =>
    rw [hrecords, hcache, List.filter_append, h, List.range_succ, List.map_append,
      List.filter_cons_of_pos (isLoadRecord_loadRecord _)]
    rfl
  | stored hthread hphase hthreads hcache hrecords =>
    rw [hrecords, hcache]
    exact h
  | cleared hthread hphase hthreads hcache hrecords =>
    rw [hrecords, hcache]
    split
    · rw [filter_append_other rfl]
      exact h
    · rw [List.append_nil]
      exact h

/-- **Every step keeps the balance.** -/
theorem Ledger.tick (h : Ledger loader found machine) (hsettled : Settled loader machine settled)
    (htick : Tick loader t machine next) :
    Ledger loader (found + (machine.evicts t).toNat) next :=
  ⟨htick.loads_eq hsettled h.loads, htick.successes_eq h.successes, htick.logged_eq h.logged⟩

end OneStep

end Machine

end SeedPhrase
