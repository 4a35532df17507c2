import SeedPhrase.Cache.Threads
import SeedPhrase.WordList.English

/-!
# A load that fails leaves nothing behind

When the loader fails or panics the caller is told, and that is all: whatever is asked of the
cache from then on is answered and logged as if the call had never been made.  The cache without
the call is not the same cache, for the loader was called once less, and a panic has poisoned the
lock.  But the number of calls only tells which outcome comes next, and a poisoned lock opens like
any other.

* `CacheRequest`, `Cache.serve`, `Cache.serveAll` — all that can be asked of a cache;
* `Loader.without` — a loader's outcomes without one of them;
* `Trails` — a cache that is one outcome ahead of another, and the same otherwise;
* `Trails.serveAll` — the two give the same answers and log the same, for ever;
* `run_failures`, `run_after_failures` — failures in a row, and the load that comes after them;
* `Machine.run_poison` — among many threads, too, the poison makes no difference;
* `failed_load_invisible` — what it comes to.
-/

namespace SeedPhrase

open Log (Logged)

/-- What can be asked of a cache, its state included. -/
inductive CacheRequest
  | call (call : CacheCall)
  | isLoaded
  | loadCount
deriving DecidableEq, Repr

/-- What a request comes back with. -/
inductive CacheResponse
  | answer (answer : CacheAnswer)
  | loaded (holds : Bool)
  | count (loads : Nat)
deriving DecidableEq

/-- The outcomes of a loader without the one with a given number. -/
def Loader.without (loader : Loader) (k : Nat) : Loader := fun call =>
  if call < k then loader call else loader (call + 1)

namespace Cache

/-- One request. -/
def serve (loader : Loader) (cache : Cache) : CacheRequest → Logged (CacheResponse × Cache)
  | .call call => do
    let (answer, next) ← cache.perform loader call
    return (.answer answer, next)
  | .isLoaded => return (.loaded cache.isLoaded, cache)
  | .loadCount => return (.count cache.loads, cache)

/-- Requests one after another, and their responses in order. -/
def serveAll (loader : Loader) : List CacheRequest → Cache → Logged (List CacheResponse × Cache)
  | [], cache => pure ([], cache)
  | request :: requests, cache => do
    let (response, next) ← cache.serve loader request
    let (responses, last) ← serveAll loader requests next
    return (response :: responses, last)

/-- One cache has had one more outcome of the loader than another, the one with number `k`,
and holds and has counted the same. -/
structure Trails (k : Nat) (ahead behind : Cache) : Prop where
  slot : ahead.slot = behind.slot
  loads : ahead.loads = behind.loads
  calls : ahead.calls = behind.calls + 1
  passed : k ≤ behind.calls

/-- The same was given and logged, and the one cache is still ahead of the other. -/
structure Alike {α : Type} (k : Nat) (ahead behind : Logged (α × Cache)) : Prop where
  value : ahead.value.1 = behind.value.1
  records : ahead.records = behind.records
  trails : Trails k ahead.value.2 behind.value.2

section OneRequest

variable (loader : Loader) {k : Nat} {ahead behind : Cache} (h : Trails k ahead behind)

include h

theorem Trails.load : loader.without k behind.calls = loader ahead.calls := by
  have hpassed := h.passed
  rw [Loader.without, if_neg (by omega), h.calls]

/-- **The next outcome is the same for both,** so that both come to hold the same list. -/
theorem Trails.get : Alike k (ahead.get loader) (behind.get (loader.without k)) := by
  have hcalls : ahead.calls + 1 = behind.calls + 1 + 1 := congrArg (· + 1) h.calls
  have hpassed : k ≤ behind.calls + 1 := Nat.le_succ_of_le h.passed
  cases hslot : behind.slot with
  | some loaded =>
    rw [get_of_loaded _ (h.slot.trans hslot), get_of_loaded _ hslot]
    exact ⟨rfl, rfl, h⟩
  | none =>
    rw [get_of_empty _ (h.slot.trans hslot), get_of_empty _ hslot, Cache.load, Cache.load,
      h.load loader]
    -- The loader was called once more for the one than for the other, and so it is afterwards.
    cases loader ahead.calls with
    | list list =>
      have hloaded : Loaded.mk ahead.loads list = ⟨behind.loads, list⟩ := by rw [h.loads]
      have hrecord : loadRecord ahead.loads list.length = loadRecord behind.loads list.length := by
        rw [h.loads]
      refine ⟨congrArg Reply.list hloaded, congrArg (fun record => [record] ++ []) hrecord, ?_⟩
      exact ⟨congrArg some hloaded, congrArg (· + 1) h.loads, hcalls, hpassed⟩
    | failure error => exact ⟨rfl, rfl, h.slot, h.loads, hcalls, hpassed⟩
    | panic => exact ⟨rfl, rfl, h.slot, h.loads, hcalls, hpassed⟩

/-- Both have the same list to forget, or none. -/
theorem Trails.evict : ahead.evict.records = behind.evict.records ∧
    Trails k ahead.evict.value behind.evict.value := by
  unfold Cache.evict
  rw [h.slot]
  cases behind.slot with
  | some loaded => exact ⟨rfl, rfl, h.loads, h.calls, h.passed⟩
  | none => exact ⟨rfl, h⟩

theorem Trails.perform (call : CacheCall) :
    Alike k (ahead.perform loader call) (behind.perform (loader.without k) call) := by
  cases call with
  | get =>
    obtain ⟨hvalue, hrecords, htrails⟩ := h.get loader
    refine ⟨congrArg CacheAnswer.got hvalue, ?_, htrails⟩
    simp [Cache.perform, hrecords]
  | evict =>
    obtain ⟨hrecords, htrails⟩ := h.evict
    refine ⟨rfl, ?_, htrails⟩
    simp [Cache.perform, hrecords]

theorem Trails.serve (request : CacheRequest) :
    Alike k (ahead.serve loader request) (behind.serve (loader.without k) request) := by
  cases request with
  | call call =>
    obtain ⟨hvalue, hrecords, htrails⟩ := h.perform loader call
    refine ⟨congrArg CacheResponse.answer hvalue, ?_, htrails⟩
    simp [Cache.serve, hrecords]
  | isLoaded =>
    refine ⟨?_, rfl, h⟩
    show CacheResponse.loaded ahead.slot.isSome = .loaded behind.slot.isSome
    rw [h.slot]
  | loadCount => exact ⟨congrArg CacheResponse.count h.loads, rfl, h⟩

omit h in
/-- **They never part.**  Whatever is asked, one request after another. -/
theorem Trails.serveAll (h : Trails k ahead behind) (requests : List CacheRequest) :
    Alike k (serveAll loader requests ahead) (serveAll (loader.without k) requests behind) := by
  induction requests generalizing ahead behind with
  | nil => exact ⟨rfl, rfl, h⟩
  | cons request requests ih =>
    obtain ⟨hfirst, hrecords, htrails⟩ := h.serve loader request
    obtain ⟨hrest, hlater, hlast⟩ := ih htrails
    refine ⟨?_, ?_, hlast⟩
    · show _ :: _ = _ :: _
      rw [hfirst, hrest]
    · show _ ++ (_ ++ []) = _ ++ (_ ++ [])
      rw [hrecords, hlater]

end OneRequest

/-- The cache after a call of the loader that brought no list, and the same cache without
the call. -/
theorem trails_get {loader : Loader} {cache : Cache} {reply : Reply} (hslot : cache.slot = none)
    (hfail : (loader cache.calls).reply? = some reply) :
    (cache.get loader).value.1 = reply ∧
      Trails cache.calls (cache.get loader).value.2 cache := by
  rw [get_of_empty loader hslot, load]
  cases hload : loader cache.calls with
  | list list =>
    rw [hload] at hfail
    cases hfail
  | failure error =>
    rw [hload] at hfail
    exact ⟨Option.some.inj hfail, rfl, rfl, rfl, Nat.le_refl _⟩
  | panic =>
    rw [hload] at hfail
    exact ⟨Option.some.inj hfail, rfl, rfl, rfl, Nat.le_refl _⟩

section InARow

variable {loader : Loader} {cache : Cache} {n : Nat}

/-- Failures in a row leave the slot empty, and use up an outcome each. -/
theorem run_failures (hslot : cache.slot = none)
    (hfail : ∀ i < n, ∀ list, loader (cache.calls + i) ≠ .list list) :
    let run := (cache.run loader (List.replicate n .get)).value
    run.2.slot = none ∧ run.2.loads = cache.loads ∧ run.2.calls = cache.calls + n := by
  induction n generalizing cache with
  | zero => exact ⟨hslot, rfl, rfl⟩
  | succ n ih =>
    have hreply : (loader cache.calls).reply? ≠ none := by
      intro hnone
      obtain ⟨list, hlist⟩ := LoadResult.reply?_eq_none_iff.mp hnone
      exact hfail 0 (Nat.succ_pos n) list hlist
    obtain ⟨reply, hreply⟩ := Option.ne_none_iff_exists'.mp hreply
    obtain ⟨_, htrails⟩ := trails_get hslot hreply
    have hcalls := htrails.calls
    obtain ⟨hempty, hloads, hlast⟩ := ih (htrails.slot.trans hslot) fun i hi list => by
      rw [hcalls, Nat.add_assoc, Nat.add_comm 1 i]
      exact hfail (i + 1) (Nat.succ_lt_succ hi) list
    refine ⟨hempty, hloads.trans htrails.loads, hlast.trans ?_⟩
    rw [hcalls]
    omega

/-- A cache that holds a list gives it to everybody who asks. -/
theorem run_of_loaded {loaded : Loaded} (hslot : cache.slot = some loaded) (m : Nat) :
    cache.run loader (List.replicate m .get) =
      pure (List.replicate m (.got (.list loaded)), cache) := by
  induction m with
  | zero => rfl
  | succ m ih =>
    rw [List.replicate_succ, run, perform, get_of_loaded loader hslot]
    simp only [pure_bind, ih]
    rfl

/-- **The load after failures.**  The first outcome that is a list is loaded as it would have
been at once, and all who ask afterwards are given it. -/
theorem run_after_failures {list : WordList} (hslot : cache.slot = none)
    (hload : loader cache.calls = .list list) (m : Nat) :
    cache.run loader (List.replicate (m + 1) .get) =
      ⟨(List.replicate (m + 1) (.got (.list ⟨cache.loads, list⟩)), (cache.accept list).value.2),
        [loadRecord cache.loads list.length]⟩ := by
  have hget : cache.get loader =
      ⟨(.list ⟨cache.loads, list⟩, (cache.accept list).value.2),
        [loadRecord cache.loads list.length]⟩ := by
    rw [get_of_empty loader hslot, load, hload]
    rfl
  have hrest : (cache.accept list).value.2.run loader (List.replicate m .get) =
      pure (List.replicate m (.got (.list ⟨cache.loads, list⟩)), (cache.accept list).value.2) :=
    run_of_loaded rfl m
  rw [List.replicate_succ, run, perform, hget]
  apply Log.Logged.ext
  · simp only [Log.Logged.value_bind, Log.Logged.value_pure, hrest]
    rfl
  · simp only [Log.Logged.records_bind, Log.Logged.value_bind, Log.Logged.records_pure,
      Log.Logged.value_pure, hrest, List.append_nil]

end InARow

end Cache

namespace Machine

/-- The same threads with a poisoned lock. -/
def poison (machine : Machine) : Machine :=
  { machine with cache := { machine.cache with poisoned := true } }

/-- **The poison changes nothing.**  A step does the same, whether the lock is poisoned or
not. -/
theorem step_poison (loader : Loader) (machine : Machine) (t : Nat) :
    machine.poison.step loader t = (machine.step loader t).poison := by
  have hthreads : machine.poison.threads = machine.threads := rfl
  have hholder : machine.poison.holder = machine.holder := rfl
  have hslot : machine.poison.cache.slot = machine.cache.slot := rfl
  have hcalls : machine.poison.cache.calls = machine.cache.calls := rfl
  unfold step
  rw [hthreads]
  cases machine.threads[t]? with
  | none => rfl
  | some thread =>
    dsimp only
    cases thread.phase with
    | idle =>
      unfold begin
      cases thread.program <;> rfl
    | looking =>
      unfold look
      rw [hslot]
      cases machine.cache.slot <;> rfl
    | waiting =>
      -- Here the lock itself is looked at, and it opens.
      cases hfree : machine.holder with
      | some u => rw [lock_of_held (hholder.trans hfree), lock_of_held hfree]
      | none =>
        rw [lock_of_free (hholder.trans hfree), lock_of_free hfree]
        rfl
    | rechecking =>
      unfold look
      rw [hslot]
      cases machine.cache.slot <;> rfl
    | loading =>
      unfold load
      dsimp only
      rw [hcalls]
      cases loader machine.cache.calls <;> rfl
    | counting list => rfl
    | storing loaded => rfl
    | releasing reply => simp [unlock, poison, goto]
    | evicting =>
      unfold clear
      dsimp only
      rw [hslot]
      cases machine.cache.slot <;> rfl
    | answering answer => rfl

theorem run_poison (loader : Loader) (machine : Machine) (schedule : List Nat) :
    machine.poison.run loader schedule = (machine.run loader schedule).poison := by
  unfold run
  induction schedule generalizing machine with
  | nil => rfl
  | cons t schedule ih =>
    rw [List.foldl_cons, List.foldl_cons, step_poison]
    exact ih _

end Machine

namespace Cache

/-- **A failed load is invisible.**  The caller is given the error, or panics, the slot stays
empty and nothing is counted.  Whatever is asked from then on is answered and logged as by a cache
that was never asked, with a loader that lacks the failed outcome.  However many outcomes fail in
a row, the first one that does not is loaded and logged as it would have been at once, and kept;
and threads that use the cache do step by step the same, whether a panic poisoned the lock or
not. -/
theorem failed_load_invisible (loader : Loader) (cache : Cache) (reply : Reply)
    (hslot : cache.slot = none) (hfail : (loader cache.calls).reply? = some reply) :
    let failed := (cache.get loader).value.2
    ((cache.get loader).value.1 = reply ∧ failed.slot = none ∧ failed.loads = cache.loads ∧
      failed.calls = cache.calls + 1) ∧
    (∀ requests,
      (serveAll loader requests failed).value.1 =
          (serveAll (loader.without cache.calls) requests cache).value.1 ∧
        (serveAll loader requests failed).records =
          (serveAll (loader.without cache.calls) requests cache).records) ∧
    (∀ n list, (∀ i < n, ∀ other, loader (cache.calls + i) ≠ .list other) →
      loader (cache.calls + n) = .list list →
      ∀ m,
        let later := (cache.run loader (List.replicate n .get)).value.2.run loader
          (List.replicate (m + 1) .get)
        later.value.1 = List.replicate (m + 1) (.got (.list ⟨cache.loads, list⟩)) ∧
          later.value.2.slot = some ⟨cache.loads, list⟩ ∧
          later.value.2.loads = cache.loads + 1 ∧
          later.records = [loadRecord cache.loads WordList.size]) ∧
    ∀ (machine : Machine) (schedule : List Nat),
      machine.poison.run loader schedule = (machine.run loader schedule).poison := by
  intro failed
  obtain ⟨hreply, htrails⟩ := trails_get hslot hfail
  refine ⟨⟨hreply, htrails.slot.trans hslot, htrails.loads, htrails.calls⟩, fun requests => ?_,
    fun n list hfails hload m => ?_, Machine.run_poison loader⟩
  · have halike := htrails.serveAll loader requests
    exact ⟨halike.value, halike.records⟩
  · obtain ⟨hempty, hloads, hcalls⟩ := run_failures hslot hfails
    rw [← hcalls] at hload
    rw [run_after_failures hempty hload m]
    simp [accept, hloads]

/-- A list was loaded and forgotten, and the next call of the loader panics. -/
theorem failed_load_invisible_panic :
    let loader : Loader := fun call => if call = 1 then .panic else .list .english
    let cache := (Cache.empty.run loader [.get, .evict]).value.2
    cache.slot = none ∧ (loader cache.calls).reply? = some .panic ∧
      (cache.get loader).value.1 = .panic ∧
      (serveAll loader [.isLoaded, .call .get, .loadCount] (cache.get loader).value.2).value.1 =
        [.loaded false, .answer (.got (.list ⟨1, .english⟩)), .count 2] := by
  intro loader cache
  have hslot : cache.slot = none := rfl
  have hfail : (loader cache.calls).reply? = some .panic := rfl
  obtain ⟨⟨hreply, -⟩, hlater, -⟩ := failed_load_invisible loader cache .panic hslot hfail
  exact ⟨hslot, hfail, hreply, (hlater _).1.trans rfl⟩

end Cache

end SeedPhrase
