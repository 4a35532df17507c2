import SeedPhrase.Log.Logged
import SeedPhrase.WordList.Basic

/-!
# A list that is loaded when it is needed

A cache holds a word list or nothing.  Asked for the list it hands out the one it
holds; holding none, it calls its loader and keeps what the loader brings.  It can
be told to forget the list, which does not disturb those who were given it.  A load
that fails leaves nothing behind: the caller gets the error, and the next caller
tries again.

The loader is called under a lock.  A loader that panics poisons the lock: whoever
takes it next is told so, and takes it all the same.

* `Cache.get`, `Cache.evict` — the two operations, one caller at a time;
* `Cache.run` — calls one after another;
* `Cache.lock`, `Cache.recover` — taking the lock, and what is done if it is poisoned;
* `Cache.accept` — what becomes of a list that the loader brought;
* `Loaded` — a list as one load brought it, told apart from the same words brought
  by another load;
* `recover_lock` — a poisoned lock opens like any other;
* `get_of_loaded`, `get_of_empty`, `get_of_constant` — a loaded cache answers at once, an
  empty one loads, and with a loader that cannot fail asking always succeeds.
-/

namespace SeedPhrase

open Log (Logged)

/-- What a call of a loader comes to. -/
inductive LoadResult
  | list (list : WordList)
  | failure (error : Error)
  | panic

/-- What each call of a loader comes to, the first call being number zero. -/
abbrev Loader := Nat → LoadResult

/-- A list together with the number of the load that brought it. -/
structure Loaded where
  serial : Nat
  list : WordList
deriving DecidableEq

/-- What a caller who asks for the list is given. -/
inductive Reply
  | list (loaded : Loaded)
  | failure (error : Error)
  | panic
deriving DecidableEq

/-- What the caller is given when a call of the loader brought no list. -/
def LoadResult.reply? : LoadResult → Option Reply
  | list _ => none
  | failure error => some (.failure error)
  | panic => some .panic

/-- A call of the loader brought a list or it did not. -/
theorem LoadResult.reply?_eq_none_iff {result : LoadResult} :
    result.reply? = none ↔ ∃ list, result = .list list := by
  cases result <;> simp [reply?]

/-- What can be asked of a cache. -/
inductive CacheCall
  | get
  | evict
deriving DecidableEq, Repr

/-- What a call comes back with. -/
inductive CacheAnswer
  | got (reply : Reply)
  | evicted
deriving DecidableEq

/-- The reply, if the call asked for one. -/
def CacheAnswer.reply? : CacheAnswer → Option Reply
  | got reply => some reply
  | evicted => none

/-- The list that is held, how many loads brought a list, how often the loader was
called, and whether it ever panicked under the lock.

The counter of loads has no bound here.  One that is kept in a machine word of 64 bits
begins again at zero after `2 ^ 64` loads, and the load after that would be logged as the
first one; no process lives to see it. -/
structure Cache where
  slot : Option Loaded
  loads : Nat
  calls : Nat
  poisoned : Bool
deriving DecidableEq

/-- What is said of a lock under which a loader panicked, with the cache it guards inside. -/
structure Poisoned where
  guarded : Cache
deriving DecidableEq

namespace Cache

/-- A cache that was never used. -/
def empty : Cache := ⟨none, 0, 0, false⟩

/-- Whether a list is held. -/
def isLoaded (cache : Cache) : Bool := cache.slot.isSome

/-- The name under which changes are logged. -/
def name : String := "word list"

/-- The record of a load of so many words, which tells the first one from the later ones. -/
def loadRecord (earlier entries : Nat) : Log.Record :=
  Log.cacheEvent name (if earlier = 0 then "loaded" else "reloaded") (some entries)

/-- The record of a list that was forgotten. -/
def evictRecord : Log.Record := Log.cacheEvent name "evicted" none

/-- The record of a load that failed; the error itself stays with the caller. -/
def failureRecord : Log.Record :=
  ⟨Log.wordListTarget, .operationFailed "word list load" Log.errorType⟩

/-- A call of the loader brought a list: it is counted, logged and kept. -/
def accept (list : WordList) (cache : Cache) : Logged (Loaded × Cache) :=
  let loaded : Loaded := ⟨cache.loads, list⟩
  ⟨(loaded, ⟨some loaded, cache.loads + 1, cache.calls + 1, cache.poisoned⟩),
    [loadRecord cache.loads list.length]⟩

/-- A call of the loader brought an error: the caller gets it, and it is logged that
there was one. -/
def reject (error : Error) (cache : Cache) : Logged (Reply × Cache) :=
  ⟨(.failure error, { cache with calls := cache.calls + 1 }), [failureRecord]⟩

/-- A call of the loader panicked, and so does the caller's. -/
def collapse (cache : Cache) : Logged (Reply × Cache) :=
  ⟨(.panic, { cache with calls := cache.calls + 1, poisoned := true }), []⟩

/-- Call the loader and deal with what it brings. -/
def load (loader : Loader) (cache : Cache) : Logged (Reply × Cache) :=
  match loader cache.calls with
  | .list list => do
    let (loaded, next) ← cache.accept list
    return (.list loaded, next)
  | .failure error => cache.reject error
  | .panic => cache.collapse

/-- Take the lock.  If a loader panicked under it, there is an error in place of the cache,
and the cache is in the error. -/
def lock (cache : Cache) : Except Poisoned Cache :=
  if cache.poisoned then .error ⟨cache⟩ else .ok cache

/-- The cache that is guarded by a lock, taken out of the error if need be. -/
def recover : Except Poisoned Cache → Cache
  | .ok cache => cache
  | .error poisoned => poisoned.guarded

/-- **A poisoned lock opens like any other,** and the cache behind it is the same. -/
@[simp] theorem recover_lock (cache : Cache) : recover cache.lock = cache := by
  unfold lock
  split <;> rfl

/-- The list that is held, or the outcome of loading one.  With the lock the slot is looked
at again, for others may have filled it in the meantime. -/
def get (loader : Loader) (cache : Cache) : Logged (Reply × Cache) :=
  match cache.slot with
  | some loaded => pure (.list loaded, cache)
  | none =>
    let locked := recover cache.lock
    match locked.slot with
    | some loaded => pure (.list loaded, locked)
    | none => locked.load loader

/-- The list that is held, or the given one newly kept: what asking comes to when
loading cannot fail. -/
def obtain (list : WordList) (cache : Cache) : Logged (Loaded × Cache) :=
  match cache.slot with
  | some loaded => pure (loaded, cache)
  | none => cache.accept list

/-- Forget the list that is held; holding none, there is nothing to forget and
nothing to log. -/
def evict (cache : Cache) : Logged Cache :=
  match cache.slot with
  | some _ => ⟨{ cache with slot := none }, [evictRecord]⟩
  | none => pure cache

/-- One call. -/
def perform (loader : Loader) (cache : Cache) : CacheCall → Logged (CacheAnswer × Cache)
  | .get => do
    let (reply, next) ← cache.get loader
    return (.got reply, next)
  | .evict => do
    let next ← cache.evict
    return (.evicted, next)

/-- Calls one after another, and their answers in order. -/
def run (loader : Loader) : List CacheCall → Cache → Logged (List CacheAnswer × Cache)
  | [], cache => pure ([], cache)
  | call :: calls, cache => do
    let (answer, next) ← cache.perform loader call
    let (answers, last) ← run loader calls next
    return (answer :: answers, last)

/-- **A loaded cache answers at once.**  The loader is not called and nothing
changes. -/
theorem get_of_loaded (loader : Loader) {cache : Cache} {loaded : Loaded}
    (h : cache.slot = some loaded) :
    cache.get loader = pure (.list loaded, cache) := by
  simp [get, h]

/-- **An empty cache loads.**  A single caller finds the slot as empty with the lock as
without it. -/
theorem get_of_empty (loader : Loader) {cache : Cache} (h : cache.slot = none) :
    cache.get loader = cache.load loader := by
  simp [get, h]

/-- With a loader that always brings the same list, asking is obtaining it. -/
theorem get_of_constant (list : WordList) (cache : Cache) :
    cache.get (fun _ => .list list) = (fun p => (Reply.list p.1, p.2)) <$> cache.obtain list := by
  unfold obtain
  cases hslot : cache.slot with
  | some loaded => rw [get_of_loaded _ hslot]; rfl
  | none => rw [get_of_empty _ hslot]; rfl

/-- The text of a cache for debugging, on one line. -/
def debugText (cache : Cache) : String :=
  "WordListCache \x7b loaded: " ++ toString cache.isLoaded ++ ", loads: " ++
    toString cache.loads ++ ", .. \x7d"

/-- The text of a cache for debugging, spread over lines. -/
def debugLines (cache : Cache) : String :=
  "WordListCache \x7b\n    loaded: " ++ toString cache.isLoaded ++ ",\n    loads: " ++
    toString cache.loads ++ ",\n    ..\n\x7d"

end Cache

end SeedPhrase
