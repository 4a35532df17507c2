import SeedPhrase.Cache.Basic

/-!
# One cache, many threads

Several threads use one cache at the same time, each with calls of its own to make.
What a call does is cut into steps that nothing can interrupt: looking at the slot,
taking the lock, looking again, calling the loader, counting the load together with
logging it, filling the slot, giving the lock back; and, for a call that forgets the
list, emptying the slot together with logging it.  A run is any order in which the
threads take their steps.

The second look is why concurrent first callers load once: who had to wait for the
lock finds the list that the one before brought.

* `Phase` — where a thread stands between two of its steps;
* `Machine.step` — the next step of a thread; a thread that waits for a lock which
  another holds, or that has nothing left to do, stands still;
* `Machine.run` — the steps of a schedule, a list of thread numbers;
* `Cache.getParallel` — the list asked for by several threads, in one of the orders that
  are possible.
-/

namespace SeedPhrase

open Log (Logged)

/-- Where a thread stands. -/
inductive Phase
  /-- Between two calls. -/
  | idle
  /-- About to look at the slot. -/
  | looking
  /-- About to take the lock, having found the slot empty. -/
  | waiting
  /-- With the lock, about to look again. -/
  | rechecking
  /-- With the lock, about to call the loader. -/
  | loading
  /-- With the lock, about to count and log the load of a list. -/
  | counting (list : WordList)
  /-- With the lock, about to put a counted list into the slot. -/
  | storing (loaded : Loaded)
  /-- With the lock, about to give it back and then answer. -/
  | releasing (reply : Reply)
  /-- About to empty the slot. -/
  | evicting
  /-- About to answer. -/
  | answering (answer : CacheAnswer)
deriving DecidableEq

/-- The calls a thread has yet to begin, where it stands, and the answers it has
had, the first one first. -/
structure Thread where
  program : List CacheCall
  phase : Phase
  answers : List CacheAnswer
deriving DecidableEq

namespace Thread

/-- A thread that has not begun. -/
def ofProgram (program : List CacheCall) : Thread := ⟨program, .idle, []⟩

/-- Whether a thread has had all its answers. -/
def isDone (thread : Thread) : Bool := thread.program.isEmpty && thread.phase = .idle

end Thread

/-- The beginning or the end of a call, as an observer of the threads sees it. -/
inductive CacheEvent
  | called (thread : Nat) (call : CacheCall)
  | answered (thread : Nat) (answer : CacheAnswer)
deriving DecidableEq

/-- A cache, the number of the thread that has its lock, the threads, the records
that were logged and the beginnings and ends of calls, both in order. -/
structure Machine where
  cache : Cache
  holder : Option Nat
  threads : List Thread
  records : List Log.Record
  history : List CacheEvent

namespace Machine

/-- Threads that are about to begin on a cache. -/
def start (cache : Cache) (programs : List (List CacheCall)) : Machine :=
  ⟨cache, none, programs.map Thread.ofProgram, [], []⟩

/-- A thread goes on to a phase. -/
def goto (machine : Machine) (t : Nat) (phase : Phase) : Machine :=
  { machine with threads := machine.threads.modify t fun thread => { thread with phase := phase } }

/-- Log a record. -/
def log (machine : Machine) (record : Log.Record) : Machine :=
  { machine with records := machine.records ++ [record] }

/-- A thread begins its next call, if it has one. -/
def begin (machine : Machine) (t : Nat) (thread : Thread) : Machine :=
  match thread.program with
  | [] => machine
  | call :: program =>
    let phase : Phase :=
      match call with
      | .get => .looking
      | .evict => .evicting
    { machine with
      threads := machine.threads.set t { thread with program := program, phase := phase }
      history := machine.history ++ [.called t call] }

/-- A thread looks at the slot; what it does when the slot is empty depends on
whether it has the lock. -/
def look (machine : Machine) (t : Nat) (found : Loaded → Phase) (missing : Phase) : Machine :=
  match machine.cache.slot with
  | some loaded => machine.goto t (found loaded)
  | none => machine.goto t missing

/-- A thread takes the lock, poisoned or not, if no other has it. -/
def lock (machine : Machine) (t : Nat) : Machine :=
  match machine.holder with
  | some _ => machine
  | none =>
    { machine with cache := Cache.recover machine.cache.lock, holder := some t }.goto t .rechecking

/-- A lock that no thread has is taken, and the cache is left as it is. -/
theorem lock_of_free {machine : Machine} (h : machine.holder = none) (t : Nat) :
    machine.lock t = { machine with holder := some t }.goto t .rechecking := by
  rw [lock, h, Cache.recover_lock]

/-- For a lock that a thread has another one waits. -/
theorem lock_of_held {machine : Machine} {u : Nat} (h : machine.holder = some u) (t : Nat) :
    machine.lock t = machine := by
  rw [lock, h]

/-- A thread calls the loader. -/
def load (loader : Loader) (machine : Machine) (t : Nat) : Machine :=
  let cache := machine.cache
  let called := { machine with cache := { cache with calls := cache.calls + 1 } }
  match loader cache.calls with
  | .list list => called.goto t (.counting list)
  | .failure error => (called.log Cache.failureRecord).goto t (.releasing (.failure error))
  | .panic => called.goto t (.releasing .panic)

/-- A thread counts a load and logs it. -/
def count (machine : Machine) (t : Nat) (list : WordList) : Machine :=
  let cache := machine.cache
  ({ machine with cache := { cache with loads := cache.loads + 1 } }.log
    (Cache.loadRecord cache.loads list.length)).goto t (.storing ⟨cache.loads, list⟩)

/-- A thread fills the slot. -/
def store (machine : Machine) (t : Nat) (loaded : Loaded) : Machine :=
  { machine with cache := { machine.cache with slot := some loaded } }.goto t
    (.releasing (.list loaded))

/-- A thread gives the lock back; one that panics leaves it poisoned. -/
def unlock (machine : Machine) (t : Nat) (reply : Reply) : Machine :=
  let cache := machine.cache
  { machine with
    holder := none
    cache := { cache with poisoned := cache.poisoned || reply = Reply.panic } }.goto t
      (.answering (.got reply))

/-- A thread empties the slot and logs it if there was a list in it. -/
def clear (machine : Machine) (t : Nat) : Machine :=
  let emptied := { machine with cache := { machine.cache with slot := none } }
  (match machine.cache.slot with
    | some _ => emptied.log Cache.evictRecord
    | none => emptied).goto t (.answering .evicted)

/-- A thread has its answer. -/
def answer (machine : Machine) (t : Nat) (thread : Thread) (answer : CacheAnswer) : Machine :=
  { machine with
    threads := machine.threads.set t
      { thread with phase := .idle, answers := thread.answers ++ [answer] }
    history := machine.history ++ [.answered t answer] }

/-- The next step of thread number `t`. -/
def step (loader : Loader) (machine : Machine) (t : Nat) : Machine :=
  match machine.threads[t]? with
  | none => machine
  | some thread =>
    match thread.phase with
    | .idle => machine.begin t thread
    | .looking => machine.look t (fun loaded => .answering (.got (.list loaded))) .waiting
    | .waiting => machine.lock t
    | .rechecking => machine.look t (fun loaded => .releasing (.list loaded)) .loading
    | .loading => machine.load loader t
    | .counting list => machine.count t list
    | .storing loaded => machine.store t loaded
    | .releasing reply => machine.unlock t reply
    | .evicting => machine.clear t
    | .answering answer => machine.answer t thread answer

/-- The steps of a schedule, one after another. -/
def run (loader : Loader) (machine : Machine) (schedule : List Nat) : Machine :=
  schedule.foldl (step loader) machine

/-- Whether every thread has had all its answers. -/
def isDone (machine : Machine) : Bool := machine.threads.all Thread.isDone

/-- The schedule in which `n` threads run one after another, each for a number of steps. -/
def oneByOne (n steps : Nat) : List Nat :=
  (List.range n).flatMap fun t => List.replicate steps t

end Machine

/-- How many steps one call takes at most, if no other is under way: one for each phase it
can go through. -/
def Phase.callSteps : Nat := 9

namespace Cache

/-- The list asked for by `n` threads, each once: their replies, thread by thread, and the
cache they leave.  Of all orders in which they could take their steps the one is chosen in
which each of them is answered before the next one begins. -/
def getParallel (loader : Loader) (n : Nat) (cache : Cache) : Logged (List Reply × Cache) :=
  let machine := (Machine.start cache (List.replicate n [.get])).run loader
    (Machine.oneByOne n Phase.callSteps)
  ⟨(machine.threads.flatMap fun thread => thread.answers.filterMap CacheAnswer.reply?,
      machine.cache), machine.records⟩

end Cache

end SeedPhrase
