import SeedPhrase.Proofs.Cache.Advance

/-!
# What one step does to the cache and to the log

Most steps of a thread are aside: they look, wait, or hand something on, and neither the
cache nor the log shows that they were taken.  The others follow a list on its way.  The
loader is called and fails or brings a list, the list is counted and logged, it is put into
the slot, and in the end the slot is emptied.

* `Phase.isCounting`, `Phase.isStoring`, `Phase.shown?` — where a list is on its way;
* `Thread.unfinished`, `Thread.Sees` — the calls a thread has to finish, and the lists that
  it has in hand or was given;
* `Aside` — what a step that is aside makes of its thread;
* `Tick` — the seven things a step can do, and `tick_step` that it does one of them.
-/

namespace SeedPhrase

namespace Phase

/-- Whether a list was brought that is not counted yet. -/
def isCounting : Phase → Bool
  | counting _ => true
  | _ => false

/-- Whether a list was counted that is not in the slot yet. -/
def isStoring : Phase → Bool
  | storing _ => true
  | _ => false

/-- The numbered list that a thread has in hand. -/
def shown? : Phase → Option Loaded
  | storing loaded => some loaded
  | releasing (.list loaded) => some loaded
  | answering (.got (.list loaded)) => some loaded
  | _ => none

/-- A call for the list is under way, and no list is on its way to the slot. -/
structure Asks (phase : Phase) : Prop where
  call : phase.call? = some .get
  counting : phase.isCounting = false
  storing : phase.isStoring = false

end Phase

namespace Thread

/-- The call under way and those yet to begin. -/
def unfinished (thread : Thread) : List CacheCall := thread.phase.call?.toList ++ thread.program

/-- A thread has a list in hand, or was given it. -/
def Sees (thread : Thread) (loaded : Loaded) : Prop :=
  thread.phase.shown? = some loaded ∨ .got (.list loaded) ∈ thread.answers

end Thread

/-- What a step makes of its thread when neither the cache nor the log shows it: no list comes
closer to the slot, no call is added, and a list that is new in hand comes from the slot. -/
structure Aside (slot : Option Loaded) (thread thread' : Thread) : Prop where
  counting : thread'.phase.isCounting = thread.phase.isCounting
  storing : thread'.phase.isStoring = thread.phase.isStoring
  evicting : thread.phase ≠ .evicting
  unfinished : thread'.unfinished ⊆ thread.unfinished
  sees : ∀ loaded, thread'.Sees loaded → thread.Sees loaded ∨ slot = some loaded

/-- A call for the list goes on, with no list in hand but one that it had before or found in
the slot. -/
theorem Aside.of_asks {slot : Option Loaded} {thread : Thread} {phase : Phase}
    (hbefore : thread.phase.Asks) (hafter : phase.Asks)
    (hshown : ∀ loaded, phase.shown? = some loaded →
      thread.phase.shown? = some loaded ∨ slot = some loaded) :
    Aside slot thread { thread with phase := phase } := by
  constructor
  · rw [hbefore.counting]
    exact hafter.counting
  · rw [hbefore.storing]
    exact hafter.storing
  · intro hevicting
    have hcall := hbefore.call
    rw [hevicting] at hcall
    cases hcall
  · intro call hcall
    rw [Thread.unfinished, hbefore.call]
    rw [Thread.unfinished, hafter.call] at hcall
    exact hcall
  · intro loaded hsees
    rcases hsees with hnow | hgiven
    · rcases hshown loaded hnow with hhand | hslot
      · exact .inl (.inl hhand)
      · exact .inr hslot
    · exact .inl (.inr hgiven)

/-- A call begins with nothing in hand; it is not counted among those yet to begin any more. -/
theorem Aside.of_begun {slot : Option Loaded} {thread : Thread} {phase : Phase}
    {call : CacheCall} {program : List CacheCall} (hidle : thread.phase = .idle)
    (hprogram : thread.program = call :: program) (hcall : phase.call? = some call)
    (hcounting : phase.isCounting = false) (hstoring : phase.isStoring = false)
    (hshown : phase.shown? = none) :
    Aside slot thread { thread with program := program, phase := phase } := by
  constructor
  · rw [hidle]
    exact hcounting
  · rw [hidle]
    exact hstoring
  · rw [hidle]
    simp
  · intro other hother
    rw [Thread.unfinished, hcall] at hother
    rw [Thread.unfinished, hidle, hprogram]
    exact hother
  · intro loaded hsees
    rcases hsees with hnow | hgiven
    · rw [hshown] at hnow
      cases hnow
    · exact .inl (.inr hgiven)

namespace Machine

/-- What a step of thread number `t` can make of the threads, the cache and the log. -/
inductive Tick (loader : Loader) (t : Nat) (machine : Machine) : Machine → Prop
  /-- Nothing happens. -/
  | still (hphase : machine.phaseOf t ≠ .evicting) : Tick loader t machine machine
  /-- Nothing happens that the cache or the log would show; a lock may be poisoned. -/
  | aside {next : Machine} {thread thread' : Thread} (hthread : machine.threads[t]? = some thread)
      (hthreads : next.threads = machine.threads.set t thread')
      (haside : Aside machine.cache.slot thread thread')
      (hcache : next.cache = { machine.cache with poisoned := next.cache.poisoned })
      (hrecords : next.records = machine.records) : Tick loader t machine next
  /-- The loader is called and brings no list. -/
  | failed {next : Machine} {thread : Thread} {reply : Reply}
      (hthread : machine.threads[t]? = some thread) (hphase : thread.phase = .loading)
      (hload : (loader machine.cache.calls).reply? = some reply)
      (hthreads : next.threads = machine.threads.set t { thread with phase := .releasing reply })
      (hcache : next.cache = { machine.cache with calls := machine.cache.calls + 1 })
      (hrecords : next.records = machine.records ∨
        next.records = machine.records ++ [Cache.failureRecord]) : Tick loader t machine next
  /-- The loader is called and brings a list. -/
  | brought {next : Machine} {thread : Thread} {list : WordList}
      (hthread : machine.threads[t]? = some thread) (hphase : thread.phase = .loading)
      (hload : loader machine.cache.calls = .list list)
      (hthreads : next.threads = machine.threads.set t { thread with phase := .counting list })
      (hcache : next.cache = { machine.cache with calls := machine.cache.calls + 1 })
      (hrecords : next.records = machine.records) : Tick loader t machine next
  /-- A list is counted, which gives it its number, and logged. -/
  | counted {next : Machine} {thread : Thread} {list : WordList}
      (hthread : machine.threads[t]? = some thread) (hphase : thread.phase = .counting list)
      (hthreads : next.threads = machine.threads.set t
        { thread with phase := .storing ⟨machine.cache.loads, list⟩ })
      (hcache : next.cache = { machine.cache with loads := machine.cache.loads + 1 })
      (hrecords : next.records =
        machine.records ++ [Cache.loadRecord machine.cache.loads WordList.size]) :
      Tick loader t machine next
  /-- A list is put into the slot. -/
  | stored {next : Machine} {thread : Thread} {loaded : Loaded}
      (hthread : machine.threads[t]? = some thread) (hphase : thread.phase = .storing loaded)
      (hthreads : next.threads =
        machine.threads.set t { thread with phase := .releasing (.list loaded) })
      (hcache : next.cache = { machine.cache with slot := some loaded })
      (hrecords : next.records = machine.records) : Tick loader t machine next
  /-- The slot is emptied, which is logged if there was a list in it. -/
  | cleared {next : Machine} {thread : Thread}
      (hthread : machine.threads[t]? = some thread) (hphase : thread.phase = .evicting)
      (hthreads : next.threads =
        machine.threads.set t { thread with phase := .answering .evicted })
      (hcache : next.cache = { machine.cache with slot := none })
      (hrecords : next.records = machine.records ++
        if machine.cache.isLoaded = true then [Cache.evictRecord] else []) :
      Tick loader t machine next

/-- What holds of all threads goes on to hold if it holds of the one that took a step. -/
theorem forall_threads_set {machine next : Machine} {t : Nat} {thread' : Thread}
    {P : Thread → Prop} (hthreads : next.threads = machine.threads.set t thread')
    (hold : ∀ thread ∈ machine.threads, P thread) (hnew : P thread') :
    ∀ thread ∈ next.threads, P thread := by
  intro thread hthread
  rw [hthreads] at hthread
  rcases List.mem_or_eq_of_mem_set hthread with hmem | heq
  · exact hold thread hmem
  · exact heq ▸ hnew

section Steps

variable {loader : Loader} {machine : Machine} {t : Nat} {thread : Thread}
  (hthread : machine.threads[t]? = some thread)

include hthread

theorem tick_begin (hphase : thread.phase = .idle) :
    Tick loader t machine (machine.begin t thread) := by
  unfold begin
  split
  · refine .still ?_
    rw [phaseOf_eq hthread, hphase]
    simp
  · rename_i call program hprogram
    cases call with
    | get => exact .aside hthread rfl (.of_begun hphase hprogram rfl rfl rfl rfl) rfl rfl
    | evict => exact .aside hthread rfl (.of_begun hphase hprogram rfl rfl rfl rfl) rfl rfl

/-- A look at the slot is aside: a list that it finds is the one in the slot. -/
theorem tick_look {found : Loaded → Phase} {missing : Phase} (hbefore : thread.phase.Asks)
    (hfound : ∀ loaded, (found loaded).Asks ∧ (found loaded).shown? = some loaded)
    (hmissing : missing.Asks ∧ missing.shown? = none) :
    Tick loader t machine (machine.look t found missing) := by
  have hgoto := threads_goto machine hthread
  unfold look
  cases hslot : machine.cache.slot with
  | some loaded =>
    obtain ⟨hasks, hshown⟩ := hfound loaded
    refine .aside hthread (hgoto _) (.of_asks hbefore hasks ?_) rfl rfl
    intro other hother
    rw [hslot, ← hshown]
    exact .inr hother
  | none =>
    obtain ⟨hasks, hshown⟩ := hmissing
    refine .aside hthread (hgoto _) (.of_asks hbefore hasks ?_) rfl rfl
    intro other hother
    rw [hshown] at hother
    cases hother

theorem tick_lock (hphase : thread.phase = .waiting) :
    Tick loader t machine (machine.lock t) := by
  cases hfree : machine.holder with
  | some u =>
    rw [lock_of_held hfree]
    refine .still ?_
    rw [phaseOf_eq hthread, hphase]
    simp
  | none =>
    rw [lock_of_free hfree]
    have hgoto := threads_goto { machine with holder := some t } hthread .rechecking
    have hbefore : thread.phase.Asks := hphase ▸ ⟨rfl, rfl, rfl⟩
    refine .aside hthread hgoto (.of_asks hbefore ⟨rfl, rfl, rfl⟩ ?_) rfl rfl
    intro loaded hshown
    cases hshown

theorem tick_load (hphase : thread.phase = .loading) :
    Tick loader t machine (machine.load loader t) := by
  have hgoto (records : List Log.Record) := threads_goto { machine with
    cache := { machine.cache with calls := machine.cache.calls + 1 }, records := records } hthread
  dsimp only [load]
  cases hload : loader machine.cache.calls with
  | list list => exact .brought hthread hphase hload (hgoto _ _) rfl rfl
  | failure error =>
    have hreply : (loader machine.cache.calls).reply? = some (.failure error) := by
      rw [hload]; rfl
    exact .failed hthread hphase hreply (hgoto _ _) rfl (.inr rfl)
  | panic =>
    have hreply : (loader machine.cache.calls).reply? = some .panic := by rw [hload]; rfl
    exact .failed hthread hphase hreply (hgoto _ _) rfl (.inl rfl)

theorem tick_count {list : WordList} (hphase : thread.phase = .counting list) :
    Tick loader t machine (machine.count t list) := by
  have hgoto := threads_goto { machine with
    cache := { machine.cache with loads := machine.cache.loads + 1 }
    records := machine.records ++ [Cache.loadRecord machine.cache.loads list.length] } hthread
    (.storing ⟨machine.cache.loads, list⟩)
  have hrecord : Cache.loadRecord machine.cache.loads list.length =
      Cache.loadRecord machine.cache.loads WordList.size := by rw [list.length_eq]
  exact .counted hthread hphase hgoto rfl (congrArg (machine.records ++ [·]) hrecord)

theorem tick_store {loaded : Loaded} (hphase : thread.phase = .storing loaded) :
    Tick loader t machine (machine.store t loaded) := by
  have hgoto := threads_goto { machine with
    cache := { machine.cache with slot := some loaded } } hthread (.releasing (.list loaded))
  exact .stored hthread hphase hgoto rfl rfl

/-- Giving the lock back hands on what the thread has in hand; only the lock can be poisoned
by it. -/
theorem tick_unlock {reply : Reply} (hphase : thread.phase = .releasing reply) :
    Tick loader t machine (machine.unlock t reply) := by
  have hgoto := threads_goto { machine with
    holder := none
    cache := { machine.cache with
      poisoned := machine.cache.poisoned || reply = Reply.panic } } hthread
    (.answering (.got reply))
  have hbefore : thread.phase.Asks := hphase ▸ ⟨rfl, rfl, rfl⟩
  refine .aside hthread hgoto (.of_asks hbefore ⟨rfl, rfl, rfl⟩ ?_) rfl rfl
  intro loaded hshown
  rw [hphase]
  cases reply with
  | list held => exact .inl hshown
  | failure error => cases hshown
  | panic => cases hshown

theorem tick_clear (hphase : thread.phase = .evicting) :
    Tick loader t machine (machine.clear t) := by
  have hgoto (records : List Log.Record) := threads_goto { machine with
    cache := { machine.cache with slot := none }, records := records } hthread
    (.answering .evicted)
  unfold clear
  cases hslot : machine.cache.slot with
  | some loaded =>
    refine .cleared hthread hphase (hgoto _) rfl ?_
    simp [Cache.isLoaded, hslot, log, goto]
  | none =>
    refine .cleared hthread hphase (hgoto _) rfl ?_
    simp [Cache.isLoaded, hslot, goto]

theorem tick_answer {answer : CacheAnswer} (hphase : thread.phase = .answering answer) :
    Tick loader t machine (machine.answer t thread answer) := by
  refine .aside hthread rfl ⟨?_, ?_, ?_, ?_, ?_⟩ rfl rfl
  · rw [hphase]; rfl
  · rw [hphase]; rfl
  · rw [hphase]; simp
  · intro call hcall
    exact List.mem_append_right _ hcall
  · intro loaded hsees
    rcases hsees with hnow | hgiven
    · cases hnow
    · rcases List.mem_append.mp hgiven with hbefore | hlast
      · exact .inl (.inr hbefore)
      · refine .inl (.inl ?_)
        rw [hphase, ← List.mem_singleton.mp hlast]
        rfl

omit hthread in
/-- **Every step is one of the seven.** -/
theorem tick_step (loader : Loader) (machine : Machine) (t : Nat) :
    Tick loader t machine (machine.step loader t) := by
  unfold step
  cases hthread : machine.threads[t]? with
  | none =>
    refine .still ?_
    rw [phaseOf, hthread]
    simp
  | some thread =>
    dsimp only
    cases hphase : thread.phase with
    | idle => exact tick_begin hthread hphase
    | looking =>
      have hbefore : thread.phase.Asks := hphase ▸ ⟨rfl, rfl, rfl⟩
      exact tick_look hthread hbefore (fun _ => ⟨⟨rfl, rfl, rfl⟩, rfl⟩) ⟨⟨rfl, rfl, rfl⟩, rfl⟩
    | waiting => exact tick_lock hthread hphase
    | rechecking =>
      have hbefore : thread.phase.Asks := hphase ▸ ⟨rfl, rfl, rfl⟩
      exact tick_look hthread hbefore (fun _ => ⟨⟨rfl, rfl, rfl⟩, rfl⟩) ⟨⟨rfl, rfl, rfl⟩, rfl⟩
    | loading => exact tick_load hthread hphase
    | counting list => exact tick_count hthread hphase
    | storing loaded => exact tick_store hthread hphase
    | releasing reply => exact tick_unlock hthread hphase
    | evicting => exact tick_clear hthread hphase
    | answering answer => exact tick_answer hthread hphase

end Steps

end Machine

end SeedPhrase
