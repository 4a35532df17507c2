import SeedPhrase.Proofs.Cache.Settlement

/-!
# What one step can do

Seen from outside, a step of a thread does one of five things.  It changes nothing, or
it begins the next call, or it brings the call that is under way on without anybody
noticing, or the call takes effect, or the thread has its answer.  A call that takes
effect does to the settled cache what the same call does to a cache that nobody else uses,
and its answer is the same.

* `perform_held`, `perform_list`, `perform_failure`, `perform_panic`, `perform_evict` — the
  four exits of a call that asks for the list and the one of a call that forgets it, on a
  cache that nobody else uses;
* `Advance` — the five things a step can do;
* `advances_step` — every step does one of them, and keeps the invariant.
-/

namespace SeedPhrase

namespace Cache

variable {loader : Loader} {cache : Cache}

theorem perform_held {loaded : Loaded} (h : cache.slot = some loaded) :
    (cache.perform loader .get).value = (.got (.list loaded), cache) := by
  simp [perform, get_of_loaded loader h]

theorem perform_list {list : WordList} (h : cache.slot = none)
    (hload : loader cache.calls = .list list) :
    (cache.perform loader .get).value = (.got (.list ⟨cache.loads, list⟩),
      ⟨some ⟨cache.loads, list⟩, cache.loads + 1, cache.calls + 1, cache.poisoned⟩) := by
  simp [perform, get_of_empty loader h, load, hload, accept]

theorem perform_failure {error : Error} (h : cache.slot = none)
    (hload : loader cache.calls = .failure error) :
    (cache.perform loader .get).value =
      (.got (.failure error), { cache with calls := cache.calls + 1 }) := by
  simp [perform, get_of_empty loader h, load, hload, reject]

theorem perform_panic (h : cache.slot = none) (hload : loader cache.calls = .panic) :
    (cache.perform loader .get).value =
      (.got .panic, { cache with calls := cache.calls + 1, poisoned := true }) := by
  simp [perform, get_of_empty loader h, load, hload, collapse]

theorem perform_evict :
    (cache.perform loader .evict).value = (.evicted, { cache with slot := none }) := by
  unfold perform evict
  cases hslot : cache.slot with
  | some loaded => rfl
  | none =>
    have hsame : { cache with slot := none } = cache := by rw [← hslot]
    simp [hsame]

end Cache

namespace Machine

/-- What a step of thread number `t` can make of a machine and its settled cache. -/
inductive Advance (loader : Loader) (t : Nat) (machine : Machine) (settled : Cache) :
    Machine → Cache → Prop
  /-- Nothing happens. -/
  | still : Advance loader t machine settled machine settled
  /-- The next call begins. -/
  | begun {next : Machine} {thread : Thread} {phase : Phase} {call : CacheCall}
      {program : List CacheCall} (hthread : machine.threads[t]? = some thread)
      (hidle : thread.phase = .idle) (hprogram : thread.program = call :: program)
      (hcall : phase.call? = some call) (heffect : phase.effect? = none)
      (hthreads : next.threads =
        machine.threads.set t { thread with program := program, phase := phase })
      (hhistory : next.history = machine.history ++ [.called t call]) :
      Advance loader t machine settled next settled
  /-- The call goes on. -/
  | quiet {next : Machine} {thread : Thread} {phase : Phase}
      (hthread : machine.threads[t]? = some thread)
      (hcall : phase.call? = thread.phase.call?) (heffect : phase.effect? = thread.phase.effect?)
      (hthreads : next.threads = machine.threads.set t { thread with phase := phase })
      (hhistory : next.history = machine.history) :
      Advance loader t machine settled next settled
  /-- The call takes effect. -/
  | effective {next : Machine} {settled' : Cache} {thread : Thread} {phase : Phase}
      {call : CacheCall} {answer : CacheAnswer} (hthread : machine.threads[t]? = some thread)
      (hbefore : thread.phase.call? = some call) (hpending : thread.phase.effect? = none)
      (hcall : phase.call? = some call) (heffect : phase.effect? = some answer)
      (hperform : (settled.perform loader call).value = (answer, settled'))
      (hthreads : next.threads = machine.threads.set t { thread with phase := phase })
      (hhistory : next.history = machine.history) :
      Advance loader t machine settled next settled'
  /-- The thread has its answer. -/
  | answered {next : Machine} {thread : Thread} {answer : CacheAnswer}
      (hthread : machine.threads[t]? = some thread) (hphase : thread.phase = .answering answer)
      (hthreads : next.threads = machine.threads.set t
        { thread with phase := .idle, answers := thread.answers ++ [answer] })
      (hhistory : next.history = machine.history ++ [.answered t answer]) :
      Advance loader t machine settled next settled

/-- A step of thread number `t` to `next` does one of the five things and keeps the
invariant. -/
def Advances (loader : Loader) (t : Nat) (machine : Machine) (settled : Cache)
    (next : Machine) : Prop :=
  ∃ settled', Advance loader t machine settled next settled' ∧ Settled loader next settled'

theorem threads_goto (machine : Machine) {t : Nat} {thread : Thread}
    (hthread : machine.threads[t]? = some thread) (phase : Phase) :
    (machine.goto t phase).threads = machine.threads.set t { thread with phase := phase } := by
  have : Inhabited Thread := ⟨thread⟩
  rw [goto, List.modify_eq_set, hthread]
  rfl

section Steps

variable {loader : Loader} {machine : Machine} {settled : Cache} {t : Nat} {thread : Thread}

/-- The phase of a thread with the lock says how far the cache is ahead. -/
theorem Settled.leads_of_locked (h : Settled loader machine settled)
    (hthread : machine.threads[t]? = some thread) (hlocked : thread.phase.isLocked = true) :
    thread.phase.Leads loader machine.cache settled := by
  have hmine : machine.holder = some t := by
    rw [← h.locked t, phaseOf_eq hthread, hlocked]
  have hleads := h.leads
  rw [underLock, hmine] at hleads
  rw [← phaseOf_eq hthread]
  exact hleads

variable (h : Settled loader machine settled) (hthread : machine.threads[t]? = some thread)

include h hthread

theorem advances_begin (hphase : thread.phase = .idle) :
    Advances loader t machine settled (machine.begin t thread) := by
  unfold begin
  split
  · exact ⟨settled, .still, h⟩
  · rename_i call program hprogram
    have hunlocked : thread.phase.isLocked = false := by rw [hphase]; rfl
    cases call with
    | get =>
      refine ⟨settled, .begun hthread hphase hprogram rfl rfl rfl rfl, ?_⟩
      exact h.outside hthread rfl rfl hunlocked rfl (fun _ hleads => hleads)
    | evict =>
      refine ⟨settled, .begun hthread hphase hprogram rfl rfl rfl rfl, ?_⟩
      exact h.outside hthread rfl rfl hunlocked rfl (fun _ hleads => hleads)

/-- **The first exit.**  The list is there at the first look. -/
theorem advances_look (hphase : thread.phase = .looking) :
    Advances loader t machine settled
      (machine.look t (fun loaded => .answering (.got (.list loaded))) .waiting) := by
  have hunlocked : thread.phase.isLocked = false := by rw [hphase]; rfl
  have hgoto := threads_goto machine hthread
  unfold look
  cases hslot : machine.cache.slot with
  | some loaded =>
    have hsettled : settled.slot = some loaded := by rw [← h.leads.slot_eq, hslot]
    refine ⟨settled, .effective hthread (by rw [hphase]; rfl) (by rw [hphase]; rfl) rfl rfl
      (Cache.perform_held hsettled) (hgoto _) rfl, ?_⟩
    exact h.outside hthread (hgoto _) rfl hunlocked rfl (fun _ hleads => hleads)
  | none =>
    refine ⟨settled, .quiet hthread (by rw [hphase]; rfl) (by rw [hphase]; rfl) (hgoto _) rfl, ?_⟩
    exact h.outside hthread (hgoto _) rfl hunlocked rfl (fun _ hleads => hleads)

theorem advances_lock (hphase : thread.phase = .waiting) :
    Advances loader t machine settled (machine.lock t) := by
  cases hfree : machine.holder with
  | some u =>
    rw [lock_of_held hfree]
    exact ⟨settled, .still, h⟩
  | none =>
    rw [lock_of_free hfree]
    have hgoto := threads_goto { machine with holder := some t } hthread .rechecking
    have hlevel : machine.cache = settled := by
      have hleads := h.leads
      rw [underLock, hfree] at hleads
      exact hleads
    refine ⟨settled, .quiet hthread (by rw [hphase]; rfl) (by rw [hphase]; rfl) hgoto rfl, ?_⟩
    exact h.taken hthread hgoto hfree rfl rfl hlevel

/-- **The second exit.**  The list has come while the thread waited for the lock. -/
theorem advances_recheck (hphase : thread.phase = .rechecking) :
    Advances loader t machine settled
      (machine.look t (fun loaded => .releasing (.list loaded)) .loading) := by
  have hlocked : thread.phase.isLocked = true := by rw [hphase]; rfl
  have hlevel : machine.cache = settled := by
    have hleads := h.leads_of_locked hthread hlocked
    rw [hphase] at hleads
    exact hleads
  have hgoto := threads_goto machine hthread
  unfold look
  cases hslot : machine.cache.slot with
  | some loaded =>
    have hsettled : settled.slot = some loaded := by rw [← hlevel, hslot]
    refine ⟨settled, .effective hthread (by rw [hphase]; rfl) (by rw [hphase]; rfl) rfl rfl
      (Cache.perform_held hsettled) (hgoto _) rfl, ?_⟩
    exact h.inside hthread (hgoto _) rfl hlocked rfl hlevel
  | none =>
    have hsettled : settled.slot = none := by rw [← hlevel, hslot]
    refine ⟨settled, .quiet hthread (by rw [hphase]; rfl) (by rw [hphase]; rfl) (hgoto _) rfl, ?_⟩
    exact h.inside hthread (hgoto _) rfl hlocked rfl ⟨hsettled, hlevel⟩

/-- **The third exit.**  The loader fails or panics; a list that it brings is not yet to be
seen by anybody. -/
theorem advances_load (hphase : thread.phase = .loading) :
    Advances loader t machine settled (machine.load loader t) := by
  have hlocked : thread.phase.isLocked = true := by rw [hphase]; rfl
  have hleads := h.leads_of_locked hthread hlocked
  rw [hphase] at hleads
  obtain ⟨hslot, rfl⟩ := hleads
  have hgoto (records : List Log.Record) := threads_goto { machine with
    cache := { machine.cache with calls := machine.cache.calls + 1 }, records := records } hthread
  dsimp only [load]
  cases hload : loader machine.cache.calls with
  | list list =>
    refine ⟨machine.cache, .quiet hthread (by rw [hphase]; rfl) (by rw [hphase]; rfl)
      (hgoto _ _) rfl, ?_⟩
    exact h.inside hthread (hgoto _ _) rfl hlocked rfl ⟨hslot, hload, rfl⟩
  | failure error =>
    refine ⟨_, .effective hthread (by rw [hphase]; rfl) (by rw [hphase]; rfl) rfl rfl
      (Cache.perform_failure hslot hload) (hgoto _ _) rfl, ?_⟩
    exact h.inside hthread (hgoto _ _) rfl hlocked rfl rfl
  | panic =>
    refine ⟨_, .effective hthread (by rw [hphase]; rfl) (by rw [hphase]; rfl) rfl rfl
      (Cache.perform_panic hslot hload) (hgoto _ _) rfl, ?_⟩
    exact h.inside hthread (hgoto _ _) rfl hlocked rfl rfl

theorem advances_count {list : WordList} (hphase : thread.phase = .counting list) :
    Advances loader t machine settled (machine.count t list) := by
  have hlocked : thread.phase.isLocked = true := by rw [hphase]; rfl
  have hleads := h.leads_of_locked hthread hlocked
  rw [hphase] at hleads
  obtain ⟨hslot, hload, hcache⟩ := hleads
  have hgoto := threads_goto { machine with
    cache := { machine.cache with loads := machine.cache.loads + 1 }
    records := machine.records ++ [Cache.loadRecord machine.cache.loads list.length] } hthread
    (.storing ⟨machine.cache.loads, list⟩)
  refine ⟨settled, .quiet hthread (by rw [hphase]; rfl) (by rw [hphase]; rfl) hgoto rfl, ?_⟩
  refine h.inside hthread hgoto rfl hlocked rfl ⟨hslot, hload, ?_, ?_⟩
  · rw [hcache]
  · show { machine.cache with loads := machine.cache.loads + 1 } = _
    rw [hcache]

/-- **The fourth exit.**  The slot is filled with the list that was loaded. -/
theorem advances_store {loaded : Loaded} (hphase : thread.phase = .storing loaded) :
    Advances loader t machine settled (machine.store t loaded) := by
  have hlocked : thread.phase.isLocked = true := by rw [hphase]; rfl
  have hleads := h.leads_of_locked hthread hlocked
  rw [hphase] at hleads
  obtain ⟨hslot, hload, hserial, hcache⟩ := hleads
  -- The list was numbered when it was counted; nobody has counted another one since.
  have hloaded : (⟨settled.loads, loaded.list⟩ : Loaded) = loaded := by rw [← hserial]
  have hperform := Cache.perform_list hslot hload
  rw [hloaded] at hperform
  have hgoto := threads_goto { machine with
    cache := { machine.cache with slot := some loaded } } hthread (.releasing (.list loaded))
  refine ⟨_, .effective hthread (by rw [hphase]; rfl) (by rw [hphase]; rfl) rfl rfl
    hperform hgoto rfl, ?_⟩
  refine h.inside hthread hgoto rfl hlocked rfl ?_
  show { machine.cache with slot := some loaded } = _
  rw [hcache]

theorem advances_unlock {reply : Reply} (hphase : thread.phase = .releasing reply) :
    Advances loader t machine settled (machine.unlock t reply) := by
  have hlocked : thread.phase.isLocked = true := by rw [hphase]; rfl
  have hleads := h.leads_of_locked hthread hlocked
  rw [hphase] at hleads
  have hcache : { machine.cache with
      poisoned := machine.cache.poisoned || reply = Reply.panic } = settled := by
    cases reply with
    | panic =>
      have hahead : settled = { machine.cache with poisoned := true } := hleads
      rw [hahead]
      simp
    | list loaded =>
      have hlevel : machine.cache = settled := hleads
      rw [← hlevel]
      simp
    | failure error =>
      have hlevel : machine.cache = settled := hleads
      rw [← hlevel]
      simp
  have hgoto := threads_goto { machine with
    holder := none
    cache := { machine.cache with
      poisoned := machine.cache.poisoned || reply = Reply.panic } } hthread
    (.answering (.got reply))
  -- A panic took effect when the loader was called, but poisons the lock only now.
  refine ⟨settled, .quiet hthread (by rw [hphase]; rfl) (by rw [hphase]; rfl) hgoto rfl, ?_⟩
  exact h.given hthread hgoto rfl hlocked rfl hcache

theorem advances_clear (hphase : thread.phase = .evicting) :
    Advances loader t machine settled (machine.clear t) := by
  have hunlocked : thread.phase.isLocked = false := by rw [hphase]; rfl
  have hgoto (records : List Log.Record) := threads_goto { machine with
    cache := { machine.cache with slot := none }, records := records } hthread
    (.answering .evicted)
  unfold clear
  cases hslot : machine.cache.slot with
  | some loaded =>
    refine ⟨_, .effective hthread (by rw [hphase]; rfl) (by rw [hphase]; rfl) rfl rfl
      Cache.perform_evict (hgoto _) rfl, ?_⟩
    exact h.outside hthread (hgoto _) rfl hunlocked rfl (fun _ hleads => hleads.clear)
  | none =>
    refine ⟨_, .effective hthread (by rw [hphase]; rfl) (by rw [hphase]; rfl) rfl rfl
      Cache.perform_evict (hgoto _) rfl, ?_⟩
    exact h.outside hthread (hgoto _) rfl hunlocked rfl (fun _ hleads => hleads.clear)

theorem advances_answer {answer : CacheAnswer} (hphase : thread.phase = .answering answer) :
    Advances loader t machine settled (machine.answer t thread answer) := by
  have hunlocked : thread.phase.isLocked = false := by rw [hphase]; rfl
  refine ⟨settled, .answered hthread hphase rfl rfl, ?_⟩
  exact h.outside hthread rfl rfl hunlocked rfl (fun _ hleads => hleads)

omit hthread in
/-- **Every step is one of the five.** -/
theorem advances_step (t : Nat) :
    Advances loader t machine settled (machine.step loader t) := by
  unfold step
  cases hthread : machine.threads[t]? with
  | none => exact ⟨settled, .still, h⟩
  | some thread =>
    dsimp only
    cases hphase : thread.phase with
    | idle => exact advances_begin h hthread hphase
    | looking => exact advances_look h hthread hphase
    | waiting => exact advances_lock h hthread hphase
    | rechecking => exact advances_recheck h hthread hphase
    | loading => exact advances_load h hthread hphase
    | counting list => exact advances_count h hthread hphase
    | storing loaded => exact advances_store h hthread hphase
    | releasing reply => exact advances_unlock h hthread hphase
    | evicting => exact advances_clear h hthread hphase
    | answering answer => exact advances_answer h hthread hphase

end Steps

end Machine

end SeedPhrase
