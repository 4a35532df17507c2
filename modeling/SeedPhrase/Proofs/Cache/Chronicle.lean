import Mathlib.Data.List.Induction
import SeedPhrase.Proofs.Cache.Ledger
import SeedPhrase.Proofs.Cache.Linearizable

/-!
# What a cache tells of its past

One caller after the other asks a new cache for its list or lets it forget it, and the loader may
bring a list, the same one or another, or fail, or panic, each time it is called.  After any number
of calls the counter, the slot and the log can be told from the calls and from what the loader
brought: the list that is held is the last one that was brought, unless it was forgotten since, and
loads and forgettings alternate in the log.

* `Served`, `served_perform` — all that one call can do;
* `Brings`, `Standing` — a call that loads a list, and that nobody has forgotten it since;
* `slot_after_iff` — what is held is what stands;
* `Balanced`, `Balanced.perform`, `balanced_after` — the counter and the log, kept by one call and
  so by all;
* `Balanced.loads_logged`, `Balanced.evictions_logged`, `Balanced.errors_logged` — what is counted
  in the log;
* `run_is_chronicled` — what it comes to.
-/

namespace SeedPhrase

open Log (Logged)

/-- Whether a call of a loader failed with an error. -/
def LoadResult.isFailure : LoadResult → Bool
  | failure _ => true
  | _ => false

/-- How many of the first calls of a loader failed with an error. -/
def Loader.failures (loader : Loader) (calls : Nat) : Nat :=
  (List.range calls).countP fun k => (loader k).isFailure

theorem Loader.failures_succ (loader : Loader) (calls : Nat) :
    loader.failures (calls + 1) = loader.failures calls + (loader calls).isFailure.toNat := by
  rw [failures, List.range_succ, List.countP_append, failures]
  cases hfailed : (loader calls).isFailure <;> simp [hfailed]

namespace Cache

/-- All that one call can do to a cache, with the answer and the records. -/
inductive Served (loader : Loader) (cache : Cache) :
    CacheCall → Logged (CacheAnswer × Cache) → Prop
  | held {loaded : Loaded} (hslot : cache.slot = some loaded) :
    Served loader cache .get ⟨(.got (.list loaded), cache), []⟩
  | loaded {list : WordList} (hslot : cache.slot = none) (hload : loader cache.calls = .list list) :
    Served loader cache .get
      ⟨(.got (.list ⟨cache.loads, list⟩),
        ⟨some ⟨cache.loads, list⟩, cache.loads + 1, cache.calls + 1, cache.poisoned⟩),
        [loadRecord cache.loads WordList.size]⟩
  | failed {error : Error} (hslot : cache.slot = none)
    (hload : loader cache.calls = .failure error) :
    Served loader cache .get
      ⟨(.got (.failure error), { cache with calls := cache.calls + 1 }), [failureRecord]⟩
  | panicked (hslot : cache.slot = none) (hload : loader cache.calls = .panic) :
    Served loader cache .get
      ⟨(.got .panic, { cache with calls := cache.calls + 1, poisoned := true }), []⟩
  | evicted {loaded : Loaded} (hslot : cache.slot = some loaded) :
    Served loader cache .evict ⟨(.evicted, { cache with slot := none }), [evictRecord]⟩
  | nothing (hslot : cache.slot = none) :
    Served loader cache .evict ⟨(.evicted, cache), []⟩

theorem served_perform (loader : Loader) (cache : Cache) (call : CacheCall) :
    Served loader cache call (cache.perform loader call) := by
  cases call with
  | get =>
    cases hslot : cache.slot with
    | some loaded =>
      have hdone : cache.perform loader .get = ⟨(.got (.list loaded), cache), []⟩ := by
        rw [perform, get_of_loaded loader hslot]
        rfl
      rw [hdone]
      exact .held hslot
    | none =>
      rw [perform, get_of_empty loader hslot, load]
      cases hload : loader cache.calls with
      | list list =>
        have hloaded := Served.loaded hslot hload
        rw [← list.length_eq] at hloaded
        exact hloaded
      | failure error => exact .failed hslot hload
      | panic => exact .panicked hslot hload
  | evict =>
    rw [perform, evict]
    cases hslot : cache.slot with
    | some loaded => exact .evicted hslot
    | none => exact .nothing hslot

/-- A new cache after some calls. -/
def after (loader : Loader) (calls : List CacheCall) : Cache := (run loader calls .empty).value.2

/-- The log of a new cache after some calls. -/
def log (loader : Loader) (calls : List CacheCall) : List Log.Record :=
  (run loader calls .empty).records

variable {loader : Loader}

theorem after_concat (calls : List CacheCall) (call : CacheCall) :
    after loader (calls ++ [call]) = ((after loader calls).perform loader call).value.2 :=
  congrArg Prod.snd (run_concat loader calls call .empty)

theorem log_concat (calls : List CacheCall) (call : CacheCall) :
    log loader (calls ++ [call]) =
      log loader calls ++ ((after loader calls).perform loader call).records := by
  have hrun : ∀ cache : Cache, (run loader (calls ++ [call]) cache).records =
      (run loader calls cache).records ++
        ((run loader calls cache).value.2.perform loader call).records := by
    induction calls with
    | nil =>
      intro cache
      simp [run]
    | cons first calls ih =>
      intro cache
      simp [run, ih]
  exact hrun .empty

section Standing

/-- Asking this cache for the list calls the loader, and it brings a list. -/
def Brings (loader : Loader) (cache : Cache) (list : WordList) : Prop :=
  (cache.get loader).value.2.calls = cache.calls + 1 ∧ loader cache.calls = .list list

/-- One of the calls loaded a list, and none of those after it was to forget the list. -/
def Standing (loader : Loader) (calls : List CacheCall) (list : WordList) : Prop :=
  ∃ earlier later, calls = earlier ++ .get :: later ∧ Brings loader (after loader earlier) list ∧
    .evict ∉ later

theorem brings_iff {cache : Cache} {list : WordList} :
    Brings loader cache list ↔ cache.slot = none ∧ loader cache.calls = .list list := by
  unfold Brings
  cases hslot : cache.slot with
  | some loaded => simp [get_of_loaded loader hslot]
  | none =>
    rw [get_of_empty loader hslot, load]
    cases hload : loader cache.calls <;> simp [accept, reject, collapse]

/-- One more call loads a list, or leaves what stands, unless it is to forget the list. -/
theorem standing_concat_iff {calls : List CacheCall} {call : CacheCall} {list : WordList} :
    Standing loader (calls ++ [call]) list ↔
      (call = .get ∧ Brings loader (after loader calls) list) ∨
        (call ≠ .evict ∧ Standing loader calls list) := by
  constructor
  · intro ⟨earlier, later, hcalls, hbrings, hnone⟩
    rcases List.eq_nil_or_concat later with rfl | ⟨rest, last, rfl⟩
    · obtain ⟨rfl, hcall⟩ := List.append_inj' hcalls rfl
      exact .inl ⟨(List.cons.inj hcall).1, hbrings⟩
    · rw [List.concat_eq_append] at hcalls hnone
      rw [← List.cons_append, ← List.append_assoc] at hcalls
      obtain ⟨rfl, hcall⟩ := List.append_inj' hcalls rfl
      obtain rfl : call = last := (List.cons.inj hcall).1
      rw [List.mem_append, List.mem_singleton, not_or] at hnone
      exact .inr ⟨Ne.symm hnone.2, earlier, rest, rfl, hbrings, hnone.1⟩
  · rintro (⟨rfl, hbrings⟩ | ⟨hcall, earlier, later, rfl, hbrings, hnone⟩)
    · exact ⟨calls, [], rfl, hbrings, List.not_mem_nil⟩
    · refine ⟨earlier, later ++ [call], by simp, hbrings, ?_⟩
      rw [List.mem_append, List.mem_singleton, not_or]
      exact ⟨hnone, Ne.symm hcall⟩

/-- **What is held is what stands:** the list that was loaded last, if it was not forgotten since. -/
theorem slot_after_iff (calls : List CacheCall) (list : WordList) :
    (∃ serial, (after loader calls).slot = some ⟨serial, list⟩) ↔ Standing loader calls list := by
  induction calls using List.reverseRecOn with
  | nil =>
    constructor
    · rintro ⟨serial, hslot⟩
      cases hslot
    · intro ⟨earlier, later, hcalls, _⟩
      simp at hcalls
  | append_singleton calls call ih =>
    have hserved := served_perform loader (after loader calls) call
    rw [after_concat, standing_concat_iff, brings_iff, ← ih]
    generalize (after loader calls).perform loader call = done at hserved
    cases hserved with
    | held hslot => simp [hslot]
    | loaded hslot hload => simp [hslot, hload]
    | failed hslot hload => simp [hslot, hload]
    | panicked hslot hload => simp [hslot, hload]
    | evicted hslot => simp
    | nothing hslot => simp [hslot]

end Standing

section Balance

/-- Whether a record is that of a change: of a load, or of a list that was forgotten. -/
def isChange (record : Log.Record) : Bool := isLoadRecord record || record = evictRecord

/-- Loads and forgettings in turn, as many of each. -/
def alternating (n : Nat) : List Log.Record :=
  (List.range n).flatMap fun i => [loadRecord i WordList.size, evictRecord]

/-- The forgetting that is still to come, while a list is held. -/
def owed (cache : Cache) : List Log.Record := if cache.isLoaded then [evictRecord] else []

/-- The counter tells the lists that were brought, the last of them is held if any is, changes
alternate in the log, up to a forgetting that is still to come, and besides them there is in it one
record for each error. -/
structure Balanced (loader : Loader) (cache : Cache) (records : List Log.Record) : Prop where
  loads : cache.loads = loader.successes cache.calls
  last : ∀ loaded, cache.slot = some loaded →
    loaded.serial + 1 = cache.loads ∧ ∃ k, cache.calls = k + 1 ∧ loader k = .list loaded.list
  changes : records.filter isChange ++ cache.owed = alternating cache.loads
  failures : records.filter (!isChange ·) =
    List.replicate (loader.failures cache.calls) failureRecord

theorem alternating_succ (n : Nat) :
    alternating (n + 1) = alternating n ++ [loadRecord n WordList.size, evictRecord] := by
  simp [alternating, List.range_succ]

theorem isChange_loadRecord (earlier : Nat) :
    isChange (loadRecord earlier WordList.size) = true := by
  rw [isChange, Machine.isLoadRecord_loadRecord, Bool.true_or]

theorem isChange_evictRecord : isChange evictRecord = true := by decide

theorem isChange_failureRecord : isChange failureRecord = false := by decide

theorem owed_of_some {cache : Cache} {loaded : Loaded} (h : cache.slot = some loaded) :
    cache.owed = [evictRecord] := by
  simp [owed, isLoaded, h]

theorem owed_of_none {cache : Cache} (h : cache.slot = none) : cache.owed = [] := by
  simp [owed, isLoaded, h]

theorem filter_append_change (records : List Log.Record) {record : Log.Record}
    (h : isChange record = true) :
    (records ++ [record]).filter isChange = records.filter isChange ++ [record] ∧
      (records ++ [record]).filter (!isChange ·) = records.filter (!isChange ·) := by
  simp [h]

theorem filter_append_failure (records : List Log.Record) :
    (records ++ [failureRecord]).filter isChange = records.filter isChange ∧
      (records ++ [failureRecord]).filter (!isChange ·) =
        records.filter (!isChange ·) ++ [failureRecord] := by
  simp [isChange_failureRecord]

/-- **One call keeps the balance.** -/
theorem Balanced.perform {cache : Cache} {records : List Log.Record}
    (h : Balanced loader cache records) (call : CacheCall) :
    Balanced loader (cache.perform loader call).value.2
      (records ++ (cache.perform loader call).records) := by
  have hserved := served_perform loader cache call
  obtain ⟨hloads, hlast, hchanges, hfailures⟩ := h
  generalize cache.perform loader call = done at hserved
  cases hserved with
  | held hslot =>
    rw [List.append_nil]
    exact ⟨hloads, hlast, hchanges, hfailures⟩
  | @loaded list hslot hload =>
    -- Nothing is owed before a load, for only an empty cache loads, and one forgetting after it.
    obtain ⟨hchange, hother⟩ := filter_append_change records (isChange_loadRecord cache.loads)
    rw [owed_of_none hslot, List.append_nil] at hchanges
    constructor
    · show cache.loads + 1 = loader.successes (cache.calls + 1)
      rw [Loader.successes_succ, hload, hloads]
      rfl
    · intro loaded hnow
      obtain rfl := Option.some.inj hnow
      exact ⟨rfl, cache.calls, rfl, hload⟩
    · rw [hchange, hchanges, owed_of_some rfl, alternating_succ, List.append_assoc]
      rfl
    · rw [hother, hfailures, Loader.failures_succ, hload]
      rfl
  | @failed error hslot hload =>
    obtain ⟨hchange, hother⟩ := filter_append_failure records
    constructor
    · show cache.loads = loader.successes (cache.calls + 1)
      rw [Loader.successes_succ, hload, hloads]
      rfl
    · intro loaded hnow
      cases hslot.symm.trans hnow
    · rw [hchange]
      exact hchanges
    · rw [hother, hfailures, Loader.failures_succ, hload]
      exact List.replicate_succ'.symm
  | panicked hslot hload =>
    rw [List.append_nil]
    constructor
    · show cache.loads = loader.successes (cache.calls + 1)
      rw [Loader.successes_succ, hload, hloads]
      rfl
    · intro loaded hnow
      cases hslot.symm.trans hnow
    · exact hchanges
    · rw [hfailures, Loader.failures_succ, hload]
      rfl
  | evicted hslot =>
    -- What was owed is in the log now.
    obtain ⟨hchange, hother⟩ := filter_append_change records isChange_evictRecord
    rw [owed_of_some hslot] at hchanges
    refine ⟨hloads, ?_, ?_, hother.trans hfailures⟩
    · intro loaded hnow
      cases hnow
    · rw [hchange, owed_of_none rfl, List.append_nil, hchanges]
  | nothing hslot =>
    rw [List.append_nil]
    exact ⟨hloads, hlast, hchanges, hfailures⟩

/-- **So do all calls.** -/
theorem balanced_after (loader : Loader) (calls : List CacheCall) :
    Balanced loader (after loader calls) (log loader calls) := by
  induction calls using List.reverseRecOn with
  | nil =>
    refine ⟨rfl, ?_, rfl, rfl⟩
    intro loaded hslot
    cases hslot
  | append_singleton calls call ih =>
    rw [after_concat, log_concat]
    exact ih.perform call

end Balance

section Counts

/-- Loads and forgettings in turn are counted by twos. -/
theorem countP_alternating {p : Log.Record → Bool} {b : Bool}
    (hload : ∀ i, p (loadRecord i WordList.size) = b) (n : Nat) :
    (alternating n).countP p = n * (b.toNat + (p evictRecord).toNat) := by
  induction n with
  | zero => simp [alternating]
  | succ n ih =>
    rw [alternating_succ, List.countP_append, ih, Nat.succ_mul]
    cases hevict : p evictRecord <;> cases b <;> simp [hload, hevict]

theorem countP_owed (cache : Cache) (p : Log.Record → Bool) :
    cache.owed.countP p = cache.isLoaded.toNat * (p evictRecord).toNat := by
  unfold owed
  cases hheld : cache.isLoaded <;> cases hevict : p evictRecord <;> simp [hevict]

/-- Leaving out what is not counted changes no count. -/
theorem countP_filter_of_imp {p q : Log.Record → Bool}
    (h : ∀ record, p record = true → q record = true) (records : List Log.Record) :
    (records.filter q).countP p = records.countP p := by
  rw [List.countP_filter]
  apply List.countP_congr
  intro record _
  rw [Bool.and_eq_true]
  exact ⟨fun hboth => hboth.1, fun hrecord => ⟨hrecord, h record hrecord⟩⟩

theorem level_of_isChange {record : Log.Record} (h : isChange record = true) :
    record.level ≠ .error := by
  simp only [isChange, isLoadRecord, Bool.or_eq_true, decide_eq_true_eq] at h
  rcases h with (rfl | rfl) | rfl <;> decide

variable {cache : Cache} {records : List Log.Record} (h : Balanced loader cache records)

include h

/-- What is counted of the changes is counted in the log, and in what is still to come. -/
theorem Balanced.countP_changes {p : Log.Record → Bool}
    (hp : ∀ record, p record = true → isChange record = true) :
    records.countP p + cache.owed.countP p = (alternating cache.loads).countP p := by
  rw [← h.changes, List.countP_append, countP_filter_of_imp hp]

/-- Each load left a record. -/
theorem Balanced.loads_logged : records.countP isLoadRecord = cache.loads := by
  have hcount := h.countP_changes (p := isLoadRecord) fun record hload => by
    rw [isChange, hload, Bool.true_or]
  have hevict : isLoadRecord evictRecord = false := by decide
  rw [countP_owed, countP_alternating Machine.isLoadRecord_loadRecord, hevict] at hcount
  simpa using hcount

/-- Each list was forgotten, and that left a record, unless the list is still held. -/
theorem Balanced.evictions_logged :
    records.countP (· = evictRecord) + cache.isLoaded.toNat = cache.loads := by
  have hcount := h.countP_changes (p := (· = evictRecord)) fun record hevict => by
    rw [isChange, hevict, Bool.or_true]
  have hload (earlier : Nat) :
      decide (loadRecord earlier WordList.size = evictRecord) = false := by
    simp [loadRecord, evictRecord, Log.cacheEvent, Log.report]
  rw [countP_owed, countP_alternating hload, decide_eq_true rfl] at hcount
  simpa using hcount

/-- Each error left a record, and nothing else is as grave. -/
theorem Balanced.errors_logged :
    records.countP (·.level = .error) = loader.failures cache.calls := by
  have hother : ∀ record : Log.Record, decide (record.level = .error) = true →
      (!isChange record) = true := by
    intro record hlevel
    rw [Bool.not_eq_true', ← Bool.not_eq_true]
    intro hchange
    exact level_of_isChange hchange (of_decide_eq_true hlevel)
  rw [← countP_filter_of_imp hother, h.failures, List.countP_replicate, if_pos (by decide)]

end Counts

section Answers

/-- What a caller who finds no list gets from the loader, and what is logged of it. -/
def answered (earlier : Nat) : LoadResult → Logged Reply
  | .list list => ⟨.list ⟨earlier, list⟩, [loadRecord earlier list.length]⟩
  | .failure error => ⟨.failure error, [failureRecord]⟩
  | .panic => ⟨.panic, []⟩

/-- An empty cache calls its loader once, and has nothing to forget. -/
theorem of_isLoaded_eq_false {cache : Cache} (h : cache.isLoaded = false) :
    (cache.get loader).value.2.calls = cache.calls + 1 ∧
      Prod.fst <$> cache.get loader = answered cache.loads (loader cache.calls) ∧
      cache.evict = pure cache := by
  have hslot : cache.slot = none := by simpa [isLoaded] using h
  rw [get_of_empty loader hslot, load, evict, hslot]
  cases loader cache.calls <;> exact ⟨rfl, rfl, rfl⟩

/-- A list that stands is that of the last call of the loader, and is handed out again. -/
theorem of_standing {calls : List CacheCall} {list : WordList} (h : Standing loader calls list) :
    (∃ k, (after loader calls).calls = k + 1 ∧ loader k = .list list) ∧
      (after loader calls).get loader =
        pure (.list ⟨(after loader calls).loads - 1, list⟩, after loader calls) := by
  obtain ⟨serial, hslot⟩ := (slot_after_iff calls list).mpr h
  obtain ⟨hserial, hlast⟩ := (balanced_after loader calls).last _ hslot
  refine ⟨hlast, ?_⟩
  rw [get_of_loaded loader hslot, ← hserial, Nat.add_sub_cancel]

theorem isLoaded_after_iff (calls : List CacheCall) :
    (after loader calls).isLoaded = true ↔ ∃ list, Standing loader calls list := by
  rw [isLoaded, Option.isSome_iff_exists]
  simp only [← slot_after_iff]
  constructor
  · rintro ⟨loaded, hslot⟩
    exact ⟨loaded.list, loaded.serial, hslot⟩
  · rintro ⟨list, serial, hslot⟩
    exact ⟨⟨serial, list⟩, hslot⟩

end Answers

theorem message_loadRecord (earlier : Nat) :
    (loadRecord earlier WordList.size).message =
      if earlier = 0 then "Cache: word list loaded (2048 entries)"
      else "Cache: word list reloaded (2048 entries)" := by
  cases earlier with
  | zero => decide +kernel
  | succ n =>
    have hsame : loadRecord (n + 1) WordList.size = loadRecord 1 WordList.size := rfl
    rw [hsame, if_neg (Nat.succ_ne_zero n)]
    decide +kernel

/-- **What a run of calls leaves behind.** After any calls on a new cache, one after the other,
whatever the loader brings:

* the counter tells how many calls of the loader brought a list;
* a list is held exactly if one was loaded and nobody has forgotten it since; it is that of the
  last call of the loader, and asking for it calls no loader, logs nothing and changes nothing;
* otherwise asking calls the loader once, and forgetting does nothing;
* loads and forgettings alternate in the log, the first load told from the later ones, up to the
  forgetting of a list that is still held, and both are counted by the counter;
* all else in the log is one record for each error of the loader, so that a panic leaves none. -/
theorem run_is_chronicled (loader : Loader) (calls : List CacheCall) :
    let cache := after loader calls
    let records := log loader calls
    cache.loads = loader.successes cache.calls ∧
    (cache.isLoaded = true ↔ ∃ list, Standing loader calls list) ∧
    (∀ list, Standing loader calls list →
      (∃ k, cache.calls = k + 1 ∧ loader k = .list list) ∧
      cache.get loader = pure (.list ⟨cache.loads - 1, list⟩, cache)) ∧
    (cache.isLoaded = false →
      (cache.get loader).value.2.calls = cache.calls + 1 ∧
      Prod.fst <$> cache.get loader = answered cache.loads (loader cache.calls) ∧
      cache.evict = pure cache) ∧
    records.filter isChange ++ (if cache.isLoaded then [evictRecord] else []) =
      (List.range cache.loads).flatMap (fun i => [loadRecord i WordList.size, evictRecord]) ∧
    records.countP isLoadRecord = cache.loads ∧
    records.countP (· = evictRecord) =
      (if cache.isLoaded then cache.loads - 1 else cache.loads) ∧
    records.countP (·.level = .error) = loader.failures cache.calls ∧
    records.filter (!isChange ·) = List.replicate (loader.failures cache.calls) failureRecord ∧
    (∀ earlier, (loadRecord earlier WordList.size).message =
      if earlier = 0 then "Cache: word list loaded (2048 entries)"
      else "Cache: word list reloaded (2048 entries)") ∧
    evictRecord.message = "Cache: word list evicted" := by
  intro cache records
  have hbalanced : Balanced loader cache records := balanced_after loader calls
  have hevictions := hbalanced.evictions_logged
  refine ⟨hbalanced.loads, isLoaded_after_iff calls, fun list => of_standing,
    of_isLoaded_eq_false, hbalanced.changes, hbalanced.loads_logged, ?_,
    hbalanced.errors_logged, hbalanced.failures, message_loadRecord, by decide +kernel⟩
  cases hheld : cache.isLoaded <;> rw [hheld] at hevictions
  · exact hevictions
  · exact (Nat.sub_eq_of_eq_add hevictions.symm).symm

end Cache

end SeedPhrase
