import SeedPhrase.Cache.References
import SeedPhrase.WordList.English

/-!
# Kept lists and the loads they come from

Whoever was given a list may keep it for as long as it is wanted, and meanwhile the cache forgets
it, loads other lists, or fails to.  What is kept stays what it was on the day it was given: the
list that one call of the loader brought.  And two kept lists are one object exactly if the cache
was not told to forget its list after it gave the first and before it gave the second; whether it
had anything to forget each time it was told does not matter.

* `Turn`, `turn_perform` — all that one step can do;
* `before`, `Gives`, `Kept` — a run from step to step: the shelf before each step, the lists that
  were given, and those that were kept since;
* `find?_before_iff` — what is kept is what was given and kept since;
* `origin_of_slot` — the list that is held was brought by a call of the loader;
* `slot_of_no_evict`, `Newer` — what is held stays until it is to be forgotten, and then no list
  that was loaded before is ever held again;
* `references_outlive_eviction` — what it comes to.
-/

namespace SeedPhrase

open Log (Logged)

/-- Whether a step asks for the list. -/
def ShelfStep.Asks : ShelfStep → Prop
  | hold _ => True
  | get => True
  | _ => False

theorem ShelfStep.Asks.ne_evict {step : ShelfStep} (h : step.Asks) : step ≠ .evict := by
  rintro rfl
  exact h

theorem ShelfStep.Asks.ne_release {step : ShelfStep} (h : step.Asks) (name : String) :
    step ≠ .release name := by
  rintro rfl
  exact h

/-- The references after a step that got a reply. -/
def ShelfStep.keep (references : References) (reply : Reply) : ShelfStep → References
  | hold name => Shelf.keepReply references name reply
  | _ => references

namespace Shelf

section Turn

/-- All that one step can do to a shelf, with its answer. -/
inductive Turn (loader : Loader) (shelf : Shelf) : ShelfStep → ShelfAnswer × Shelf → Prop
  | held {step : ShelfStep} {x : Loaded} (hasks : step.Asks) (hslot : shelf.cache.slot = some x) :
    Turn loader shelf step
      (.reply (.list x), ⟨shelf.cache, step.keep shelf.references (.list x)⟩)
  | loaded {step : ShelfStep} {list : WordList} (hasks : step.Asks)
    (hslot : shelf.cache.slot = none) (hload : loader shelf.cache.calls = .list list) :
    Turn loader shelf step
      (.reply (.list ⟨shelf.cache.loads, list⟩),
        ⟨⟨some ⟨shelf.cache.loads, list⟩, shelf.cache.loads + 1, shelf.cache.calls + 1,
          shelf.cache.poisoned⟩, step.keep shelf.references (.list ⟨shelf.cache.loads, list⟩)⟩)
  | refused {step : ShelfStep} {reply : Reply} {cache : Cache} (hasks : step.Asks)
    (hslot : shelf.cache.slot = none) (hreply : ∀ x, reply ≠ .list x)
    (hnone : cache.slot = none) (hloads : cache.loads = shelf.cache.loads) :
    Turn loader shelf step (.reply reply, ⟨cache, step.keep shelf.references reply⟩)
  | evicted :
    Turn loader shelf .evict (.evicted, ⟨{ shelf.cache with slot := none }, shelf.references⟩)
  | released (name : String) :
    Turn loader shelf (.release name)
      (.released (shelf.references.find? name).isSome,
        ⟨shelf.cache, shelf.references.release name⟩)

variable (loader) (shelf : Shelf)

/-- A step that asks is answered by the cache. -/
theorem perform_of_asks {step : ShelfStep} (hasks : step.Asks) :
    (shelf.perform loader step).value =
      (.reply (shelf.cache.get loader).value.1,
        ⟨(shelf.cache.get loader).value.2,
          step.keep shelf.references (shelf.cache.get loader).value.1⟩) := by
  cases step with
  | hold name => rfl
  | get => rfl
  | evict => cases hasks
  | release name => cases hasks

theorem turn_of_asks {step : ShelfStep} (hasks : step.Asks) :
    Turn loader shelf step (shelf.perform loader step).value := by
  rw [perform_of_asks loader shelf hasks]
  cases hslot : shelf.cache.slot with
  | some x =>
    rw [Cache.get_of_loaded loader hslot]
    exact .held hasks hslot
  | none =>
    rw [Cache.get_of_empty loader hslot, Cache.load]
    cases hload : loader shelf.cache.calls with
    | list list => exact .loaded hasks hslot hload
    | failure error => exact .refused hasks hslot (fun x h => by cases h) hslot rfl
    | panic => exact .refused hasks hslot (fun x h => by cases h) hslot rfl

theorem turn_perform (step : ShelfStep) :
    Turn loader shelf step (shelf.perform loader step).value := by
  cases step with
  | hold name => exact turn_of_asks loader shelf trivial
  | get => exact turn_of_asks loader shelf trivial
  | release name => exact .released name
  | evict =>
    obtain ⟨⟨slot, loads, calls, poisoned⟩, references⟩ := shelf
    cases slot with
    | some x => exact .evicted
    | none => exact .evicted

end Turn

section Step

variable {loader : Loader} {shelf : Shelf} {step : ShelfStep} {done : ShelfAnswer × Shelf}
  {x y : Loaded}

/-- A list that is given is held from then on. -/
theorem Turn.slot_of_given (h : Turn loader shelf step done) (hx : done.1 = .reply (.list x)) :
    done.2.cache.slot = some x := by
  cases h with
  | held hasks hslot =>
    cases hx
    exact hslot
  | loaded hasks hslot hload =>
    cases hx
    rfl
  | refused hasks hslot hreply hnone hloads => exact absurd (ShelfAnswer.reply.inj hx) (hreply x)
  | evicted => cases hx
  | released name => cases hx

/-- While a list is held no other one is given. -/
theorem Turn.eq_of_held (h : Turn loader shelf step done) (hx : shelf.cache.slot = some x)
    (hy : done.1 = .reply (.list y)) : y = x := by
  cases h with
  | held hasks hslot =>
    cases hy
    exact Option.some.inj (hslot.symm.trans hx)
  | loaded hasks hslot hload => cases hslot.symm.trans hx
  | refused hasks hslot hreply hnone hloads => exact absurd (ShelfAnswer.reply.inj hy) (hreply y)
  | evicted => cases hy
  | released name => cases hy

/-- What is held after a step was held before it, or is brought for it by the loader. -/
theorem Turn.slot_cases (h : Turn loader shelf step done) (hx : done.2.cache.slot = some x) :
    (step ≠ .evict ∧ shelf.cache.slot = some x) ∨
      (done.1 = .reply (.list x) ∧ done.2.cache.calls = shelf.cache.calls + 1 ∧
        loader shelf.cache.calls = .list x.list ∧ x.serial = shelf.cache.loads ∧
        done.2.cache.loads = shelf.cache.loads + 1) := by
  cases h with
  | held hasks hslot =>
    exact .inl ⟨hasks.ne_evict, hx⟩
  | loaded hasks hslot hload =>
    cases hx
    exact .inr ⟨rfl, rfl, hload, rfl, rfl⟩
  | refused hasks hslot hreply hnone hloads => cases hnone.symm.trans hx
  | evicted => cases hx
  | released name => exact .inl ⟨nofun, hx⟩

/-- What is held stays until it is to be forgotten. -/
theorem Turn.slot_of_held (h : Turn loader shelf step done) (hstep : step ≠ .evict)
    (hx : shelf.cache.slot = some x) : done.2.cache.slot = some x := by
  cases h with
  | held hasks hslot => exact hx
  | loaded hasks hslot hload => cases hslot.symm.trans hx
  | refused hasks hslot hreply hnone hloads => cases hslot.symm.trans hx
  | evicted => exact absurd rfl hstep
  | released name => exact hx

theorem Turn.slot_of_evict (h : Turn loader shelf .evict done) : done.2.cache.slot = none := by
  cases h with
  | held hasks hslot => cases hasks
  | loaded hasks hslot hload => cases hasks
  | refused hasks hslot hreply hnone hloads => cases hasks
  | evicted => rfl

theorem Turn.loads_le (h : Turn loader shelf step done) :
    shelf.cache.loads ≤ done.2.cache.loads := by
  cases h with
  | held hasks hslot => exact Nat.le_refl _
  | loaded hasks hslot hload => exact Nat.le_succ _
  | refused hasks hslot hreply hnone hloads => exact Nat.le_of_eq hloads.symm
  | evicted => exact Nat.le_refl _
  | released name => exact Nat.le_refl _

/-- The list that is held was counted. -/
def Counted (shelf : Shelf) : Prop := ∀ x, shelf.cache.slot = some x → x.serial < shelf.cache.loads

/-- The first `n` loads are over, and none of the lists that they brought is held. -/
def Newer (n : Nat) (shelf : Shelf) : Prop :=
  n ≤ shelf.cache.loads ∧ ∀ x, shelf.cache.slot = some x → n ≤ x.serial

theorem Turn.counted (h : Turn loader shelf step done) (hcounted : Counted shelf) :
    Counted done.2 := by
  intro x hx
  rcases h.slot_cases hx with ⟨_, hheld⟩ | ⟨_, _, _, hserial, hloads⟩
  · exact Nat.lt_of_lt_of_le (hcounted x hheld) h.loads_le
  · rw [hserial, hloads]
    exact Nat.lt_succ_self _

theorem Turn.newer {n : Nat} (h : Turn loader shelf step done) (hnewer : Newer n shelf) :
    Newer n done.2 := by
  refine ⟨Nat.le_trans hnewer.1 h.loads_le, fun x hx => ?_⟩
  rcases h.slot_cases hx with ⟨_, hheld⟩ | ⟨_, _, _, hserial, _⟩
  · exact hnewer.2 x hheld
  · rw [hserial]
    exact hnewer.1

/-- A list that is given is kept under the name that the step says, if it says one, and the other
names are left alone. -/
theorem find?_keep_list_iff (references : References) (name : String) :
    (step.keep references (.list y)).find? name = some x ↔
      (step = .hold name ∧ y = x) ∨ (step ≠ .hold name ∧ references.find? name = some x) := by
  cases step with
  | hold kept =>
    rw [ShelfStep.keep, keepReply, References.find?_keep]
    by_cases hname : name = kept
    · simp [hname]
    · simp [hname, Ne.symm hname]
  | get => simp [ShelfStep.keep]
  | evict => simp [ShelfStep.keep]
  | release kept => simp [ShelfStep.keep]

/-- Without a list there is nothing to keep. -/
theorem keep_of_refused {reply : Reply} (hreply : ∀ x, reply ≠ .list x) (references : References) :
    step.keep references reply = references := by
  cases step with
  | hold name =>
    cases reply with
    | list x => exact absurd rfl (hreply x)
    | failure error => rfl
    | panic => rfl
  | get => rfl
  | evict => rfl
  | release name => rfl

/-- What is kept under a name after a step was kept there by it, or before it. -/
theorem Turn.find?_iff (h : Turn loader shelf step done) (name : String) :
    done.2.references.find? name = some x ↔
      (step = .hold name ∧ done.1 = .reply (.list x)) ∨
        (¬ (step = .release name ∨ step = .hold name ∧ ∃ y, done.1 = .reply (.list y)) ∧
          shelf.references.find? name = some x) := by
  cases h with
  | held hasks hslot =>
    simp [find?_keep_list_iff, hasks.ne_release]
  | loaded hasks hslot hload =>
    simp [find?_keep_list_iff, hasks.ne_release]
  | refused hasks hslot hreply hnone hloads =>
    simp [keep_of_refused hreply, hreply, hasks.ne_release]
  | evicted => simp
  | released kept =>
    rw [References.find?_release]
    by_cases hname : name = kept
    · simp [hname]
    · simp [hname, Ne.symm hname]

end Step

section Run

variable (loader : Loader) (steps : List ShelfStep)

/-- The shelf before the step at a place of a run, or at its end. -/
def before (n : Nat) : Shelf := (run loader (steps.take n) .empty).value.2

/-- The step at a place of a run is given a list. -/
def Gives (n : Nat) (x : Loaded) : Prop :=
  (run loader steps .empty).value.1[n]? = some (.reply (.list x))

/-- The step at a place of a run keeps another list under a name, or lets go of the one there. -/
def Changes (name : String) (n : Nat) : Prop :=
  steps[n]? = some (.release name) ∨ steps[n]? = some (.hold name) ∧ ∃ x, Gives loader steps n x

/-- The list that is kept under a name before a step, and the step that kept it. -/
structure Kept (name : String) (i n : Nat) (x : Loaded) : Prop where
  earlier : i < n
  hold : steps[i]? = some (.hold name)
  gives : Gives loader steps i x
  since : ∀ k, i < k → k < n → ¬ Changes loader steps name k

/-- The step at a place of a run makes the call of the loader that has number `c`. -/
def Calls (n c : Nat) : Prop :=
  (before loader steps n).cache.calls = c ∧ (before loader steps (n + 1)).cache.calls = c + 1

theorem run_append (earlier later : List ShelfStep) (shelf : Shelf) :
    (run loader (earlier ++ later) shelf).value =
      ((run loader earlier shelf).value.1 ++
          (run loader later (run loader earlier shelf).value.2).value.1,
        (run loader later (run loader earlier shelf).value.2).value.2) := by
  induction earlier generalizing shelf with
  | nil => rfl
  | cons step earlier ih =>
    simp only [List.cons_append, run, Logged.value_bind, Logged.value_pure, ih]

theorem length_answers (shelf : Shelf) :
    (run loader steps shelf).value.1.length = steps.length := by
  induction steps generalizing shelf with
  | nil => rfl
  | cons step steps ih =>
    simp only [run, Logged.value_bind, Logged.value_pure, List.length_cons, ih]

variable {steps} {n : Nat} {step : ShelfStep}

/-- **Each step of a run is one turn,** with the answer that the run tells. -/
theorem turn_before (h : steps[n]? = some step) :
    ∃ answer, (run loader steps .empty).value.1[n]? = some answer ∧
      Turn loader (before loader steps n) step (answer, before loader steps (n + 1)) := by
  refine ⟨((before loader steps n).perform loader step).value.1, ?_, ?_⟩
  · obtain ⟨hn, hget⟩ := List.getElem?_eq_some_iff.mp h
    have hlength : (run loader (steps.take n) .empty).value.1.length = n := by
      rw [length_answers, List.length_take, Nat.min_eq_left (Nat.le_of_lt hn)]
    have hsplit : steps.take n ++ step :: steps.drop (n + 1) = steps := by
      rw [← hget, ← List.drop_eq_getElem_cons, List.take_append_drop]
    have hrun := congrArg Prod.fst
      (run_append loader (steps.take n) (step :: steps.drop (n + 1)) .empty)
    rw [hsplit] at hrun
    rw [hrun, List.getElem?_append_right (Nat.le_of_eq hlength), hlength, Nat.sub_self]
    rfl
  · have hnext : before loader steps (n + 1) =
        ((before loader steps n).perform loader step).value.2 := by
      rw [before, List.take_add_one, h, Option.toList_some, run_append]
      rfl
    rw [hnext]
    exact turn_perform loader _ step

variable {loader}

/-- Behind the end of a run nothing happens. -/
theorem before_succ_of_none (h : steps[n]? = none) :
    before loader steps (n + 1) = before loader steps n := by
  rw [before, before, List.take_add_one, h, Option.toList_none, List.append_nil]

/-- A step that is given a list is a turn with that answer. -/
theorem Gives.turn {x : Loaded} (h : Gives loader steps n x) :
    ∃ step, steps[n]? = some step ∧
      Turn loader (before loader steps n) step
        (.reply (.list x), before loader steps (n + 1)) := by
  have hn : n < steps.length := by
    rw [← length_answers loader steps .empty]
    exact (List.getElem?_eq_some_iff.mp h).1
  have hstep : steps[n]? = some steps[n] := List.getElem?_eq_getElem hn
  obtain ⟨answer, hanswer, hturn⟩ := turn_before loader hstep
  obtain rfl : answer = .reply (.list x) := Option.some.inj (hanswer.symm.trans h)
  exact ⟨_, hstep, hturn⟩

/-- **What every turn keeps is kept from any place of a run to any later one.** -/
theorem before_of_le {P : Shelf → Prop} {m : Nat} (hmn : m ≤ n) (hbase : P (before loader steps m))
    (hturn : ∀ k step done, m ≤ k → k < n → steps[k]? = some step →
      Turn loader (before loader steps k) step done → P (before loader steps k) → P done.2) :
    P (before loader steps n) := by
  induction hmn with
  | refl => exact hbase
  | @step n hmn ih =>
    have hn : P (before loader steps n) :=
      ih fun k step done hmk hkn => hturn k step done hmk (Nat.lt_succ_of_lt hkn)
    cases hstep : steps[n]? with
    | none => rwa [before_succ_of_none hstep]
    | some step =>
      obtain ⟨answer, _, hdone⟩ := turn_before loader hstep
      exact hturn n step _ hmn (Nat.lt_succ_self n) hstep hdone hn

theorem loads_before_le {m : Nat} (hmn : m ≤ n) :
    (before loader steps m).cache.loads ≤ (before loader steps n).cache.loads :=
  before_of_le (P := fun shelf => (before loader steps m).cache.loads ≤ shelf.cache.loads) hmn
    (Nat.le_refl _) fun _ _ _ _ _ _ hdone hle => Nat.le_trans hle hdone.loads_le

theorem counted_before (n : Nat) : Counted (before loader steps n) :=
  before_of_le (Nat.zero_le n) (fun _ hx => by cases hx) fun _ _ _ _ _ _ hdone => hdone.counted

theorem Newer.of_le {m N : Nat} (hmn : m ≤ n) (h : Newer N (before loader steps m)) :
    Newer N (before loader steps n) :=
  before_of_le hmn h fun _ _ _ _ _ _ hdone => hdone.newer

/-- **A list stays while the cache is not to forget it.** -/
theorem slot_of_no_evict {m : Nat} {x : Loaded} (hmn : m ≤ n)
    (hevict : ∀ k, m ≤ k → k < n → steps[k]? ≠ some .evict)
    (hx : (before loader steps m).cache.slot = some x) :
    (before loader steps n).cache.slot = some x := by
  refine before_of_le (P := fun shelf => shelf.cache.slot = some x) hmn hx ?_
  intro k step done hmk hkn hstep hdone hheld
  refine hdone.slot_of_held ?_ hheld
  rintro rfl
  exact hevict k hmk hkn hstep

/-- **Objects and forgetting.**  Of two lists that were given, the later one is the object that the
earlier one is exactly if the cache was not to forget its list in between. -/
theorem serial_eq_iff {i j : Nat} {x y : Loaded} (hij : i < j) (hx : Gives loader steps i x)
    (hy : Gives loader steps j y) :
    x.serial = y.serial ↔ ∀ k, i < k → k < j → steps[k]? ≠ some .evict := by
  obtain ⟨_, _, hgiven⟩ := hx.turn
  obtain ⟨_, _, hlater⟩ := hy.turn
  have hslot : (before loader steps (i + 1)).cache.slot = some x := hgiven.slot_of_given rfl
  constructor
  · -- The first list to be loaded after a forgetting is newer than any before it.
    intro hsame k hik hkj hevict
    obtain ⟨_, _, hforgot⟩ := turn_before loader hevict
    have hcounted : x.serial < (before loader steps (i + 1)).cache.loads :=
      counted_before (i + 1) x hslot
    have hloads : (before loader steps (i + 1)).cache.loads ≤
        (before loader steps (k + 1)).cache.loads := loads_before_le (by omega)
    have hnewer : Newer (x.serial + 1) (before loader steps (k + 1)) := by
      refine ⟨by omega, fun z hz => ?_⟩
      cases hforgot.slot_of_evict.symm.trans hz
    have hserial : x.serial + 1 ≤ y.serial :=
      (hnewer.of_le (by omega : k + 1 ≤ j + 1)).2 y (hlater.slot_of_given rfl)
    omega
  · intro hevict
    have hheld : (before loader steps j).cache.slot = some x :=
      slot_of_no_evict hij (fun k hik => hevict k hik) hslot
    rw [hlater.eq_of_held hheld rfl]

/-- **Every list that is held was brought by a call of the loader,** for a step that was given that
same object, and was not to be forgotten since. -/
theorem origin_of_slot {x : Loaded} (hx : (before loader steps n).cache.slot = some x) :
    ∃ l c, l < n ∧ Calls loader steps l c ∧ loader c = .list x.list ∧ Gives loader steps l x ∧
      ∀ k, l < k → k < n → steps[k]? ≠ some .evict := by
  induction n with
  | zero => cases hx
  | succ n ih =>
    have hearlier (hheld : (before loader steps n).cache.slot = some x)
        (hstep : steps[n]? ≠ some .evict) :
        ∃ l c, l < n + 1 ∧ Calls loader steps l c ∧ loader c = .list x.list ∧
          Gives loader steps l x ∧ ∀ k, l < k → k < n + 1 → steps[k]? ≠ some .evict := by
      obtain ⟨l, c, hln, hcalls, hload, hgives, hevict⟩ := ih hheld
      refine ⟨l, c, Nat.lt_succ_of_lt hln, hcalls, hload, hgives, fun k hlk hkn => ?_⟩
      rcases Nat.lt_succ_iff_lt_or_eq.mp hkn with hk | rfl
      · exact hevict k hlk hk
      · exact hstep
    cases hstep : steps[n]? with
    | none =>
      rw [before_succ_of_none hstep] at hx
      exact hearlier hx (hstep ▸ nofun)
    | some step =>
      obtain ⟨answer, hanswer, hturn⟩ := turn_before loader hstep
      rcases hturn.slot_cases hx with ⟨hne, hheld⟩ | ⟨hgiven, hcalls, hload, -, -⟩
      · exact hearlier hheld fun hevict => hne (Option.some.inj (hstep.symm.trans hevict))
      · refine ⟨n, _, Nat.lt_succ_self n, ⟨rfl, hcalls⟩, hload, ?_, fun k hnk hkn => by omega⟩
        rw [Gives, hanswer]
        exact congrArg some hgiven

/-- What is kept under a name was kept there by the step before, or left there by it. -/
theorem find?_before_succ_iff (name : String) {x : Loaded} :
    (before loader steps (n + 1)).references.find? name = some x ↔
      (steps[n]? = some (.hold name) ∧ Gives loader steps n x) ∨
        (¬ Changes loader steps name n ∧
          (before loader steps n).references.find? name = some x) := by
  cases hstep : steps[n]? with
  | none => simp [before_succ_of_none hstep, Changes, hstep]
  | some step =>
    obtain ⟨answer, hanswer, hturn⟩ := turn_before loader hstep
    have hfind := hturn.find?_iff (x := x) name
    simp only [Changes, Gives, hstep, hanswer, Option.some.injEq]
    exact hfind

theorem kept_succ_iff {name : String} {i : Nat} {x : Loaded} :
    Kept loader steps name i (n + 1) x ↔
      (i = n ∧ steps[n]? = some (.hold name) ∧ Gives loader steps n x) ∨
        (¬ Changes loader steps name n ∧ Kept loader steps name i n x) := by
  constructor
  · intro ⟨hi, hhold, hgives, hsince⟩
    rcases Nat.lt_succ_iff_lt_or_eq.mp hi with hin | rfl
    · exact .inr ⟨hsince n hin (Nat.lt_succ_self n), hin, hhold, hgives,
        fun k hik hkn => hsince k hik (Nat.lt_succ_of_lt hkn)⟩
    · exact .inl ⟨rfl, hhold, hgives⟩
  · rintro (⟨rfl, hhold, hgives⟩ | ⟨hsame, hin, hhold, hgives, hsince⟩)
    · exact ⟨Nat.lt_succ_self i, hhold, hgives, fun k hik hki => by omega⟩
    · refine ⟨Nat.lt_succ_of_lt hin, hhold, hgives, fun k hik hkn => ?_⟩
      rcases Nat.lt_succ_iff_lt_or_eq.mp hkn with hk | rfl
      · exact hsince k hik hk
      · exact hsame

/-- **What is kept under a name** is what the last step that kept a list there was given, unless it
was let go of since. -/
theorem find?_before_iff (n : Nat) (name : String) (x : Loaded) :
    (before loader steps n).references.find? name = some x ↔
      ∃ i, Kept loader steps name i n x := by
  induction n with
  | zero =>
    constructor
    · intro hfind
      cases hfind
    · intro ⟨i, hkept⟩
      exact absurd hkept.earlier (Nat.not_lt_zero i)
  | succ n ih =>
    simp only [find?_before_succ_iff, ih, kept_succ_iff, exists_or, exists_and_left,
      exists_eq_left]

/-- **References outlive their eviction.**  Let steps be taken one after the other on a new cache,
whatever its loader brings, and look at what is kept before any of them, or at the end:

* a list is kept under a name exactly if some step was given it to keep it there, and no step since
  kept another one there or let go of it;
* two kept lists are the same object exactly if no step between those that were given them told the
  cache to forget its list;
* each kept list was brought by one call of the loader, not after it was given, and is answered
  from word by word and place by place as what that call brought. -/
theorem references_outlive_eviction (loader : Loader) (steps : List ShelfStep) (n : Nat) :
    let references := (before loader steps n).references
    (∀ (name : String) (x : Loaded),
      references.find? name = some x ↔ ∃ i, Kept loader steps name i n x) ∧
    (∀ (a b : String) (i j : Nat) (x y : Loaded),
      Kept loader steps a i n x → Kept loader steps b j n y →
        (x.sameObject y = true ↔
          ∀ k, min i j < k → k < max i j → steps[k]? ≠ some .evict)) ∧
    ∀ (name : String) (i : Nat) (x : Loaded), Kept loader steps name i n x →
      ∃ l c list, l ≤ i ∧ Calls loader steps l c ∧ loader c = .list list ∧
        Gives loader steps l x ∧ (∀ k, l < k → k < i → steps[k]? ≠ some .evict) ∧
        (∀ place, references.get? name place = list.get? place) ∧
        ∀ w, references.indexOf? name w = list.indexOf? w := by
  intro references
  refine ⟨find?_before_iff n, ?_, ?_⟩
  · intro a b i j x y hx hy
    rw [Loaded.sameObject, decide_eq_true_eq]
    rcases Nat.lt_trichotomy i j with hij | rfl | hji
    · rw [serial_eq_iff hij hx.gives hy.gives, Nat.min_eq_left (Nat.le_of_lt hij),
        Nat.max_eq_right (Nat.le_of_lt hij)]
    · -- A single step is given a single list, and there is nothing between it and itself.
      have hsame : x = y := by simpa using hx.gives.symm.trans hy.gives
      rw [Nat.min_self, Nat.max_self, hsame]
      exact iff_of_true rfl fun k hik hki => absurd hki (Nat.lt_asymm hik)
    · rw [eq_comm, serial_eq_iff hji hy.gives hx.gives, Nat.min_eq_right (Nat.le_of_lt hji),
        Nat.max_eq_left (Nat.le_of_lt hji)]
  · intro name i x hkept
    obtain ⟨_, _, hgiven⟩ := hkept.gives.turn
    obtain ⟨l, c, hli, hcalls, hload, hgives, hevict⟩ := origin_of_slot (hgiven.slot_of_given rfl)
    have hfind : references.find? name = some x := (find?_before_iff n name x).mpr ⟨i, hkept⟩
    refine ⟨l, c, x.list, Nat.le_of_lt_succ hli, hcalls, hload, hgives,
      fun k hlk hki => hevict k hlk (Nat.lt_succ_of_lt hki), ?_, ?_⟩
    · intro place
      rw [References.get?, hfind, Option.bind_some]
    · intro w
      rw [References.indexOf?, hfind, Option.bind_some]

/-- A list is kept under two names and then forgotten, and the next call of the loader panics.  The
list that is loaded after that has the same words and is another object, for there is a forgetting
between the two, and the first one still answers. -/
theorem references_outlive_eviction_reloaded :
    let loader : Loader := fun call => if call = 1 then .panic else .list .english
    let steps : List ShelfStep := [.hold "a", .hold "b", .evict, .get, .hold "c"]
    let references := (before loader steps 5).references
    let first : Loaded := ⟨0, .english⟩
    let second : Loaded := ⟨1, .english⟩
    ["a", "b", "c"].map references.find? = [some first, some first, some second] ∧
      (∃ i j, Kept loader steps "a" i 5 first ∧ Kept loader steps "c" j 5 second ∧
        ∃ k, min i j < k ∧ k < max i j ∧ steps[k]? = some .evict) ∧
      references.get? "a" 0 = some "abandon" := by
  intro loader steps references first second
  obtain ⟨hkept, hsame, -⟩ := references_outlive_eviction loader steps 5
  obtain ⟨i, hi⟩ := (hkept "a" first).mp rfl
  obtain ⟨j, hj⟩ := (hkept "c" second).mp rfl
  have hother : first.sameObject second ≠ true := by decide
  rw [Ne, hsame "a" "c" i j first second hi hj] at hother
  refine ⟨rfl, ⟨i, j, hi, hj, ?_⟩, by decide +kernel⟩
  simpa only [Classical.not_forall, exists_prop, Ne, Classical.not_not] using hother

end Run

end Shelf

end SeedPhrase
