import Mathlib.Data.List.Induction
import SeedPhrase.Log.Logger

/-!
# Which logger a process gets

There are two ways to install a logger, and a process may go both, in any order and as often as it
likes, and log in between.  The first call that installs a logger decides which one it is, and no
later call changes anything about it.  But the two ways do not stand alike to a logger that is
there already: `initTest` leaves it and says nothing, `init` remembers only whether it was `init`
itself that installed it.  So every call is safe unless `initTest` came first, and then every
`init` panics, whether or not the panics before it were caught.

* `Stage`, `Stage.perform` — the four states that a process can be in, and what one call makes of
  each;
* `after`, `stage_after` — the state after any calls, where panics are caught;
* `run_panicked_iff` — a process that catches none ends at the first;
* `first_logger_stays` — which logger there is, and which calls panic;
* `init_after_initTest` — the shortest process that panics.
-/

namespace SeedPhrase.Log

/-- Whether a call is there to install a logger. -/
def LogCall.installs : LogCall → Bool
  | init => true
  | initTest => true
  | write _ => false

/-- The logger that a call is there to install. -/
def LogCall.logger? (spec : String) : LogCall → Option Logger
  | init => some ⟨(parseFilter spec).filter, .micros⟩
  | initTest => some ⟨(parseFilter spec).filter, .seconds⟩
  | write _ => none

namespace Logging

variable {spec : String}

section Stages

/-- What can have become of the logging of a process, by the calls that were made in it. -/
inductive Stage (spec : String) (calls : List LogCall) : Logging → Prop
  /-- No logger was ever to be installed. -/
  | bare (hnone : calls.find? LogCall.installs = none) : Stage spec calls start
  /-- `init` installed the logger. -/
  | program (hfirst : calls.find? LogCall.installs = some .init) :
    Stage spec calls ⟨some ⟨(parseFilter spec).filter, .micros⟩, .complete⟩
  /-- `initTest` installed it, and `init` was not called. -/
  | tests (hfirst : calls.find? LogCall.installs = some .initTest) (hinit : .init ∉ calls) :
    Stage spec calls ⟨some ⟨(parseFilter spec).filter, .seconds⟩, .fresh⟩
  /-- `initTest` installed it, and then `init` was called. -/
  | broken (hfirst : calls.find? LogCall.installs = some .initTest) (hinit : .init ∈ calls) :
    Stage spec calls ⟨some ⟨(parseFilter spec).filter, .seconds⟩, .poisoned⟩

variable {calls : List LogCall} {state : Logging}

/-- The first call that is there to install a logger stays the first. -/
theorem find?_append_of_some {first : LogCall} (h : calls.find? LogCall.installs = some first)
    (more : List LogCall) : (calls ++ more).find? LogCall.installs = some first := by
  rw [List.find?_append, h, Option.some_or]

/-- Where no call was there to install one, the next call is the first if it is. -/
theorem find?_append_of_none (h : calls.find? LogCall.installs = none) (more : List LogCall) :
    (calls ++ more).find? LogCall.installs = more.find? LogCall.installs := by
  rw [List.find?_append, h, Option.none_or]

theorem init_notMem (h : calls.find? LogCall.installs = none) : .init ∉ calls :=
  fun hmem => List.find?_eq_none.mp h .init hmem rfl

/-- **One call leads from stage to stage.** -/
theorem Stage.perform (h : Stage spec calls state) (call : LogCall) :
    Stage spec (calls ++ [call]) (state.perform spec call).state := by
  cases h with
  | bare hnone =>
    have hfirst := find?_append_of_none hnone [call]
    cases call with
    | init => exact .program hfirst
    | initTest => exact .tests hfirst (by simpa using init_notMem hnone)
    | write record => exact .bare hfirst
  | program hfirst =>
    have hstays := find?_append_of_some hfirst [call]
    cases call with
    | init => exact .program hstays
    | initTest => exact .program hstays
    | write record => exact .program hstays
  | tests hfirst hinit =>
    have hstays := find?_append_of_some hfirst [call]
    cases call with
    | init => exact .broken hstays (by simp)
    | initTest => exact .tests hstays (by simpa using hinit)
    | write record => exact .tests hstays (by simpa using hinit)
  | broken hfirst hinit =>
    have hstays := find?_append_of_some hfirst [call]
    have hcalled : .init ∈ calls ++ [call] := List.mem_append_left [call] hinit
    cases call with
    | init => exact .broken hstays hcalled
    | initTest => exact .broken hstays hcalled
    | write record => exact .broken hstays hcalled

/-- The logger is that of the first call that was there to install one. -/
theorem Stage.installed_eq (h : Stage spec calls state) :
    state.installed = (calls.find? LogCall.installs).bind (LogCall.logger? spec) := by
  cases h with
  | bare hnone => rw [hnone, Option.bind_none]; rfl
  | program hfirst => rw [hfirst]; rfl
  | tests hfirst hinit => rw [hfirst]; rfl
  | broken hfirst hinit => rw [hfirst]; rfl

/-- **Only `init` panics,** and only where `initTest` installed the logger. -/
theorem Stage.panicked_iff (h : Stage spec calls state) (call : LogCall) :
    (state.perform spec call).panicked = true ↔
      call = .init ∧ calls.find? LogCall.installs = some .initTest := by
  cases call with
  | initTest => simp [Logging.perform, panicked_initTest]
  | write record => simp [Logging.perform, write]
  | init =>
    rw [Logging.perform, panicked_init_iff]
    cases h with
    | bare hnone => simp [start, hnone]
    | program hfirst => simp [hfirst]
    | tests hfirst hinit => simp [hfirst]
    | broken hfirst hinit => simp [hfirst]

end Stages

section Runs

/-- The logging after some calls, each made even if one before it panicked. -/
def after (spec : String) (state : Logging) (calls : List LogCall) : Logging :=
  calls.foldl (fun state call => (state.perform spec call).state) state

theorem after_append (state : Logging) (earlier later : List LogCall) :
    after spec state (earlier ++ later) = after spec (after spec state earlier) later :=
  List.foldl_append

/-- **A process is always in one of the stages.** -/
theorem stage_after (spec : String) (calls : List LogCall) :
    Stage spec calls (after spec start calls) := by
  induction calls using List.reverseRecOn with
  | nil => exact .bare rfl
  | append_singleton calls call ih =>
    rw [after_append]
    exact ih.perform call

/-- An installed logger outlives all calls. -/
theorem installed_after_append {state : Logging} {logger : Logger}
    (h : state.installed = some logger) (calls : List LogCall) :
    (after spec state calls).installed = some logger := by
  induction calls generalizing state with
  | nil => exact h
  | cons call calls ih => exact ih (installed_perform spec h call)

/-- **A process ends at the first call that panics,** if there is one. -/
theorem run_panicked_iff (state : Logging) (calls : List LogCall) :
    (run spec state calls).panicked = true ↔
      ∃ earlier call later, calls = earlier ++ call :: later ∧
        ((after spec state earlier).perform spec call).panicked = true := by
  induction calls generalizing state with
  | nil => simp [run]
  | cons first calls ih =>
    rw [run, Effect.andThen]
    by_cases hfirst : (state.perform spec first).panicked = true
    · rw [if_pos hfirst]
      exact iff_of_true hfirst ⟨[], first, calls, rfl, hfirst⟩
    · rw [if_neg hfirst]
      constructor
      · intro hrest
        obtain ⟨earlier, call, later, rfl, hcall⟩ := (ih _).mp hrest
        exact ⟨first :: earlier, call, later, rfl, hcall⟩
      · rintro ⟨earlier, call, later, hcalls, hcall⟩
        refine (ih _).mpr ?_
        cases earlier with
        | nil =>
          obtain ⟨rfl, -⟩ := List.cons.inj hcalls
          exact absurd hcall hfirst
        | cons call' earlier =>
          obtain ⟨rfl, rfl⟩ := List.cons.inj hcalls
          exact ⟨earlier, call, later, rfl, hcall⟩

/-- A process in which no call panics goes through all of them. -/
theorem state_run_of_calm {state : Logging} {calls : List LogCall}
    (h : (run spec state calls).panicked = false) :
    (run spec state calls).state = after spec state calls := by
  induction calls generalizing state with
  | nil => rfl
  | cons first calls ih =>
    rw [run, Effect.andThen] at h ⊢
    by_cases hfirst : (state.perform spec first).panicked = true
    · rw [if_pos hfirst, hfirst] at h
      cases h
    · rw [if_neg hfirst] at h ⊢
      exact ih h

end Runs

/-- **The first logger stays.**  Let any calls be made in a new process, each of them even if one
before it panicked, under any specification of the filter:

* the logger is that of the first call that was there to install one, with its filter and its way to
  tell the time, and no further calls change anything about it;
* of the calls that may come next only `init` panics, and it does exactly if that first call was
  `initTest`;
* so a process that catches no panic ends in one exactly if that first call is `initTest` and `init`
  is called as well, and otherwise makes all its calls. -/
theorem first_logger_stays (spec : String) (calls : List LogCall) :
    let state := after spec start calls
    let first := calls.find? LogCall.installs
    state.installed = first.bind (LogCall.logger? spec) ∧
    (∀ logger more, state.installed = some logger →
      (after spec start (calls ++ more)).installed = some logger) ∧
    (∀ call, (state.perform spec call).panicked = true ↔
      call = .init ∧ first = some .initTest) ∧
    ((run spec start calls).panicked = true ↔ first = some .initTest ∧ .init ∈ calls) ∧
    ((run spec start calls).panicked = false → (run spec start calls).state = state) := by
  intro state first
  have hstage : Stage spec calls state := stage_after spec calls
  refine ⟨hstage.installed_eq, ?_, hstage.panicked_iff, ?_, state_run_of_calm⟩
  · intro logger more hinstalled
    rw [after_append]
    exact installed_after_append hinstalled more
  · rw [run_panicked_iff]
    constructor
    · rintro ⟨earlier, call, later, hcalls, hcall⟩
      obtain ⟨rfl, hfirst⟩ := ((stage_after spec earlier).panicked_iff call).mp hcall
      refine ⟨?_, hcalls ▸ by simp⟩
      show calls.find? LogCall.installs = some .initTest
      rw [hcalls]
      exact find?_append_of_some hfirst _
    · rintro ⟨hfirst, hinit⟩
      obtain ⟨earlier, later, rfl⟩ := List.append_of_mem hinit
      have hpanics := (stage_after spec earlier).panicked_iff .init
      refine ⟨earlier, .init, later, rfl, hpanics.mpr ⟨rfl, ?_⟩⟩
      -- If none of the calls before `init` installed a logger, `init` would be the first.
      cases hearlier : earlier.find? LogCall.installs with
      | none =>
        have hinitFirst := find?_append_of_none hearlier (.init :: later)
        cases hinitFirst.symm.trans hfirst
      | some call => exact (find?_append_of_some hearlier _).symm.trans hfirst

/-- **Tests first, then the program:** the shortest process that panics. -/
theorem init_after_initTest : (run "error" start [.initTest, .init]).panicked = true := by
  decide +kernel

end Logging

end SeedPhrase.Log
