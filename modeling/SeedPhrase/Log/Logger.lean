import SeedPhrase.Log.Filter
import SeedPhrase.Text.Shown

/-!
# The process's logger

A process has at most one logger, installed once and kept for good; records that
come before it are lost.  There are two ways to install it: `init`, which a program
calls at its start, and `initTest`, which tests call as often as they like.

* `Logger.entry` — what a record adds to the log;
* `install`, `tryBuild`, `build`, `callOnce`, `write` — what a process is relied on for;
* `init` does its work at most once, and it insists: finding a logger that it
  did not install, it panics, and so does every later `init`;
* `initTest` yields to a logger that is already there;
* `panicked_init_iff`, `installed_perform` — when `init` panics; and whatever is called, an
  installed logger stays.

Reading the specification of the filter has an effect of its own, for complaints
about it are printed whether or not a logger is installed afterwards.
-/

namespace SeedPhrase.Log

/-- How exactly a line tells the time. -/
inductive Precision
  | seconds
  | micros
deriving DecidableEq, Repr

/-- The time as it stands in a line; this log reads no clock, and every digit is
zero. -/
def Precision.stamp : Precision → String
  | seconds => "0000-00-00T00:00:00Z"
  | micros => "0000-00-00T00:00:00.000000Z"

/-- A filter and the form of the lines. -/
structure Logger where
  filter : Filter
  precision : Precision
deriving DecidableEq, Repr

/-- The name of a level in five columns. -/
def paddedLevel (level : Level) : String :=
  level.name ++ String.ofList (List.replicate (5 - level.name.length) ' ')

/-- A message with its lines after the first set in by four blanks. -/
def indented (message : List Char) : List Char :=
  message.flatMap fun c => if c = '\n' then "\n    ".toList else [c]

namespace Logger

/-- What stands before a message: the time, the level and the target. -/
def heading (logger : Logger) (record : Record) : String :=
  "[" ++ logger.precision.stamp ++ " " ++ paddedLevel record.level ++ " " ++ record.target ++ "] "

/-- What a record adds to the log: nothing if the filter does not show it, else its
heading, its message and a line end, without orders to a terminal.  An order that
the message leaves open can take the line end with it. -/
def entry (logger : Logger) (record : Record) : String :=
  if logger.filter.shows record then
    String.ofList <| Text.shown <|
      (logger.heading record).toList ++ indented record.message.toList ++ ['\n']
  else
    ""

end Logger

/-- What has become of work that is to be done only once. -/
inductive Once
  /-- It has not been tried. -/
  | fresh
  /-- It is done. -/
  | complete
  /-- It was tried and panicked. -/
  | poisoned
deriving DecidableEq, Repr

/-- The logging of a process. -/
structure Logging where
  installed : Option Logger
  once : Once
deriving DecidableEq, Repr

/-- What a call prints, whether it panics, and the logging it leaves behind. -/
structure Effect where
  state : Logging
  printed : String
  panicked : Bool
deriving DecidableEq, Repr

/-- One effect after another, of which the second is not reached if the first panics. -/
def Effect.andThen (first : Effect) (next : Logging → Effect) : Effect :=
  if first.panicked then first
  else
    let second := next first.state
    { second with printed := first.printed ++ second.printed }

/-- Complaints as they are printed, each on lines of its own; unlike messages they are
printed with everything that is in them. -/
def told (complaints : List String) : String := String.join (complaints.map (· ++ "\n"))

namespace Logging

/-- The logging of a process that has just begun. -/
def start : Logging := ⟨none, .fresh⟩

/-! ### What the process is relied on for

A logger is installed, and work is done only once, by means that belong to the process and
not to this library.  What is taken for granted about them is said here, in one definition
for each of them and nowhere else: a second logger is refused, who insists on installing it
panics, and work that panicked once panics whenever it is called for again. -/

section Process

/-- A logger was not installed, because there is one. -/
structure Refusal where
deriving DecidableEq, Repr

/-- Install a logger.  The first one stays, and any other is refused. -/
def install (logger : Logger) (state : Logging) : Except Refusal Logging :=
  match state.installed with
  | none => .ok { state with installed := some logger }
  | some _ => .error ⟨⟩

/-- Read the specification of the filter, printing the complaints about it, and try to
install a logger with that filter.  Whoever asked is told of a refusal. -/
def tryBuild (spec : String) (precision : Precision) (state : Logging) :
    Effect × Except Refusal Unit :=
  let parsed := parseFilter spec
  match state.install ⟨parsed.filter, precision⟩ with
  | .ok next => (⟨next, told parsed.complaints, false⟩, .ok ())
  | .error refusal => (⟨state, told parsed.complaints, false⟩, .error refusal)

/-- The same for someone who insists: a refusal is a panic. -/
def build (spec : String) (precision : Precision) (state : Logging) : Effect :=
  match state.tryBuild spec precision with
  | (effect, .ok ()) => effect
  | (effect, .error _) => { effect with panicked := true }

/-- Do work that is to be done only once, and remember whether it panicked. -/
def callOnce (work : Logging → Effect) (state : Logging) : Effect :=
  match state.once with
  | .complete => ⟨state, "", false⟩
  | .poisoned => ⟨state, "", true⟩
  | .fresh =>
    let effect := work state
    { effect with
      state.once := if effect.panicked then .poisoned else .complete }

/-- Hand a record to the logger. -/
def write (state : Logging) (record : Record) : Effect where
  state := state
  printed :=
    match state.installed with
    | some logger => logger.entry record
    | none => ""
  panicked := false

end Process

/-- Install the logger of a program, under the filter that `spec` stands for, and
log that it began; all this once. -/
def init (spec : String) (state : Logging) : Effect :=
  state.callOnce fun state =>
    (state.build spec .micros).andThen fun state => state.write (report .loggingInitialized)

/-- Install a logger for tests; it does not matter if there is one already. -/
def initTest (spec : String) (state : Logging) : Effect := (state.tryBuild spec .seconds).1

end Logging

/-- The calls by which a process acts on its logging. -/
inductive LogCall
  | init
  | initTest
  | write (record : Record)
deriving DecidableEq, Repr

namespace Logging

/-- One call, in a process whose filter specification is `spec`. -/
def perform (spec : String) (state : Logging) : LogCall → Effect
  | .init => state.init spec
  | .initTest => state.initTest spec
  | .write record => state.write record

/-- Calls one after another.  A panic ends the process, so nothing after it is
done. -/
def run (spec : String) : Logging → List LogCall → Effect
  | state, [] => ⟨state, "", false⟩
  | state, call :: calls => (state.perform spec call).andThen fun state => run spec state calls

/-- A logger that is installed already stays, and another one is refused. -/
theorem tryBuild_of_installed (spec : String) (precision : Precision) {state : Logging}
    {logger : Logger} (h : state.installed = some logger) :
    state.tryBuild spec precision =
      (⟨state, told (parseFilter spec).complaints, false⟩, .error ⟨⟩) := by
  simp only [tryBuild, install, h]

/-- **When `init` panics:** if it panicked before, or if it is called for the first time and
finds a logger. -/
theorem panicked_init_iff (spec : String) (state : Logging) :
    (state.init spec).panicked = true ↔
      state.once = .poisoned ∨ state.once = .fresh ∧ state.installed ≠ none := by
  unfold init callOnce
  cases state.once with
  | complete => simp
  | poisoned => simp
  | fresh =>
    cases hinstalled : state.installed with
    | none => simp [build, tryBuild, install, hinstalled, Effect.andThen, write]
    | some logger => simp [build, tryBuild_of_installed spec .micros hinstalled, Effect.andThen]

/-- Installing a logger for tests never panics. -/
theorem panicked_initTest (spec : String) (state : Logging) :
    (state.initTest spec).panicked = false := by
  unfold initTest tryBuild
  dsimp only
  split <;> rfl

/-- **The first logger stays.**  No call replaces a logger that is installed. -/
theorem installed_perform (spec : String) {state : Logging} {logger : Logger}
    (h : state.installed = some logger) (call : LogCall) :
    (state.perform spec call).state.installed = some logger := by
  cases call with
  | init =>
    have hrefused := tryBuild_of_installed spec .micros h
    simp only [perform, init, callOnce]
    cases state.once with
    | fresh => simp [build, hrefused, Effect.andThen, h]
    | complete => exact h
    | poisoned => exact h
  | initTest =>
    rw [perform, initTest, tryBuild_of_installed spec .seconds h]
    exact h
  | write record => exact h

end Logging

end SeedPhrase.Log
