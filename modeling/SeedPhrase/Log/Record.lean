import SeedPhrase.Error

/-!
# Log records

Everything that is ever logged is one of a few events, and the text of each event
is written here.  An event has no field for a secret: a rejected mnemonic is
logged by the kind of its rejection, an error by the name of its type, a derivation
by the time it took.

* `Event.message`, `Event.level` — the text of an event and how grave it is;
* `Record` — an event together with the place that reported it.
-/

namespace SeedPhrase.Log

/-- How grave a record is, the gravest first. -/
inductive Level
  | error
  | warn
  | info
  | debug
  | trace
deriving DecidableEq, Repr

namespace Level

/-- The levels, the gravest first. -/
def all : List Level := [error, warn, info, debug, trace]

/-- The name of a level. -/
def name : Level → String
  | error => "ERROR"
  | warn => "WARN"
  | info => "INFO"
  | debug => "DEBUG"
  | trace => "TRACE"

/-- How far down the levels one stands, the gravest at one; a log that shows a level
shows all that stand higher. -/
def depth : Level → Nat
  | error => 1
  | warn => 2
  | info => 3
  | debug => 4
  | trace => 5

end Level

/-- What happened. -/
inductive Event
  /-- A cryptographic operation failed with an error of the named type. -/
  | operationFailed (operation errorType : String)
  /-- A cryptographic operation succeeded in spite of an error of the named type. -/
  | operationWarning (operation errorType : String)
  /-- A validation step rejected its input; the input itself is not recorded. -/
  | inputRejected (operation kind : String)
  /-- An operation ended after so many milliseconds, if anyone measured them. -/
  | operationTimed (operation : String) (millis : Option Nat) (succeeded : Bool)
  /-- The content of a cache changed, and to how many entries if it still has any. -/
  | cacheChanged (cache change : String) (entries : Option Nat)
  /-- The log itself began. -/
  | loggingInitialized
deriving DecidableEq, Repr

namespace Event

/-- How grave an event is. -/
def level : Event → Level
  | operationFailed _ _ => .error
  | operationWarning _ _ => .warn
  | inputRejected _ _ => .warn
  | operationTimed _ _ true => .debug
  | operationTimed _ _ false => .warn
  | cacheChanged _ _ (some _) => .info
  | cacheChanged _ _ none => .debug
  | loggingInitialized => .info

/-- A duration in milliseconds; a letter stands in for one that was not measured. -/
def shownMillis : Option Nat → String
  | some millis => toString millis
  | none => "N"

/-- The text of an event. -/
def message : Event → String
  | operationFailed operation errorType =>
    "Cryptographic operation failed: " ++ operation ++ " (error_type: " ++ errorType ++ ")"
  | operationWarning operation errorType =>
    "Cryptographic operation warning: " ++ operation ++ " (error_type: " ++ errorType ++ ")"
  | inputRejected operation kind =>
    "Input rejected: " ++ operation ++ " (kind: " ++ kind ++ ")"
  | operationTimed operation millis true =>
    "Performance: " ++ operation ++ " completed in " ++ shownMillis millis ++ "ms"
  | operationTimed operation millis false =>
    "Performance: " ++ operation ++ " failed after " ++ shownMillis millis ++ "ms"
  | cacheChanged cache change (some entries) =>
    "Cache: " ++ cache ++ " " ++ change ++ " (" ++ toString entries ++ " entries)"
  | cacheChanged cache change none => "Cache: " ++ cache ++ " " ++ change
  | loggingInitialized => "Structured logging initialized"

end Event

/-- An event and the place that reported it, by whose name a log can be filtered. -/
structure Record where
  target : String
  event : Event
deriving DecidableEq, Repr

namespace Record

/-- How grave the recorded event is. -/
def level (record : Record) : Level := record.event.level

/-- The text of the recorded event. -/
def message (record : Record) : String := record.event.message

end Record

/-- The place through which most events are reported. -/
def facadeTarget : String := "cryypt_common::error::logging"

/-- The place that reports a word list that cannot be loaded. -/
def wordListTarget : String := "cryypt_mnemonic::wordlist::cache"

/-- The type of an `Error`, by name. -/
def errorType : String := "cryypt_mnemonic::error::MnemonicError"

/-- The type of a `BadMnemonic`, by name. -/
def badMnemonicType : String := "cryypt_mnemonic::error::BadMnemonic"

/-- The type of an error of which nothing is known. -/
def anyErrorType : String := "dyn core::error::Error"

/-- An event reported in the usual place. -/
def report (event : Event) : Record := ⟨facadeTarget, event⟩

/-- A failed operation; of the error not even the type is told. -/
def cryptoFailure (operation : String) : Record :=
  report (.operationFailed operation anyErrorType)

/-- A rejected input, by the kind of the rejection. -/
def rejectedInput (operation kind : String) : Record :=
  report (.inputRejected operation kind)

/-- The time an operation took. -/
def performance (operation : String) (millis : Option Nat) (succeeded : Bool) : Record :=
  report (.operationTimed operation millis succeeded)

/-- A changed cache. -/
def cacheEvent (cache change : String) (entries : Option Nat) : Record :=
  report (.cacheChanged cache change entries)

end SeedPhrase.Log
