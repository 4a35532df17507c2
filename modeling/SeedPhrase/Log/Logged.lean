import SeedPhrase.Log.Record

/-!
# Computations that log

A computation that logs is its value together with the records that it produced,
in the order in which it produced them.  Records are handed on, never looked at, so
what is computed cannot depend on them.

* `Logged` — a value and its records, a monad that appends;
* `value_bind`, `records_bind` — what a sequence of two computes and what it logs;
* a `LawfulMonad` instance.
-/

namespace SeedPhrase.Log

/-- A value and the records produced on the way to it. -/
structure Logged (α : Type) where
  value : α
  records : List Record
deriving DecidableEq, Repr

namespace Logged

instance : Monad Logged where
  pure value := ⟨value, []⟩
  bind first next :=
    let second := next first.value
    ⟨second.value, first.records ++ second.records⟩

/-- Produce one record. -/
def write (record : Record) : Logged Unit := ⟨(), [record]⟩

@[ext] theorem ext {α : Type} {x y : Logged α} (hvalue : x.value = y.value)
    (hrecords : x.records = y.records) : x = y := by
  cases x; cases y; simp_all

@[simp] theorem value_pure {α : Type} (value : α) : (pure value : Logged α).value = value := rfl

@[simp] theorem records_pure {α : Type} (value : α) : (pure value : Logged α).records = [] := rfl

@[simp] theorem value_bind {α β : Type} (first : Logged α) (next : α → Logged β) :
    (first >>= next).value = (next first.value).value := rfl

@[simp] theorem records_bind {α β : Type} (first : Logged α) (next : α → Logged β) :
    (first >>= next).records = first.records ++ (next first.value).records := rfl

@[simp] theorem value_map {α β : Type} (f : α → β) (logged : Logged α) :
    (f <$> logged).value = f logged.value := rfl

@[simp] theorem records_map {α β : Type} (f : α → β) (logged : Logged α) :
    (f <$> logged).records = logged.records := List.append_nil _

@[simp] theorem value_write (record : Record) : (write record).value = () := rfl

@[simp] theorem records_write (record : Record) : (write record).records = [record] := rfl

instance : LawfulMonad Logged :=
  LawfulMonad.mk' Logged
    (fun _ => by ext <;> simp [Functor.map])
    (fun _ _ => by ext <;> simp)
    (fun _ _ _ => by ext <;> simp)

end Logged

end SeedPhrase.Log
