import SeedPhrase.Cache.Basic

/-!
# References to a cached list

A caller may keep the list it was given, under a name of its choice.  What is kept
is the list itself: whatever the cache does afterwards, the reference goes on
answering as on the first day.

* `References` — the lists that are kept, by name, and what can be looked up in them;
* `find?_keep`, `find?_release` — keeping and letting go under one name leaves the others alone;
* `Shelf` — a cache with the references taken from it;
* `Shelf.perform`, `Shelf.run` — asking, keeping, letting go and forgetting, once and again.
-/

namespace SeedPhrase

open Log (Logged)

/-- Kept lists with their names; no name is used twice. -/
structure References where
  entries : List (String × Loaded)

namespace References

/-- Nothing is kept. -/
def none : References := ⟨[]⟩

/-- The list kept under a name. -/
def find? (references : References) (name : String) : Option Loaded :=
  references.entries.lookup name

/-- Keep nothing under a name. -/
def release (references : References) (name : String) : References :=
  ⟨references.entries.filter fun entry => entry.1 ≠ name⟩

/-- Keep a list under a name, instead of what was kept there before. -/
def keep (references : References) (name : String) (loaded : Loaded) : References :=
  ⟨(name, loaded) :: (references.release name).entries⟩

/-- The word at a place of the list kept under a name. -/
def get? (references : References) (name : String) (place : Nat) : Option String :=
  (references.find? name).bind (·.list.get? place)

/-- The place of a word in the list kept under a name. -/
def indexOf? (references : References) (name w : String) : Option WordList.Index :=
  (references.find? name).bind (·.list.indexOf? w)

/-- What is kept under a name is found there. -/
@[simp] theorem find?_keep_self (references : References) (name : String) (loaded : Loaded) :
    (references.keep name loaded).find? name = some loaded := by
  simp [find?, keep]

/-- Nothing is found where it was let go of, and elsewhere what was found before. -/
theorem find?_release (references : References) (released name : String) :
    (references.release released).find? name =
      if name = released then Option.none else references.find? name := by
  obtain ⟨entries⟩ := references
  simp only [find?, release]
  induction entries with
  | nil => simp
  | cons entry entries ih =>
    by_cases hentry : entry.1 = released
    · rw [List.filter_cons_of_neg (by simpa using hentry), ih, List.lookup_cons]
      grind
    · rw [List.filter_cons_of_pos (by simpa using hentry), List.lookup_cons, List.lookup_cons, ih]
      grind

/-- A list is found where it was kept, and elsewhere what was found before. -/
theorem find?_keep (references : References) (kept name : String) (loaded : Loaded) :
    (references.keep kept loaded).find? name =
      if name = kept then some loaded else references.find? name := by
  by_cases hname : name = kept
  · rw [if_pos hname, hname, find?_keep_self]
  · have hrelease := references.find?_release kept name
    rw [if_neg hname] at hrelease ⊢
    rw [← hrelease, find?, find?, keep, List.lookup_cons, beq_false_of_ne hname]

end References

/-- Whether two kept lists come from the same load. -/
def Loaded.sameObject (x y : Loaded) : Bool := x.serial = y.serial

/-- A cache and the references taken from it. -/
structure Shelf where
  cache : Cache
  references : References

/-- What is done with a cache and references. -/
inductive ShelfStep
  /-- Ask for the list, and keep it under a name if there is one to be had. -/
  | hold (name : String)
  /-- Ask for the list without keeping it. -/
  | get
  /-- Let the cache forget its list. -/
  | evict
  /-- Let go of a reference. -/
  | release (name : String)

/-- What a step comes back with. -/
inductive ShelfAnswer
  | reply (reply : Reply)
  | evicted
  | released (found : Bool)

namespace Shelf

/-- A cache that was never used, and no references. -/
def empty : Shelf := ⟨.empty, .none⟩

/-- The references after asking for the list: a failure leaves them as they are. -/
def keepReply (references : References) (name : String) : Reply → References
  | .list loaded => references.keep name loaded
  | _ => references

/-- One step. -/
def perform (loader : Loader) (shelf : Shelf) : ShelfStep → Logged (ShelfAnswer × Shelf)
  | .hold name => do
    let (reply, cache) ← shelf.cache.get loader
    return (.reply reply, ⟨cache, keepReply shelf.references name reply⟩)
  | .get => do
    let (reply, cache) ← shelf.cache.get loader
    return (.reply reply, { shelf with cache := cache })
  | .evict => do
    let cache ← shelf.cache.evict
    return (.evicted, { shelf with cache := cache })
  | .release name =>
    return (.released (shelf.references.find? name).isSome,
      { shelf with references := shelf.references.release name })

/-- Steps one after another, and their answers in order. -/
def run (loader : Loader) : List ShelfStep → Shelf → Logged (List ShelfAnswer × Shelf)
  | [], shelf => pure ([], shelf)
  | step :: steps, shelf => do
    let (answer, next) ← shelf.perform loader step
    let (answers, last) ← run loader steps next
    return (answer :: answers, last)

end Shelf

end SeedPhrase
