import SeedPhrase.Log.Record
import SeedPhrase.Pattern.Meaning
import SeedPhrase.Pattern.Search
import Std.Data.HashMap

/-!
# Which records are shown

A filter is written as a comma-separated list of directives.  A directive is a
level for everything, `level`; a level for one part of the program,
`target=level`, which covers all targets that begin with the one named; or a
target alone, which shows everything from there.  Levels are written in letters of
either case, and `off` shows nothing.  After a slash may follow a pattern that has to
fit some part of every shown message; one that is refused is left out.

* `parseFilter` — the filter a specification stands for, and what is wrong with it;
* `Filter.shows` — whether a record passes: of the directives that cover its
  target, the one with the longest name decides;
* `shows_parseFilter_iff`, `filter_parseFilter_of_refused` — what a pattern behind the slash
  comes to, and one that is refused.

A specification without any directive shows errors only.
-/

namespace SeedPhrase.Log

/-- The least grave level that is still shown; `none` shows nothing. -/
abbrev Threshold := Option Level

/-- Whether a threshold lets a level through. -/
def admits : Threshold → Level → Bool
  | some least, level => level.depth ≤ least.depth
  | none, _ => false

/-- A threshold for the targets that begin with `scope`, or for all of them. -/
structure Directive where
  scope : Option String
  threshold : Threshold
deriving DecidableEq, Repr

namespace Directive

/-- Whether a directive is about a target. -/
def covers (directive : Directive) (target : String) : Bool :=
  match directive.scope with
  | none => true
  | some scope => scope.toList.isPrefixOf target.toList

/-- The length of the name, in bytes; having none is as good as an empty one. -/
def weight (directive : Directive) : Nat :=
  match directive.scope with
  | none => 0
  | some scope => scope.utf8ByteSize

end Directive

/-- Directives in the order of their names' lengths, and the course of a pattern that has to
occur in every message. -/
structure Filter where
  directives : List Directive
  required : Option Course
deriving DecidableEq, Repr

/-- Directives of different names, with the place of each name. -/
structure Directives where
  items : Array Directive
  places : Std.HashMap (Option String) Nat

/-- A directive put among others; an earlier one of the same name gives way to it
and leaves it its place. -/
def Directives.insert (known : Directives) (directive : Directive) : Directives :=
  match known.places[directive.scope]? with
  | some place => { known with items := known.items.setIfInBounds place directive }
  | none =>
    { items := known.items.push directive
      places := known.places.insert directive.scope known.items.size }

namespace Filter

/-- A filter of given directives; without any it shows errors only.  Directives of
equal weight keep their order. -/
def ofDirectives (directives : List Directive) : Filter where
  directives :=
    if directives = [] then [⟨none, some .error⟩]
    else (directives.foldl Directives.insert ⟨#[], ∅⟩).items.toList.mergeSort
      fun x y => x.weight ≤ y.weight
  required := none

/-- The threshold for a target: that of the last directive that covers it. -/
def threshold (filter : Filter) (target : String) : Threshold :=
  match filter.directives.reverse.find? (·.covers target) with
  | some directive => directive.threshold
  | none => none

/-- Whether a record is shown. -/
def shows (filter : Filter) (record : Record) : Bool :=
  admits (filter.threshold record.target) record.level &&
    filter.required.all fun course => course.occursIn record.message

end Filter

/-- A word in capital letters, of the letters `a` to `z` only. -/
def upper (word : List Char) : String := String.ofList (word.map Char.toUpper)

/-- The threshold a word names, in letters of either case. -/
def Threshold.ofName? (word : List Char) : Option Threshold :=
  if upper word = "OFF" then some none
  else (Level.all.find? fun level => level.name = upper word).map some

/-- One item of a specification as a directive, or the part of it that is wrong. -/
def Directive.parse (item : List Char) : Except (List Char) Directive :=
  match item.splitOn '=' with
  | [name] =>
    match Threshold.ofName? name with
    | some threshold => .ok ⟨none, threshold⟩
    | none => .ok ⟨some (String.ofList name), some .trace⟩
  | [name, level] =>
    if Text.trim level = [] then
      .ok ⟨some (String.ofList name), some .trace⟩
    else
      match Threshold.ofName? (Text.trim level) with
      | some threshold => .ok ⟨some (String.ofList name), threshold⟩
      | none => .error (Text.trim level)
  | _ => .error item

/-- A filter together with the complaints about its specification. -/
structure ParsedFilter where
  filter : Filter
  complaints : List String
deriving DecidableEq, Repr

/-- The complaint about something that is then ignored. -/
def complaint (trouble : String) : String := "warning: " ++ trouble ++ ", ignoring it"

/-- What is wrong with a part of a specification. -/
def invalidSpec (part : String) : String := "invalid logging spec " ++ part

/-- A part of a specification in quotes. -/
def quoted (part : List Char) : String := "'" ++ String.ofList part ++ "'"

/-- The items of a specification, trimmed, without the empty ones. -/
def specItems (spec : List Char) : List (List Char) :=
  ((spec.splitOn ',').map Text.trim).filter (· ≠ [])

/-- A filter from the part of a specification before the slash. -/
def parseItems (spec : List Char) : ParsedFilter :=
  let parsed := (specItems spec).map Directive.parse
  { filter := .ofDirectives (parsed.filterMap Except.toOption)
    complaints := parsed.filterMap fun
      | .ok _ => none
      | .error part => some (complaint (invalidSpec (quoted part))) }

/-- A filter that also requires the pattern which stands behind the slash, if it is
one. -/
def ParsedFilter.requiring (parsed : ParsedFilter) (written : String) : ParsedFilter :=
  match Pattern.ofString written with
  | .ok pattern => { parsed with filter := { parsed.filter with required := some pattern.course } }
  | .error refusal =>
    let trouble := "invalid regex filter - " ++ refusal.message written
    { parsed with complaints := parsed.complaints ++ [complaint trouble] }

/-- The filter a specification stands for.  More than one slash makes all of it
void. -/
def parseFilter (spec : String) : ParsedFilter :=
  match spec.toList.splitOn '/' with
  | [items] => parseItems items
  | [items, written] => (parseItems items).requiring (String.ofList written)
  | _ =>
    { filter := .ofDirectives []
      complaints := [complaint (invalidSpec (quoted spec.toList ++ " (too many '/'s)"))] }

section Patterns

variable {items written : List Char} (hitems : '/' ∉ items) (hwritten : '/' ∉ written)

include hitems hwritten

/-- One slash divides a specification into items and what is written behind them. -/
theorem parseFilter_of_slash :
    parseFilter (String.ofList (items ++ '/' :: written)) =
      (parseItems items).requiring (String.ofList written) := by
  have hcut : (items ++ '/' :: written).splitOn '/' = [items, written] := by
    rw [List.splitOn_append_cons_self_of_not_mem hitems, List.splitOn_eq_singleton hwritten]
  rw [parseFilter, String.toList_ofList, hcut]

/-- **A pattern has to fit some part of every shown message,** and nothing else is asked of a
record than without the pattern. -/
theorem shows_parseFilter_iff {pattern : Pattern}
    (hpattern : Pattern.ofString (String.ofList written) = .ok pattern) (record : Record) :
    (parseFilter (String.ofList (items ++ '/' :: written))).filter.shows record = true ↔
      (parseItems items).filter.shows record = true ∧ pattern.OccursIn record.message := by
  have hplain : (parseItems items).filter.shows record =
      admits ((parseItems items).filter.threshold record.target) record.level := Bool.and_true _
  rw [parseFilter_of_slash hitems hwritten, ParsedFilter.requiring, hpattern, hplain,
    ← occursIn_course_iff, ← Bool.and_eq_true]
  rfl

/-- A pattern that is refused is left out. -/
theorem filter_parseFilter_of_refused {refusal : Pattern.Refusal}
    (hrefused : Pattern.ofString (String.ofList written) = .error refusal) :
    (parseFilter (String.ofList (items ++ '/' :: written))).filter = (parseItems items).filter := by
  rw [parseFilter_of_slash hitems hwritten, ParsedFilter.requiring, hrefused]

end Patterns

end SeedPhrase.Log
