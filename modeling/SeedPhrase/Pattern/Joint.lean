import SeedPhrase.Pattern.GapSet

/-!
# Parts of a pattern together

The parts of a pattern stand one behind another, or each in place of the others.  Either way
it does not matter which of them are put together first.

* `Joint.link`, `Joint.total` — what fits two parts together, or several;
* `Joint.passes` — the gaps at which two parts together let the empty text through;
* `link_assoc`, `total_append` — parts may be grouped as one likes.
-/

namespace SeedPhrase

/-- How parts of a pattern stand to each other. -/
inductive Joint
  /-- One text behind another. -/
  | inTurn
  /-- Any of the texts. -/
  | oneOf
deriving DecidableEq, Repr

namespace Joint

/-- The gaps at which two parts together let the empty text through. -/
def passes : Joint → GapSet → GapSet → GapSet
  | inTurn, x, y => x &&& y
  | oneOf, x, y => x ||| y

/-- What fits two parts together. -/
def link : Joint → Parts → Parts → Parts
  | inTurn => .seq
  | oneOf => .alt

/-- What fits no parts. -/
def nothing : Joint → Parts
  | inTurn => Eq
  | oneOf => fun _ _ => False

/-- What fits several parts together. -/
def total (joint : Joint) (parts : List Parts) : Parts := parts.foldr joint.link joint.nothing

/-- No parts in front of one add nothing. -/
theorem nothing_link (joint : Joint) (x : Parts) : joint.link joint.nothing x = x := by
  cases joint with
  | inTurn => exact Parts.eq_seq x
  | oneOf => funext p q; simp [link, nothing, Parts.alt]

/-- No parts behind one add nothing. -/
theorem link_nothing (joint : Joint) (x : Parts) : joint.link x joint.nothing = x := by
  cases joint with
  | inTurn => exact Parts.seq_eq x
  | oneOf => funext p q; simp [link, nothing, Parts.alt]

/-- Of three parts it does not matter which two are put together first. -/
theorem link_assoc (joint : Joint) (x y z : Parts) :
    joint.link (joint.link x y) z = joint.link x (joint.link y z) := by
  cases joint with
  | inTurn => exact Parts.seq_assoc x y z
  | oneOf => funext p q; simp [link, Parts.alt, or_assoc]

/-- Parts in two groups are the parts together. -/
theorem total_append (joint : Joint) (xs ys : List Parts) :
    joint.total (xs ++ ys) = joint.link (joint.total xs) (joint.total ys) := by
  induction xs with
  | nil => exact (nothing_link _ _).symm
  | cons x xs ih => exact (congrArg (joint.link x) ih).trans (link_assoc _ _ _ _).symm

/-- One part alone. -/
theorem total_single (joint : Joint) (x : Parts) : joint.total [x] = x := link_nothing joint x

end Joint

end SeedPhrase
