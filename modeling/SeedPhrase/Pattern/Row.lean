import SeedPhrase.Pattern.Basic

/-!
# Rows of characters

Characters that stand one behind another, each of a set of its own, are looked for together.
A word has one bit for each of them, the first one lowest, and every set comes once, with the
bits of the characters that are of it.

* `Row.mask` — the bits of all those that a character can be;
* `Row.append` — one row behind another;
* `Row.Fits` — what fits a row;
* `fits_single`, `fits_append` — rows are made of characters.
-/

namespace SeedPhrase

/-- Characters one behind another, by their sets and bits. -/
structure Row where
  masks : List (CharSet × UInt64)
  length : Nat
deriving DecidableEq, Repr

namespace Row

/-- The greatest length of a row. -/
abbrev maxLength : Nat := 64

/-- One character of a set. -/
def single (set : CharSet) : Row := ⟨[(set, 1)], 1⟩

/-- The bits of all the sets that hold a character. -/
def maskIn (c : Char) : List (CharSet × UInt64) → UInt64
  | [] => 0
  | (set, bits) :: masks => if set.contains c then bits ||| maskIn c masks else maskIn c masks

/-- The bits of all the characters of a row that a character can be. -/
def mask (row : Row) (c : Char) : UInt64 := maskIn c row.masks

/-- The bit of the last character. -/
def last (row : Row) : UInt64 := 1 <<< (row.length - 1).toUInt64

/-- More bits for a set. -/
def insertMask (set : CharSet) (bits : UInt64) :
    List (CharSet × UInt64) → List (CharSet × UInt64)
  | [] => [(set, bits)]
  | (other, own) :: masks =>
    if set = other then (other, own ||| bits) :: masks
    else (other, own) :: insertMask set bits masks

/-- A row behind another. -/
def append (x y : Row) : Row where
  masks := y.masks.foldr
    (fun (set, bits) masks => insertMask set (bits <<< x.length.toUInt64) masks) x.masks
  length := x.length + y.length

/-- Whether a character can be the one at some place of a row. -/
def admits (row : Row) (place : Nat) (c : Char) : Bool := (row.mask c).toBitVec.getLsbD place

/-- What fits the last so many characters of a row. -/
def FitsLast (row : Row) : Nat → Parts
  | 0 => Eq
  | left + 1 => .seq (.char (row.admits (row.length - (left + 1)))) (FitsLast row left)

/-- What fits a row. -/
def Fits (row : Row) : Parts := row.FitsLast row.length

/-- That a row is of a length that it may have, and has no bits behind its last
character. -/
structure Sound (row : Row) : Prop where
  length_pos : 0 < row.length
  length_le : row.length ≤ maxLength
  admits_lt : ∀ {place c}, row.admits place c = true → place < row.length

/-- More bits for a set come into play where the set holds a character. -/
theorem maskIn_insertMask (c : Char) (set : CharSet) (bits : UInt64)
    (masks : List (CharSet × UInt64)) :
    maskIn c (insertMask set bits masks) =
      maskIn c masks ||| (if set.contains c then bits else 0) := by
  induction masks with
  | nil => by_cases h : set.contains c <;> simp [insertMask, maskIn, h]
  | cons mask masks ih =>
    obtain ⟨other, own⟩ := mask
    by_cases heq : set = other
    · subst heq
      by_cases h : set.contains c
      · simp only [insertMask, maskIn, h, ↓reduceIte]
        ac_rfl
      · simp [insertMask, maskIn, h]
    · by_cases h : other.contains c
      · simp [insertMask, maskIn, h, heq, ih, UInt64.or_assoc]
      · simp [insertMask, maskIn, h, heq, ih]

/-- The bits of two rows lie one behind the other. -/
theorem mask_append (x y : Row) (c : Char) :
    (x.append y).mask c = x.mask c ||| (y.mask c <<< x.length.toUInt64) := by
  have shift (a b k : UInt64) : (a ||| b) <<< k = (a <<< k) ||| (b <<< k) :=
    UInt64.toBitVec_inj.mp (by simp [BitVec.shiftLeft_or_distrib])
  unfold mask append
  simp only
  induction y.masks with
  | nil => simp [maskIn]
  | cons mask masks ih =>
    obtain ⟨set, bits⟩ := mask
    rw [List.foldr_cons, maskIn_insertMask, ih]
    by_cases h : set.contains c
    · simp only [maskIn, h, ↓reduceIte, shift]
      ac_rfl
    · simp [maskIn, h]

/-- What a row admits behind the characters of another is moved up by so many places. -/
theorem admits_append {x y : Row} (hx : x.length < maxLength) (place : Nat) (c : Char) :
    (x.append y).admits place c =
      (x.admits place c || (decide (x.length ≤ place) && decide (place < maxLength) &&
        y.admits (place - x.length) c)) := by
  have shift (a : UInt64) : (a <<< x.length.toUInt64).toBitVec.getLsbD place =
      (decide (x.length ≤ place) && decide (place < 64) &&
        a.toBitVec.getLsbD (place - x.length)) := by
    have hnot : (!decide (place < x.length)) = decide (x.length ≤ place) := by
      simp [← decide_not]
    simp only [UInt64.toBitVec_shiftLeft]
    simp [Nat.mod_eq_of_lt hx, hnot, Bool.and_comm]
  rw [admits, mask_append, UInt64.toBitVec_or, BitVec.getLsbD_or, shift, admits, admits]

/-- One character is a row. -/
theorem sound_single (set : CharSet) : (single set).Sound where
  length_pos := Nat.one_pos
  length_le := Nat.le_of_ble_eq_true rfl
  admits_lt := by
    intro place c h
    by_cases hset : set.contains c
    · simpa [admits, mask, single, maskIn, hset] using h
    · simp [admits, mask, single, maskIn, hset] at h

/-- One row behind another is a row, if it is not too long. -/
theorem Sound.append {x y : Row} (hx : x.Sound) (hy : y.Sound)
    (h : x.length + y.length ≤ maxLength) : (x.append y).Sound where
  length_pos := Nat.lt_of_lt_of_le hx.length_pos (Nat.le_add_right _ _)
  length_le := h
  admits_lt := by
    intro place c hc
    have hxlt : x.length < maxLength := by have := hy.length_pos; omega
    rw [admits_append hxlt] at hc
    simp only [Bool.or_eq_true, Bool.and_eq_true, decide_eq_true_eq] at hc
    change place < x.length + y.length
    rcases hc with hc | ⟨⟨hle, -⟩, hc⟩
    · have := hx.admits_lt hc
      omega
    · have := hy.admits_lt hc
      omega

/-- The last characters of a row depend on nothing else. -/
theorem fitsLast_congr {x y : Row} {left : Nat}
    (h : ∀ j < left, ∀ c, x.admits (x.length - (j + 1)) c = y.admits (y.length - (j + 1)) c) :
    x.FitsLast left = y.FitsLast left := by
  induction left with
  | zero => rfl
  | succ left ih =>
    rw [FitsLast, FitsLast, ih fun j hj => h j (by omega),
      funext fun c => h left (by omega) c]

/-- **A row of one** takes one character of the set. -/
theorem fits_single (set : CharSet) : (single set).Fits = Parts.char set.contains := by
  have h : (single set).admits 0 = set.contains := by
    funext c
    by_cases hset : set.contains c <;> simp [admits, mask, single, maskIn, hset]
  exact (congrArg (fun p => Parts.seq (Parts.char p) Eq) h).trans (Parts.seq_eq _)

/-- **A row behind another** takes what the two of them take in turn. -/
theorem fits_append {x y : Row} (hx : x.Sound) (hy : y.Sound)
    (h : x.length + y.length ≤ maxLength) : (x.append y).Fits = .seq x.Fits y.Fits := by
  have hpos := hy.length_pos
  have hxlt : x.length < maxLength := by omega
  have hlength : (x.append y).length = x.length + y.length := rfl
  have behind : (x.append y).FitsLast y.length = y.Fits := by
    refine fitsLast_congr fun j hj c => ?_
    rw [admits_append hxlt, hlength]
    have hnone : x.admits (x.length + y.length - (j + 1)) c = false := by
      rw [Bool.eq_false_iff]
      intro hc
      have := hx.admits_lt hc
      omega
    have hplace : x.length + y.length - (j + 1) - x.length = y.length - (j + 1) := by omega
    have hle : x.length ≤ x.length + y.length - (j + 1) := by omega
    have hlt : x.length + y.length - (j + 1) < maxLength := by omega
    simp [hnone, hplace, hle, hlt]
  have front (left : Nat) (hleft : left ≤ x.length) :
      (x.append y).FitsLast (left + y.length) = .seq (x.FitsLast left) y.Fits := by
    induction left with
    | zero => rw [Nat.zero_add, behind, FitsLast, Parts.eq_seq]
    | succ left ih =>
      have hadmits : (x.append y).admits (x.length + y.length - (left + y.length + 1)) =
          x.admits (x.length - (left + 1)) := by
        funext c
        have hplace : x.length + y.length - (left + y.length + 1) = x.length - (left + 1) := by
          omega
        have hnot : ¬ x.length ≤ x.length - (left + 1) := by omega
        rw [admits_append hxlt, hplace]
        simp [hnot]
      rw [Nat.add_right_comm, FitsLast, ih (by omega), hlength, hadmits, FitsLast,
        Parts.seq_assoc]
  exact front x.length (Nat.le_refl _)

/-- A row takes characters in the direction of the text. -/
theorem forward_fitsLast (row : Row) (left : Nat) : Parts.Forward (row.FitsLast left) := by
  induction left with
  | zero => exact Parts.forward_eq
  | succ left ih => exact (Parts.forward_char _).seq ih

end Row

end SeedPhrase
