import SeedPhrase.WordList.Basic

/-!
# Words by their byte values

A table of words is checked faster by the values of its bytes than by its
characters, for the bytes are what a string is made of.  In a string all of whose
bytes are below 128 every byte is a character, so on such strings the two views
agree: what the bytes say about letters and about order holds of the strings.

* `isWord_iff_codes`, `isWord_of_codes`, `lt_of_codes` — the rules for one word and for two;
* `codes_injective` — a string is known by its bytes;
* `codes_lt_codes_iff`, `codes_lt_iff_of_isWord` — the order of words is that of their bytes, among
  themselves and against any other string;
* `fault?_eq_none_of_codes` — the rules for a whole table.
-/

namespace SeedPhrase.WordList

/-- The values of the bytes of a string. -/
def codes (w : String) : List Nat := w.toByteArray.data.toList.map UInt8.toNat

/-- Whether all values are those of the letters `a` to `z`, and there is one. -/
def areLetters : List Nat → Bool
  | [] => false
  | [n] => Nat.ble 97 n && Nat.ble n 122
  | n :: ns => Nat.ble 97 n && Nat.ble n 122 && areLetters ns

/-- Whether one sequence of values comes before another, as in a dictionary. -/
def comesBefore : List Nat → List Nat → Bool
  | _, [] => false
  | [], _ :: _ => true
  | m :: ms, n :: ns => Nat.blt m n || (Nat.beq m n && comesBefore ms ns)

/-- Whether each sequence of values comes before the next. -/
def ascend : List (List Nat) → Bool
  | x :: y :: rest => comesBefore x y && ascend (y :: rest)
  | _ => true

/-- The values of the bytes of a character. -/
def charCodes (c : Char) : List Nat := (String.utf8EncodeChar c).map UInt8.toNat

/-- Strings with the same bytes are the same. -/
theorem codes_injective : Function.Injective codes := by
  intro v w h
  have hbytes := (List.map_inj_right fun _ _ => UInt8.toNat_inj.mp).mp h
  exact String.toByteArray_inj.mp (ByteArray.ext (Array.toList_inj.mp hbytes))

/-- The bytes of a string are those of its characters. -/
theorem codes_eq_flatMap (w : String) : codes w = w.toList.flatMap charCodes := by
  rw [codes, ← String.utf8Encode_toList, List.utf8Encode, List.toList_data_toByteArray,
    List.map_flatMap]
  rfl

/-- A character below 128 is one byte. -/
theorem charCodes_of_lt {c : Char} (h : c.toNat < 128) : charCodes c = [c.toNat] := by
  have hle : c.val.toNat ≤ 127 := Nat.le_of_lt_succ h
  simp only [charCodes, String.utf8EncodeChar, if_pos hle, List.map_cons, List.map_nil,
    UInt8.toNat_ofNat', Char.toNat]
  rw [Nat.mod_eq_of_lt (by omega)]

/-- A character has a first byte, which is above 127 if the character is. -/
theorem exists_charCodes_cons (c : Char) :
    ∃ n ns, charCodes c = n :: ns ∧ (128 ≤ c.toNat → 128 ≤ n) := by
  rcases Nat.lt_or_ge c.toNat 128 with hlt | hge
  · exact ⟨_, [], charCodes_of_lt hlt, fun hge => absurd hlt (Nat.not_lt.mpr hge)⟩
  · have hgt : ¬ c.val.toNat ≤ 127 := Nat.not_le.mpr hge
    unfold charCodes String.utf8EncodeChar
    simp only
    rw [if_neg hgt]
    -- The first byte of a longer character tells how long it is, by a number above 128.
    split
    · refine ⟨_, _, rfl, fun _ => ?_⟩
      simp only [UInt8.toNat_ofNat']
      omega
    · split
      · refine ⟨_, _, rfl, fun _ => ?_⟩
        simp only [UInt8.toNat_ofNat']
        omega
      · refine ⟨_, _, rfl, fun _ => ?_⟩
        simp only [UInt8.toNat_ofNat']
        omega

/-- A character whose bytes are all below 128 is one byte. -/
theorem charCodes_eq_of_lt {c : Char} (h : ∀ n ∈ charCodes c, n < 128) :
    charCodes c = [c.toNat] := by
  rcases Nat.lt_or_ge c.toNat 128 with hlt | hge
  · exact charCodes_of_lt hlt
  · obtain ⟨n, ns, hcodes, hfirst⟩ := exists_charCodes_cons c
    have hn : n < 128 := h n (hcodes ▸ List.mem_cons_self)
    exact absurd (hfirst hge) (Nat.not_le.mpr hn)

/-- **Below 128 bytes are characters.** -/
theorem codes_eq_map_of_lt {w : String} (h : ∀ n ∈ codes w, n < 128) :
    codes w = w.toList.map Char.toNat := by
  rw [codes_eq_flatMap] at h ⊢
  generalize w.toList = cs at h ⊢
  induction cs with
  | nil => rfl
  | cons c cs ih =>
    rw [List.flatMap_cons] at h ⊢
    rw [charCodes_eq_of_lt fun n hn => h n (List.mem_append_left _ hn),
      ih fun n hn => h n (List.mem_append_right _ hn)]
    rfl

/-- Letters have values between those of `a` and `z`. -/
theorem mem_of_areLetters {ns : List Nat} (h : areLetters ns = true) :
    ns ≠ [] ∧ ∀ n ∈ ns, 97 ≤ n ∧ n ≤ 122 := by
  fun_induction areLetters ns with
  | case1 => simp at h
  | case2 n => simpa [Nat.ble_eq] using h
  | case3 n ns _ ih =>
    simp only [Bool.and_eq_true, Nat.ble_eq] at h
    simpa using ⟨h.1, (ih h.2).2⟩

/-- The values of letters are the letters. -/
theorem codes_eq_map_of_areLetters {w : String} (h : areLetters (codes w) = true) :
    codes w = w.toList.map Char.toNat :=
  codes_eq_map_of_lt fun n hn => by
    have := (mem_of_areLetters h).2 n hn
    omega

/-- The values of the letters `a` to `z`. -/
theorem toNat_of_isLetter {c : Char} (h : 'a' ≤ c ∧ c ≤ 'z') : 97 ≤ c.toNat ∧ c.toNat ≤ 122 := by
  simp only [Char.le_def, UInt32.le_iff_toNat_le] at h
  exact h

/-- The bytes of a word are its letters. -/
theorem codes_eq_map_of_isWord {w : String} (h : IsWord w) : codes w = w.toList.map Char.toNat := by
  apply codes_eq_map_of_lt
  intro n hn
  rw [codes_eq_flatMap] at hn
  obtain ⟨c, hc, hn⟩ := List.mem_flatMap.mp hn
  have hletter := toNat_of_isLetter (h.2 c hc)
  rw [charCodes_of_lt (by omega), List.mem_singleton] at hn
  omega

/-- **A word is known by its bytes:** there are some, and they are those of letters. -/
theorem isWord_iff_codes {w : String} :
    IsWord w ↔ w ≠ "" ∧ ∀ n ∈ codes w, 97 ≤ n ∧ n ≤ 122 := by
  constructor
  · intro h
    refine ⟨h.1, fun n hn => ?_⟩
    rw [codes_eq_map_of_isWord h] at hn
    obtain ⟨c, hc, rfl⟩ := List.mem_map.mp hn
    exact toNat_of_isLetter (h.2 c hc)
  · intro ⟨hne, hletters⟩
    have hlow : ∀ n ∈ codes w, n < 128 := fun n hn => by
      have := hletters n hn
      omega
    rw [codes_eq_map_of_lt hlow] at hletters
    refine ⟨hne, fun c hc => ?_⟩
    simp only [Char.le_def, UInt32.le_iff_toNat_le]
    exact hletters c.toNat (List.mem_map_of_mem hc)

/-- A string whose bytes are letters is a word. -/
theorem isWord_of_codes {w : String} (h : areLetters (codes w) = true) : IsWord w := by
  obtain ⟨hne, hletters⟩ := mem_of_areLetters h
  refine isWord_iff_codes.mpr ⟨?_, hletters⟩
  rintro rfl
  exact hne rfl

/-- Values that come before others belong to a smaller string of characters. -/
theorem lt_of_comesBefore {xs ys : List Char}
    (h : comesBefore (xs.map Char.toNat) (ys.map Char.toNat) = true) : xs < ys := by
  induction xs generalizing ys with
  | nil =>
    cases ys with
    | nil => simp [comesBefore] at h
    | cons y ys => exact List.nil_lt_cons y ys
  | cons x xs ih =>
    cases ys with
    | nil => simp [comesBefore] at h
    | cons y ys =>
      simp only [List.map_cons, comesBefore, Bool.or_eq_true, Nat.blt_eq, Bool.and_eq_true,
        Nat.beq_eq] at h
      rw [List.cons_lt_cons_iff]
      rcases h with hlt | ⟨heq, hrest⟩
      · exact .inl (Char.lt_def.mpr (UInt32.lt_iff_toNat_lt.mpr hlt))
      · exact .inr ⟨Char.toNat_inj.mp heq, ih hrest⟩

theorem map_toNat_lt_map_iff {xs ys : List Char} :
    xs.map Char.toNat < ys.map Char.toNat ↔ xs < ys := by
  induction xs generalizing ys with
  | nil => cases ys <;> simp
  | cons x xs ih =>
    cases ys with
    | nil => simp
    | cons y ys =>
      rw [List.map_cons, List.map_cons, List.cons_lt_cons_iff, List.cons_lt_cons_iff, ih,
        Char.toNat_inj, Char.lt_def, UInt32.lt_iff_toNat_lt]
      rfl

/-- **Words have the order of their bytes.** -/
theorem codes_lt_codes_iff {v w : String} (hv : IsWord v) (hw : IsWord w) :
    codes v < codes w ↔ v < w := by
  rw [codes_eq_map_of_isWord hv, codes_eq_map_of_isWord hw]
  exact map_toNat_lt_map_iff

/-- Characters below 128 have the order of the bytes, whatever they are compared with. -/
theorem map_toNat_lt_flatMap_iff {xs ys : List Char} (h : ∀ c ∈ xs, c.toNat < 128) :
    xs.map Char.toNat < ys.flatMap charCodes ↔ xs < ys := by
  induction xs generalizing ys with
  | nil =>
    cases ys with
    | nil => simp
    | cons y ys =>
      obtain ⟨n, ns, hcodes, -⟩ := exists_charCodes_cons y
      rw [List.flatMap_cons, hcodes]
      exact iff_of_true (List.nil_lt_cons _ _) (List.nil_lt_cons _ _)
  | cons x xs ih =>
    have hx := h x List.mem_cons_self
    cases ys with
    | nil => simp
    | cons y ys =>
      rw [List.map_cons, List.flatMap_cons, List.cons_lt_cons_iff, Char.lt_def,
        UInt32.lt_iff_toNat_lt]
      rcases Nat.lt_or_ge y.toNat 128 with hy | hy
      · rw [charCodes_of_lt hy, List.singleton_append, List.cons_lt_cons_iff,
          ih fun c hc => h c (List.mem_cons_of_mem _ hc), Char.toNat_inj]
        rfl
      · -- A longer character is greater, and so is its first byte.
        obtain ⟨n, ns, hcodes, hfirst⟩ := exists_charCodes_cons y
        rw [hcodes, List.cons_append, List.cons_lt_cons_iff]
        have hxy : x.val.toNat < y.val.toNat := Nat.lt_of_lt_of_le hx hy
        exact iff_of_true (.inl (Nat.lt_of_lt_of_le hx (hfirst hy))) (.inl hxy)

/-- **A word has the order of its bytes** also against strings that are no words. -/
theorem codes_lt_iff_of_isWord {v : String} (h : IsWord v) {w : String} :
    codes v < codes w ↔ v < w := by
  rw [codes_eq_map_of_isWord h, codes_eq_flatMap, map_toNat_lt_flatMap_iff]
  · rfl
  · intro c hc
    have hletter := toNat_of_isLetter (h.2 c hc)
    omega

/-- Of two strings of letters the one whose bytes come first is smaller. -/
theorem lt_of_codes {v w : String} (hv : areLetters (codes v) = true)
    (hw : areLetters (codes w) = true) (h : comesBefore (codes v) (codes w) = true) : v < w := by
  rw [codes_eq_map_of_areLetters hv, codes_eq_map_of_areLetters hw] at h
  exact lt_of_comesBefore h

/-- In an ascending sequence each comes before the next. -/
theorem comesBefore_of_ascend {xs : List (List Nat)} (h : ascend xs = true) {i : Nat}
    (hi : i + 1 < xs.length) : comesBefore xs[i] xs[i + 1] = true := by
  induction xs generalizing i with
  | nil => simp at hi
  | cons x xs ih =>
    cases xs with
    | nil => simp at hi
    | cons y rest =>
      simp only [ascend, Bool.and_eq_true] at h
      cases i with
      | zero => exact h.1
      | succ i => exact ih h.2 (Nat.lt_of_succ_lt_succ hi)

/-- **A table can be checked by its bytes.**  2048 strings of letters of which each
comes before the next break no rule. -/
theorem fault?_eq_none_of_codes {lines : List String} (hlength : lines.length = size)
    (hletters : (lines.map codes).all areLetters = true)
    (hascend : ascend (lines.map codes) = true) : fault? lines = none := by
  have hletters : ∀ line ∈ lines, areLetters (codes line) = true := by
    simpa [List.all_eq_true] using hletters
  apply fault?_eq_none hlength
  · intro line hline
    exact isWord_of_codes (hletters line hline)
  · intro i hi
    have hcodes := comesBefore_of_ascend hascend (i := i) (by simpa using hi)
    simp only [List.getElem_map] at hcodes
    exact lt_of_codes (hletters _ (List.getElem_mem _)) (hletters _ (List.getElem_mem _)) hcodes

end SeedPhrase.WordList
