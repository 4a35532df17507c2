import Mathlib.Data.List.FinRange
import SeedPhrase.Proofs.Verdict
import SeedPhrase.WordList.English

/-!
# The last word

The first 23 words of a mnemonic spell 253 bits, so the entropy lacks three more, and these are
the lowest bits of the last word.  The eight bits above them are the checksum.  Hence each of the
eight ways to fill up the entropy has one last word, and these eight words and no others complete
the mnemonic.

* `lastPlace` — the place of a last word, from three bits of entropy and a checksum;
* `number_ofIndices` — the number that places spell, as entropy and checksum;
* `ofIndices_lastPlace` — what the last word has no part in, and what it decides;
* `check_append_eq_ok_iff`, `length_completions` — the eight words that complete a mnemonic;
* `validate_replaced` — a last word that is replaced by one with the same three bits is noticed;
* `checksum_completion` — both laws, for words that one may have come by in any way.
-/

namespace SeedPhrase

/-- The number that the bytes of entropy spell, the first byte lowest. -/
def Entropy.number (entropy : Entropy) : Nat :=
  Bits.number Codec.byteBits (entropy.toList.map UInt8.toUInt32)

theorem Entropy.number_lt (entropy : Entropy) : entropy.number < 2 ^ 256 := by
  have hlt := Bits.number_lt (Codec.lt_of_mem_bytes entropy.toList)
  rwa [List.length_map, Vector.length_toList] at hlt

/-- No other entropy spells the same number. -/
theorem Entropy.number_injective {entropy other : Entropy} (h : entropy.number = other.number) :
    entropy = other := by
  have hbytes := Bits.number_injective (by simp) (Codec.lt_of_mem_bytes entropy.toList)
    (Codec.lt_of_mem_bytes other.toList) h
  have hinjective : Function.Injective UInt8.toUInt32 := by
    intro x y hxy
    apply UInt8.toNat_inj.mp
    rw [← UInt8.toNat_toUInt32, hxy, UInt8.toNat_toUInt32]
  exact Vector.toList_inj.mp (hinjective.list_map hbytes)

/-- The last byte of entropy is what is above the other 31. -/
theorem Entropy.toNat_last (entropy : Entropy) :
    (entropy.get 31).toNat = entropy.number / 2 ^ 248 := by
  have hbytes : entropy.toList = entropy.toList.take 31 ++ [entropy.get 31] := by
    have hlast : entropy.get 31 = entropy.toList.get ⟨31, by simp⟩ := by simp [Vector.get]
    rw [hlast, List.get_eq_getElem, List.take_append_getElem, List.take_of_length_le (by simp)]
  have hnumber : entropy.number =
      Bits.number Codec.byteBits ((entropy.toList.take 31).map UInt8.toUInt32) +
        2 ^ 248 * (entropy.get 31).toNat := by
    conv_lhs => rw [number, hbytes, List.map_append, Bits.number_append, List.length_map,
      List.length_take, Vector.length_toList]
    rw [List.map_singleton, Bits.number, UInt8.toNat_toUInt32]
    rfl
  have hlow := Bits.number_lt (Codec.lt_of_mem_bytes (entropy.toList.take 31))
  rw [List.length_map, List.length_take, Vector.length_toList] at hlow
  have hlow' : Bits.number Codec.byteBits ((entropy.toList.take 31).map UInt8.toUInt32) <
      2 ^ 248 := hlow
  omega

namespace Codec

/-- The place of a last word: the last three bits of the entropy, and above them the checksum. -/
def lastPlace (top : Fin 8) (sum : UInt8) : WordList.Index :=
  ⟨top.val + 8 * sum.toNat, by
    have hsum := sum.toNat_lt
    change top.val + 8 * sum.toNat < 2048
    omega⟩

theorem lastPlace_inj {top other : Fin 8} {sum claimed : UInt8} :
    lastPlace top sum = lastPlace other claimed ↔ top = other ∧ sum = claimed := by
  rw [lastPlace, lastPlace, Fin.mk.injEq, Fin.ext_iff, ← UInt8.toNat_inj]
  omega

/-- Every place is that of a last word. -/
theorem lastPlace_mod_div (i : WordList.Index) :
    lastPlace ⟨i % 8, Nat.mod_lt _ (by decide)⟩ (UInt8.ofNat (i / 8)) = i := by
  have hi : i.val < 2048 := i.isLt
  apply Fin.ext
  simp only [lastPlace, UInt8.toNat_ofNat']
  omega

/-- The number that places spell. -/
def placesNumber (indices : List WordList.Index) : Nat :=
  Bits.number wordBits (indices.map fun i => UInt32.ofNat i.val)

/-- **Places spell entropy and checksum,** the checksum highest. -/
theorem number_ofIndices {indices : List WordList.Index} (hlength : indices.length = wordCount) :
    (ofIndices indices).entropy.number + 2 ^ 256 * (ofIndices indices).checksum.toNat =
      placesNumber indices := by
  have hbytes : (ofIndices indices).bytes = bytesOf indices :=
    Payload.bytes_ofBytes (length_bytesOf hlength)
  have hnumber : Bits.number byteBits ((ofIndices indices).bytes.map UInt8.toUInt32) =
      placesNumber indices := by
    rw [hbytes, toUInt32_bytesOf]
    exact (Bits.number_regroup (by decide) (by decide) (by decide) (lt_of_mem_indices _)
      (bits_of_indices hlength)).2
  rw [← hnumber, Payload.bytes, List.map_append, Bits.number_append, List.length_map,
    Vector.length_toList, List.map_singleton, Bits.number, UInt8.toNat_toUInt32]
  rfl

/-- The entropy that 23 places and three more bits spell. -/
def entropyAfter (front : List WordList.Index) (top : Fin 8) : Entropy :=
  (ofIndices (front ++ [lastPlace top 0])).entropy

section LastWord

variable {front : List WordList.Index} (hfront : front.length = 23)

include hfront

theorem placesNumber_lt : placesNumber front < 2 ^ 253 := by
  have hlt := Bits.number_lt (lt_of_mem_indices front)
  rwa [List.length_map, hfront] at hlt

theorem placesNumber_append (i : WordList.Index) :
    placesNumber (front ++ [i]) = placesNumber front + 2 ^ 253 * i.val := by
  have hi : i.val < 2 ^ 32 := Nat.lt_trans i.isLt (by decide)
  rw [placesNumber, List.map_append, Bits.number_append, List.length_map, hfront,
    List.map_singleton, Bits.number, UInt32.toNat_ofNat', Nat.mod_eq_of_lt hi]
  rfl

/-- Three bits of the last word go to the entropy and eight to the checksum. -/
theorem number_lastPlace (top : Fin 8) (sum : UInt8) :
    (ofIndices (front ++ [lastPlace top sum])).entropy.number =
        placesNumber front + 2 ^ 253 * top.val ∧
      (ofIndices (front ++ [lastPlace top sum])).checksum = sum := by
  have hlength : (front ++ [lastPlace top sum]).length = wordCount := by simp [hfront]
  have hnumber := number_ofIndices hlength
  rw [placesNumber_append hfront] at hnumber
  generalize ofIndices (front ++ [lastPlace top sum]) = payload at *
  have hplace : (lastPlace top sum).val = top.val + 8 * sum.toNat := rfl
  have hfirst := placesNumber_lt hfront
  have hentropy := payload.entropy.number_lt
  have htop := top.isLt
  rw [hplace] at hnumber
  -- On both sides a byte stands above 256 bits, so the bytes are the same and the bits are too.
  have hsum : payload.checksum.toNat = sum.toNat := by omega
  refine ⟨?_, UInt8.toNat_inj.mp hsum⟩
  omega

/-- **The checksum is told apart from the entropy.**  Of the last word the entropy has three bits
and is the same for every checksum. -/
theorem ofIndices_lastPlace (top : Fin 8) (sum : UInt8) :
    ofIndices (front ++ [lastPlace top sum]) = ⟨entropyAfter front top, sum⟩ := by
  obtain ⟨hentropy, hsum⟩ := number_lastPlace hfront top sum
  have hsame : (ofIndices (front ++ [lastPlace top sum])).entropy = entropyAfter front top :=
    Entropy.number_injective (hentropy.trans (number_lastPlace hfront top 0).1.symm)
  calc ofIndices (front ++ [lastPlace top sum])
      = ⟨(ofIndices (front ++ [lastPlace top sum])).entropy,
          (ofIndices (front ++ [lastPlace top sum])).checksum⟩ := rfl
    _ = ⟨entropyAfter front top, sum⟩ := by rw [hsame, hsum]

/-- The three bits are the highest of the entropy. -/
theorem top_entropyAfter (top : Fin 8) :
    ((entropyAfter front top).get 31 >>> 5).toNat = top.val := by
  have hnumber : (entropyAfter front top).number = placesNumber front + 2 ^ 253 * top.val :=
    (number_lastPlace hfront top 0).1
  have hfirst := placesNumber_lt hfront
  have hshift : ((entropyAfter front top).get 31 >>> 5).toNat =
      (entropyAfter front top).number / 2 ^ 248 / 2 ^ 5 := by
    rw [UInt8.toNat_shiftRight, Entropy.toNat_last]
    exact Nat.shiftRight_eq_div_pow _ _
  rw [hshift, hnumber]
  omega

variable (list : WordList)

theorem decode_lastPlace (top : Fin 8) (sum : UInt8) :
    decode list (front.map list.word ++ [list.word (lastPlace top sum)]) =
      .ok ⟨entropyAfter front top, sum⟩ := by
  have hlength : (front ++ [lastPlace top sum]).length = wordCount := by simp [hfront]
  have hdecode := decode_map_word list hlength
  rwa [List.map_append, List.map_singleton, ofIndices_lastPlace hfront] at hdecode

end LastWord

end Codec

namespace WordList

theorem nodup_toList (list : WordList) : list.toList.Nodup := by
  rw [toList_eq_ofFn]
  exact List.nodup_ofFn.mpr fun _ _ => list.word_injective

end WordList

namespace Validation

variable {list : WordList}

/-- What passes the checks is what is decoded and has the checksum of its entropy. -/
theorem check_eq_ok_iff_decode {words : List String} {payload : Payload} :
    check list words = .ok payload ↔
      Codec.decode list words = .ok payload ∧ payload = .ofEntropy payload.entropy := by
  rw [check_eq_ok_iff]
  constructor
  · intro ⟨entropy, hencode, hpayload⟩
    rw [Codec.encode_eq, Except.ok.injEq, ← Codec.decode_eq_ok_iff] at hencode
    rw [hpayload]
    exact ⟨hencode, rfl⟩
  · intro ⟨hdecode, hpayload⟩
    refine ⟨payload.entropy, ?_, hpayload⟩
    rw [Codec.encode_eq, ← hpayload, (Codec.decode_eq_ok_iff list).mp hdecode]

section LastWord

variable {front : List WordList.Index} (hfront : front.length = 23)

include hfront

/-- Of 23 words of the list and one more, the checksum alone is judged. -/
theorem check_append_lastPlace (top : Fin 8) (sum : UInt8) :
    check list (front.map list.word ++ [list.word (Codec.lastPlace top sum)]) =
      checkChecksum ⟨Codec.entropyAfter front top, sum⟩ := by
  have hcount : (front.map list.word ++ [list.word (Codec.lastPlace top sum)]).length =
      Codec.wordCount := by simp [hfront]
  have hknown : ∀ w ∈ front.map list.word ++ [list.word (Codec.lastPlace top sum)],
      w ∈ list.toList := by
    intro w hw
    rw [← List.map_singleton, ← List.map_append] at hw
    exact list.mem_toList_of_mem_map hw
  obtain ⟨payload, hdecode, hcheck⟩ := check_of_known hcount hknown
  rw [Codec.decode_lastPlace hfront] at hdecode
  rw [hcheck, Except.ok.inj hdecode]

/-- **The words that complete a mnemonic:** one for each three bits that the entropy lacks, and its
place is these bits with the checksum above them. -/
theorem check_append_eq_ok_iff {w : String} {payload : Payload} :
    check list (front.map list.word ++ [w]) = .ok payload ↔
      ∃ top, w = list.word (Codec.lastPlace top (checksum (Codec.entropyAfter front top))) ∧
        payload = .ofEntropy (Codec.entropyAfter front top) := by
  constructor
  · intro h
    have hwords := (Codec.decode_eq_ok_iff list).mp (check_eq_ok_iff_decode.mp h).1
    have hw : w ∈ (Codec.indices payload).map list.word := by
      rw [hwords]
      exact List.mem_append_right _ (List.mem_singleton.mpr rfl)
    obtain ⟨i, _, hi⟩ := List.mem_map.mp hw
    rw [← hi, ← Codec.lastPlace_mod_div i] at h ⊢
    rw [check_append_lastPlace hfront, checkChecksum_eq_ok_iff] at h
    obtain ⟨rfl, hsum⟩ := h
    refine ⟨_, congrArg (fun sum => list.word (Codec.lastPlace _ sum)) hsum, ?_⟩
    exact congrArg (Payload.mk _) hsum
  · intro ⟨top, hw, hpayload⟩
    rw [hw, check_append_lastPlace hfront, hpayload]
    exact checkChecksum_eq_ok_iff.mpr ⟨rfl, rfl⟩

/-- **Eight words complete a mnemonic.** -/
theorem length_completions :
    (list.toList.filter fun w => (check list (front.map list.word ++ [w])).isOk).length = 8 := by
  let last := fun top : Fin 8 =>
    list.word (Codec.lastPlace top (checksum (Codec.entropyAfter front top)))
  have hinjective : Function.Injective last := by
    intro top other hsame
    exact (Codec.lastPlace_inj.mp (list.word_injective hsame)).1
  have hmem : ∀ w, w ∈ (list.toList.filter fun w =>
      (check list (front.map list.word ++ [w])).isOk) ↔ w ∈ (List.finRange 8).map last := by
    intro w
    simp only [List.mem_filter, List.mem_map, List.mem_finRange, true_and]
    constructor
    · intro ⟨_, hok⟩
      cases hcheck : check list (front.map list.word ++ [w]) with
      | error error => rw [hcheck] at hok; cases hok
      | ok payload =>
        obtain ⟨top, hw, _⟩ := (check_append_eq_ok_iff hfront).mp hcheck
        exact ⟨top, hw.symm⟩
    · intro ⟨top, hw⟩
      have hcheck := (check_append_eq_ok_iff hfront).mpr ⟨top, hw.symm, rfl⟩
      refine ⟨list.mem_toList_iff.mpr ⟨_, hw⟩, ?_⟩
      rw [hcheck]
      rfl
  have hperm := (List.perm_ext_iff_of_nodup (list.nodup_toList.filter _)
    ((List.nodup_finRange 8).map hinjective)).mpr hmem
  rw [hperm.length_eq, List.length_map, List.length_finRange]

/-- A last word that claims another checksum for the same entropy is found out. -/
theorem validate_claimed {top : Fin 8} {sum claimed : UInt8} {payload : Payload}
    (hvalid : check list (front.map list.word ++ [list.word (Codec.lastPlace top sum)]) =
      .ok payload) (hother : claimed ≠ sum) :
    validate list (front.map list.word ++ [list.word (Codec.lastPlace top claimed)]) =
      rejected (.checksumMismatch payload.checksum claimed) := by
  rw [check_append_lastPlace hfront, checkChecksum_eq_ok_iff] at hvalid
  obtain ⟨rfl, hsum⟩ := hvalid
  have hright : checksum (Codec.entropyAfter front top) = sum := hsum.symm
  apply validate_of_bad
  rw [check_append_lastPlace hfront, checkChecksum]
  simp only [hright, if_neg hother]

end LastWord

/-- **A replaced last word is noticed.**  It leaves the entropy as it was if its place has the same
three bits at the bottom, and then its checksum is not the one that the entropy has. -/
theorem validate_replaced {words : List String} {payload : Payload} {i j : WordList.Index}
    (hvalid : check list words = .ok payload) (hlast : words.getLast? = some (list.word i))
    (hbits : j.val % 8 = i.val % 8) (hother : j ≠ i) :
    validate list (words.dropLast ++ [list.word j]) =
      rejected (.checksumMismatch payload.checksum (UInt8.ofNat (j.val / 8))) := by
  have hwords := (Codec.decode_eq_ok_iff list).mp (check_eq_ok_iff_decode.mp hvalid).1
  have hfront : (Codec.indices payload).dropLast.length = 23 := by simp
  have hdrop : words.dropLast = (Codec.indices payload).dropLast.map list.word := by
    rw [← hwords, ← List.map_dropLast]
  have hsplit : words = (Codec.indices payload).dropLast.map list.word ++ [list.word i] := by
    rw [← hdrop]
    exact (List.dropLast_append_getLast? _ hlast).symm
  have hsame : (⟨i % 8, Nat.mod_lt _ (by decide)⟩ : Fin 8) = ⟨j % 8, Nat.mod_lt _ (by decide)⟩ :=
    Fin.ext hbits.symm
  have hclaimed : UInt8.ofNat (j / 8) ≠ UInt8.ofNat (i / 8) := by
    intro hsums
    apply hother
    rw [← Codec.lastPlace_mod_div j, ← Codec.lastPlace_mod_div i, hsame, hsums]
  rw [hsplit, ← Codec.lastPlace_mod_div i, hsame] at hvalid
  have hfound := validate_claimed hfront hvalid hclaimed
  rwa [Codec.lastPlace_mod_div, ← hdrop] at hfound

/-- **Completion and tampering.**  Any 23 words of a list leave three bits of the entropy open, and
the last word brings them, with the checksum above them.  For each three bits one word completes
the mnemonic, that at the place with these bits and the right checksum, and so eight words do.  In
a mnemonic that passes, any other word with the same three bits in the place of the last one is
reported as a wrong checksum: the right one is that of the mnemonic, and the wrong one is what is
above the three bits. -/
theorem checksum_completion (list : WordList) :
    (∀ first : List String, first.length = 23 → (∀ w ∈ first, w ∈ list.toList) →
      ∃ entropy : Fin 8 → Entropy,
        (∀ top sum, Codec.decode list (first ++ [list.word (Codec.lastPlace top sum)]) =
          .ok ⟨entropy top, sum⟩) ∧
        (∀ top, ((entropy top).get 31 >>> 5).toNat = top.val) ∧
        (∀ w payload, (validate list (first ++ [w])).value = .ok payload ↔
          ∃ top, w = list.word (Codec.lastPlace top (checksum (entropy top))) ∧
            payload = .ofEntropy (entropy top)) ∧
        (list.toList.filter fun w => (validate list (first ++ [w])).value.isOk).length = 8) ∧
    ∀ (words : List String) (payload : Payload) (i j : WordList.Index),
      (validate list words).value = .ok payload → words.getLast? = some (list.word i) →
      j.val % 8 = i.val % 8 → j ≠ i →
      validate list (words.dropLast ++ [list.word j]) =
        rejected (.checksumMismatch payload.checksum (UInt8.ofNat (j.val / 8))) := by
  constructor
  · intro first hcount hknown
    obtain ⟨front, rfl⟩ := exists_indices hknown
    rw [List.length_map] at hcount
    refine ⟨Codec.entropyAfter front, Codec.decode_lastPlace hcount list,
      Codec.top_entropyAfter hcount, ?_, ?_⟩
    · intro w payload
      rw [value_validate]
      exact check_append_eq_ok_iff hcount
    · simp only [value_validate]
      exact length_completions hcount
  · intro words payload i j hvalid hlast hbits hother
    rw [value_validate] at hvalid
    exact validate_replaced hvalid hlast hbits hother

/-- The words that spell zeros, and a word in the place of the last one. -/
theorem checksum_completion_zeros :
    let first := List.replicate 23 "abandon"
    first.length = 23 ∧ (∀ w ∈ first, w ∈ WordList.english.toList) ∧
      (validate .english (first ++ ["gravity"])).value = .ok ⟨Vector.replicate 32 0, 102⟩ ∧
      (first ++ ["gravity"]).getLast? = some (WordList.english.word 816) ∧
      (WordList.english.toList.filter fun w =>
        (validate .english (first ++ [w])).value.isOk).length = 8 ∧
      validate .english (first ++ [WordList.english.word 8]) =
        rejected (.checksumMismatch 102 1) := by
  intro first
  have hknown : ∀ w ∈ first, w ∈ WordList.english.toList := by
    intro w hw
    rw [List.eq_of_mem_replicate hw]
    exact WordList.english.mem_toList_iff.mpr ⟨0, by decide +kernel⟩
  have hvalid : (validate .english (first ++ ["gravity"])).value =
      .ok ⟨Vector.replicate 32 0, 102⟩ := by decide +kernel
  have hlast : (first ++ ["gravity"]).getLast? = some (WordList.english.word 816) := by
    decide +kernel
  obtain ⟨hcomplete, hreplace⟩ := checksum_completion .english
  obtain ⟨_, _, _, _, height⟩ := hcomplete first rfl hknown
  exact ⟨rfl, hknown, hvalid, hlast, height,
    hreplace _ _ 816 8 hvalid hlast (by decide) (by decide)⟩

end Validation

end SeedPhrase
