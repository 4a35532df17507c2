import SeedPhrase.Codec
import SeedPhrase.Proofs.Lookup
import SeedPhrase.Proofs.Regrouping

/-!
# Words and payloads

The 264 bits of a payload come out even both in bytes and in groups of eleven, so
regrouping them loses nothing in either direction: payloads and sequences of 24 places
are the same thing written in two ways.  A word list names each place by one word and
each word by one place, and so the payloads are also the sequences of 24 of its words.

* `ofIndices_indices`, `indices_ofIndices` — payloads and places;
* `decode_eq_ok_iff`, `decode_map_word` — which words spell a payload;
* `encode_eq`, `decode_encode` — encoding always succeeds, and decoding undoes it.
-/

namespace SeedPhrase.Codec

/-- The places of the words that spell a payload. -/
def indices (payload : Payload) : List WordList.Index :=
  (places payload).map fun place => Fin.ofNat WordList.size place.toNat

theorem lt_of_mem_bytes (bytes : List UInt8) :
    ∀ group ∈ bytes.map UInt8.toUInt32, group.toNat < 2 ^ byteBits := by
  intro group hgroup
  obtain ⟨byte, _, hbyte⟩ := List.mem_map.mp hgroup
  rw [← hbyte, UInt8.toNat_toUInt32]
  exact byte.toNat_lt

theorem lt_of_mem_indices (indices : List WordList.Index) :
    ∀ group ∈ indices.map (fun i => UInt32.ofNat i.val), group.toNat < 2 ^ wordBits := by
  intro group hgroup
  obtain ⟨i, _, hi⟩ := List.mem_map.mp hgroup
  rw [← hi, UInt32.toNat_ofNat']
  exact Nat.lt_of_le_of_lt (Nat.mod_le _ _) i.isLt

/-- The bits of a payload come out even in words. -/
theorem bits_of_bytes (payload : Payload) :
    byteBits * (payload.bytes.map UInt8.toUInt32).length = wordBits * wordCount := by
  rw [List.length_map, Payload.length_bytes]
  rfl

/-- A word takes more bits than a byte has, so taking one word at a time is enough. -/
theorem places_eq_drain (payload : Payload) :
    places payload =
      Bits.regroup byteBits (·.drain wordBits) (payload.bytes.map UInt8.toUInt32) :=
  Bits.regroup_tap (by decide) (by decide) _

theorem length_places (payload : Payload) : (places payload).length = wordCount := by
  rw [places_eq_drain]
  exact (Bits.number_regroup (by decide) (by decide) (by decide) (lt_of_mem_bytes _)
    (bits_of_bytes payload)).1

/-- Eleven bits are a place in every list. -/
theorem lt_of_mem_places (payload : Payload) :
    ∀ place ∈ places payload, place.toNat < WordList.size := by
  rw [places_eq_drain]
  exact Bits.lt_of_mem_regroup _ (by decide) _

@[simp] theorem length_indices (payload : Payload) : (indices payload).length = wordCount := by
  rw [indices, List.length_map, length_places]

theorem ofNat_indices (payload : Payload) :
    (indices payload).map (fun i => UInt32.ofNat i.val) = places payload := by
  rw [indices, List.map_map]
  conv_rhs => rw [← List.map_id (places payload)]
  apply List.map_congr_left
  intro place hplace
  have hlt := lt_of_mem_places payload place hplace
  simp only [Function.comp_apply, Fin.val_ofNat, Nat.mod_eq_of_lt hlt, UInt32.ofNat_toNat, id]

/-- **Places spell the payload they were taken from.** -/
theorem ofIndices_indices (payload : Payload) : ofIndices (indices payload) = payload := by
  have hback : Bits.regroup wordBits (·.drain byteBits) (places payload) =
      payload.bytes.map UInt8.toUInt32 := by
    rw [places_eq_drain]
    exact Bits.regroup_regroup (by decide) (by decide) (by decide) (lt_of_mem_bytes _)
      (bits_of_bytes payload)
  have hbytes : bytesOf (indices payload) = payload.bytes := by
    rw [bytesOf, ofNat_indices, hback, List.map_map]
    simp [Function.comp_def]
  rw [ofIndices, hbytes, Payload.ofBytes_bytes]

theorem toUInt32_bytesOf (indices : List WordList.Index) :
    (bytesOf indices).map UInt8.toUInt32 =
      Bits.regroup wordBits (·.drain byteBits) (indices.map fun i => UInt32.ofNat i.val) := by
  rw [bytesOf, List.map_map]
  conv_rhs => rw [← List.map_id (Bits.regroup _ _ _)]
  apply List.map_congr_left
  intro group hgroup
  have hlt : group.toNat < 256 := Bits.lt_of_mem_regroup _ (by decide) _ group hgroup
  apply UInt32.toNat_inj.mp
  simpa using hlt

section Places

variable {indices : List WordList.Index} (hlength : indices.length = wordCount)

include hlength

/-- The bits of 24 places come out even in bytes. -/
theorem bits_of_indices :
    wordBits * (indices.map fun i => UInt32.ofNat i.val).length = byteBits * Payload.size := by
  rw [List.length_map, hlength]
  rfl

/-- So 24 places spell 33 bytes, none missing and none too many. -/
theorem length_bytesOf : (bytesOf indices).length = Payload.size := by
  rw [bytesOf, List.length_map]
  exact (Bits.number_regroup (by decide) (by decide) (by decide) (lt_of_mem_indices _)
    (bits_of_indices hlength)).1

/-- **A payload has the places that spell it,** and no others. -/
theorem indices_ofIndices : Codec.indices (ofIndices indices) = indices := by
  have hplaces : places (ofIndices indices) = indices.map fun i => UInt32.ofNat i.val := by
    rw [places_eq_drain, ofIndices, Payload.bytes_ofBytes (length_bytesOf hlength),
      toUInt32_bytesOf]
    exact Bits.regroup_regroup (by decide) (by decide) (by decide) (lt_of_mem_indices _)
      (bits_of_indices hlength)
  rw [Codec.indices, hplaces, List.map_map]
  conv_rhs => rw [← List.map_id indices]
  apply List.map_congr_left
  intro i _
  apply Fin.ext
  have hlt : i.val < 2 ^ 32 := Nat.lt_trans i.isLt (by decide)
  simp only [Function.comp_apply, UInt32.toNat_ofNat', Nat.mod_eq_of_lt hlt, Fin.val_ofNat,
    Nat.mod_eq_of_lt i.isLt, id]

end Places

variable (list : WordList)

/-- A place that eleven bits can name always has its word. -/
theorem wordAt_of_lt {place : UInt32} (h : place.toNat < WordList.size) :
    wordAt list place = .ok (list.word (Fin.ofNat WordList.size place.toNat)) := by
  have hplace : (⟨place.toNat, h⟩ : WordList.Index) = Fin.ofNat WordList.size place.toNat :=
    Fin.ext (Nat.mod_eq_of_lt h).symm
  simp only [wordAt, WordList.get?, dif_pos h, hplace]

theorem mapM_wordAt {groups : List UInt32}
    (h : ∀ place ∈ groups, place.toNat < WordList.size) :
    groups.mapM (wordAt list) =
      .ok (groups.map fun place => list.word (Fin.ofNat WordList.size place.toNat)) := by
  induction groups with
  | nil => rfl
  | cons place groups ih =>
    rw [List.mapM_cons, wordAt_of_lt list (h place List.mem_cons_self),
      ih fun other hother => h other (List.mem_cons_of_mem _ hother)]
    rfl

/-- **Encoding cannot fail.**  The words are those at the places of the payload. -/
theorem encode_eq (entropy : Entropy) :
    encode list entropy = .ok ((indices (.ofEntropy entropy)).map list.word) := by
  rw [encode, mapM_wordAt list (lt_of_mem_places _), indices, List.map_map]
  rfl

/-- A word is located at a place exactly when it is the word of that place: no place of a
list takes more bits than a word stands for. -/
theorem locate_eq_ok_iff {w : String} {i : WordList.Index} :
    locate list w = .ok i ↔ list.word i = w := by
  rw [← list.indexOf?_eq_some_iff]
  unfold locate
  cases hindex : list.indexOf? w with
  | none => simp
  | some j =>
    have hmask : j.val ≤ indexMask := Nat.le_of_lt_succ j.isLt
    simp [hmask]

theorem mapM_locate_eq_ok_iff {words : List String} {indices : List WordList.Index} :
    words.mapM (locate list) = .ok indices ↔ indices.map list.word = words := by
  induction words generalizing indices with
  | nil =>
    have hnil : ([] : List String).mapM (locate list) = .ok [] := rfl
    rw [hnil, List.map_eq_nil_iff, Except.ok.injEq, eq_comm]
  | cons w words ih =>
    rw [List.mapM_cons]
    constructor
    · intro h
      cases hw : locate list w with
      | error e => rw [hw] at h; cases h
      | ok i =>
        cases hwords : words.mapM (locate list) with
        | error e => rw [hw, hwords] at h; cases h
        | ok rest =>
          rw [hw, hwords] at h
          cases h
          rw [List.map_cons, (locate_eq_ok_iff list).mp hw, ih.mp hwords]
    · intro h
      obtain ⟨i, rest, rfl, hi, hrest⟩ := List.map_eq_cons_iff.mp h
      rw [(locate_eq_ok_iff list).mpr hi, ih.mpr hrest]
      rfl

/-- **Which words spell a payload:** those at its places, and no others. -/
theorem decode_eq_ok_iff {words : List String} {payload : Payload} :
    decode list words = .ok payload ↔ (indices payload).map list.word = words := by
  unfold decode
  constructor
  · intro h
    split at h
    · cases h
    · rename_i hcount
      cases hplaces : words.mapM (locate list) with
      | error e => rw [hplaces] at h; cases h
      | ok found =>
        rw [hplaces] at h
        obtain rfl : ofIndices found = payload := Except.ok.inj h
        have hwords := (mapM_locate_eq_ok_iff list).mp hplaces
        have hlength : found.length = wordCount := by
          rw [← List.length_map (f := list.word), hwords]
          exact Classical.not_not.mp hcount
        rw [indices_ofIndices hlength, hwords]
  · intro h
    have hcount : ¬ words.length ≠ wordCount := by
      rw [← h, List.length_map, length_indices]
      simp
    rw [if_neg hcount, (mapM_locate_eq_ok_iff list).mpr h]
    exact congrArg Except.ok (ofIndices_indices payload)

/-- Places are spelled by the words that stand at them. -/
theorem decode_map_word {indices : List WordList.Index} (hlength : indices.length = wordCount) :
    decode list (indices.map list.word) = .ok (ofIndices indices) := by
  rw [decode_eq_ok_iff, indices_ofIndices hlength]

/-- **What is encoded can be read.**  Over any list, any entropy is spelled by 24 words of the
list, and these are decoded to the entropy followed by its checksum. -/
theorem decode_encode (entropy : Entropy) :
    ∃ words, encode list entropy = .ok words ∧ words.length = 24 ∧
      (∀ w ∈ words, w ∈ list.toList) ∧
      ∃ payload, decode list words = .ok payload ∧
        payload.bytes = entropy.toList ++ [checksum entropy] := by
  refine ⟨_, encode_eq list entropy, ?_, ?_, .ofEntropy entropy, ?_, rfl⟩
  · rw [List.length_map, length_indices]
  · intro w hw
    obtain ⟨i, _, hi⟩ := List.mem_map.mp hw
    exact list.mem_toList_iff.mpr ⟨i, hi⟩
  · exact (decode_eq_ok_iff list).mpr rfl

end SeedPhrase.Codec
