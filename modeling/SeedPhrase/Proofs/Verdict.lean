import SeedPhrase.Proofs.Spelling
import SeedPhrase.Validation

/-!
# The verdict on a word sequence

Every word sequence gets one of four verdicts, and which one it gets is said here
without running the checks.  The vocabulary check and the decoder look every word up for
themselves; they agree because both ask the list, so nothing is left for the decoder to
complain about.

* `unknownWords_eq_nil_iff`, `mem_unknownWords_iff`, `pairwise_unknownWords` — the
  unknown words are those that the list does not have, in order and each once;
* `check_of_known` — what becomes of 24 words of the list;
* `check_eq_ok_iff`, `validate_eq_ok_iff` — the valid sequences are those that encoding
  produces;
* `IsRejected`, `isRejected_rejected` — what becomes of a sequence that is not valid, and what of it
  is logged;
* `validate_classified` — the four verdicts, with what is logged.
-/

namespace SeedPhrase.Validation

variable (list : WordList) (words : List String)

/-- A word is reported as unknown where it stands and where the list does not have it. -/
theorem mem_unknownWords_iff {i : Nat} {w : String} :
    ⟨i, w⟩ ∈ unknownWords list words ↔ words[i]? = some w ∧ w ∉ list.toList := by
  simp only [unknownWords, List.mem_map, List.mem_filter, Prod.exists, UnknownWord.mk.injEq,
    List.mk_mem_zipIdx_iff_getElem?, Bool.not_eq_true', ← Bool.not_eq_true, list.contains_iff]
  constructor
  · intro ⟨v, j, h, hj, hv⟩
    rw [← hj, ← hv]
    exact h
  · intro h
    exact ⟨w, i, h, rfl, rfl⟩

/-- Unknown words are reported in the order of the mnemonic, none of them twice. -/
theorem pairwise_unknownWords :
    (unknownWords list words).Pairwise fun x y => x.position < y.position := by
  have hplaces : words.zipIdx.Pairwise fun x y => x.2 < y.2 := by
    rw [← List.pairwise_map (f := Prod.snd), List.zipIdx_map_snd]
    exact List.pairwise_lt_range'
  exact List.pairwise_map.mpr (hplaces.sublist List.filter_sublist)

theorem unknownWords_eq_nil_iff :
    unknownWords list words = [] ↔ ∀ w ∈ words, w ∈ list.toList := by
  rw [List.eq_nil_iff_forall_not_mem]
  constructor
  · intro h w hw
    apply Classical.byContradiction
    intro hunknown
    obtain ⟨i, hi, hget⟩ := List.getElem_of_mem hw
    exact h ⟨i, w⟩ ((mem_unknownWords_iff list words).mpr
      ⟨List.getElem?_eq_some_iff.mpr ⟨hi, hget⟩, hunknown⟩)
  · intro h ⟨i, w⟩ hmem
    obtain ⟨hget, hunknown⟩ := (mem_unknownWords_iff list words).mp hmem
    exact hunknown (h w (List.mem_of_getElem? hget))

variable {list words}

theorem check_of_wrongWordCount (h : words.length ≠ Codec.wordCount) :
    check list words = .error (.badMnemonic (.wrongWordCount words.length)) := by
  rw [check, if_pos h]

theorem check_of_unknown (hcount : words.length = Codec.wordCount)
    (hunknown : unknownWords list words ≠ []) :
    check list words = .error (.badMnemonic (.unknownWords (unknownWords list words))) := by
  unfold check
  rw [if_neg (not_not_intro hcount)]
  split
  · exact absurd ‹_› hunknown
  · rfl

/-- Words of the list stand at places. -/
theorem exists_indices (h : ∀ w ∈ words, w ∈ list.toList) :
    ∃ indices : List WordList.Index, indices.map list.word = words := by
  induction words with
  | nil => exact ⟨[], rfl⟩
  | cons w words ih =>
    obtain ⟨i, hi⟩ := list.mem_toList_iff.mp (h w List.mem_cons_self)
    obtain ⟨indices, hindices⟩ := ih fun v hv => h v (List.mem_cons_of_mem _ hv)
    exact ⟨i :: indices, by rw [List.map_cons, hi, hindices]⟩

/-- **Twenty-four words of the list are decoded,** and only their checksum is left to look at:
none of the errors of the decoder comes up here. -/
theorem check_of_known (hcount : words.length = Codec.wordCount)
    (hknown : ∀ w ∈ words, w ∈ list.toList) :
    ∃ payload, Codec.decode list words = .ok payload ∧
      check list words = checkChecksum payload := by
  obtain ⟨indices, hindices⟩ := exists_indices hknown
  have hlength : indices.length = Codec.wordCount := by
    rw [← List.length_map (f := list.word), hindices, hcount]
  have hdecode : Codec.decode list words = .ok (Codec.ofIndices indices) :=
    hindices ▸ Codec.decode_map_word list hlength
  refine ⟨_, hdecode, ?_⟩
  rw [check, if_neg (not_not_intro hcount), (unknownWords_eq_nil_iff list words).mpr hknown,
    hdecode]
  simp only [Except.mapError, bind, Except.bind]

theorem checkChecksum_eq_ok_iff {payload checked : Payload} :
    checkChecksum payload = .ok checked ↔
      payload = checked ∧ payload.checksum = checksum payload.entropy := by
  unfold checkChecksum
  split
  · rename_i hsum
    rw [Except.ok.injEq]
    exact ⟨fun h => ⟨h, hsum⟩, fun h => h.1⟩
  · rename_i hsum
    constructor
    · intro h; cases h
    · intro h; exact absurd h.2 hsum

/-- **The valid sequences are the encoded ones.** -/
theorem check_eq_ok_iff {payload : Payload} :
    check list words = .ok payload ↔
      ∃ entropy, Codec.encode list entropy = .ok words ∧ payload = .ofEntropy entropy := by
  constructor
  · intro h
    by_cases hcount : words.length = Codec.wordCount
    · by_cases hunknown : unknownWords list words = []
      · obtain ⟨spelled, hdecode, hcheck⟩ :=
          check_of_known hcount ((unknownWords_eq_nil_iff list words).mp hunknown)
        obtain ⟨rfl, hsum⟩ := checkChecksum_eq_ok_iff.mp (hcheck.symm.trans h)
        have hpayload : spelled = .ofEntropy spelled.entropy := by
          rw [Payload.ofEntropy, ← hsum]
        refine ⟨spelled.entropy, ?_, hpayload⟩
        rw [Codec.encode_eq, ← hpayload, (Codec.decode_eq_ok_iff list).mp hdecode]
      · rw [check_of_unknown hcount hunknown] at h
        cases h
    · rw [check_of_wrongWordCount hcount] at h
      cases h
  · intro ⟨entropy, hencode, hpayload⟩
    rw [Codec.encode_eq, Except.ok.injEq] at hencode
    have hdecode : Codec.decode list words = .ok (.ofEntropy entropy) :=
      (Codec.decode_eq_ok_iff list).mpr hencode
    have hcount : words.length = Codec.wordCount := by
      rw [← hencode, List.length_map, Codec.length_indices]
    have hknown : ∀ w ∈ words, w ∈ list.toList :=
      fun w hw => list.mem_toList_of_mem_map (hencode ▸ hw)
    obtain ⟨spelled, hspelled, hcheck⟩ := check_of_known hcount hknown
    obtain rfl : .ofEntropy entropy = spelled := Except.ok.inj (hdecode.symm.trans hspelled)
    rw [hcheck, hpayload]
    exact checkChecksum_eq_ok_iff.mpr ⟨rfl, rfl⟩

theorem validate_eq_ok_iff {payload : Payload} :
    (validate list words).value = .ok payload ↔
      ∃ entropy, Codec.encode list entropy = .ok words ∧
        payload.bytes = entropy.toList ++ [checksum entropy] := by
  rw [value_validate, check_eq_ok_iff]
  constructor
  · intro ⟨entropy, hencode, hpayload⟩
    exact ⟨entropy, hencode, congrArg Payload.bytes hpayload⟩
  · intro ⟨entropy, hencode, hbytes⟩
    refine ⟨entropy, hencode, ?_⟩
    rw [← Payload.ofBytes_bytes payload, hbytes]
    exact Payload.ofBytes_bytes (.ofEntropy entropy)

/-- Different entropy is encoded by different words. -/
theorem entropy_unique {entropy other : Entropy} (h : Codec.encode list entropy = .ok words)
    (hother : Codec.encode list other = .ok words) : entropy = other := by
  rw [Codec.encode_eq, Except.ok.injEq, ← Codec.decode_eq_ok_iff] at h hother
  exact congrArg Payload.entropy (Except.ok.inj (h.symm.trans hother))

/-- What a rejected sequence gets: the reason, and one record that names only its kind. -/
def rejected (bad : BadMnemonic) : Log.Logged (Except Error Payload) :=
  ⟨.error (.badMnemonic bad), [Log.rejectedInput operation bad.kind.name]⟩

theorem validate_of_bad {bad : BadMnemonic} (h : check list words = .error (.badMnemonic bad)) :
    validate list words = rejected bad := by
  rw [validate, h]
  rfl

/-- Of 24 words of the list only the checksum is judged. -/
theorem validate_of_known (hcount : words.length = Codec.wordCount)
    (hknown : ∀ w ∈ words, w ∈ list.toList) :
    ∃ payload, Codec.decode list words = .ok payload ∧
      (payload.checksum ≠ checksum payload.entropy →
        validate list words =
          rejected (.checksumMismatch (checksum payload.entropy) payload.checksum)) ∧
      (payload.checksum = checksum payload.entropy →
        validate list words = ⟨.ok payload, []⟩) := by
  obtain ⟨payload, hdecode, hcheck⟩ := check_of_known hcount hknown
  refine ⟨payload, hdecode, ?_, ?_⟩
  · intro hsum
    exact validate_of_bad (hcheck.trans (if_neg hsum))
  · intro hsum
    rw [validate, hcheck.trans (if_pos hsum)]

/-- A check that fails finds fault with the words, and with nothing else. -/
theorem bad_of_check_eq_error {error : Error} (h : check list words = .error error) :
    ∃ bad, error = .badMnemonic bad := by
  by_cases hcount : words.length = Codec.wordCount
  · by_cases hnone : unknownWords list words = []
    · obtain ⟨payload, _, hcheck⟩ :=
        check_of_known hcount ((unknownWords_eq_nil_iff list words).mp hnone)
      rw [hcheck, checkChecksum] at h
      split at h
      · cases h
      · exact ⟨_, (Except.error.inj h).symm⟩
    · rw [check_of_unknown hcount hnone] at h
      exact ⟨_, (Except.error.inj h).symm⟩
  · rw [check_of_wrongWordCount hcount] at h
    exact ⟨_, (Except.error.inj h).symm⟩

/-- A sequence is rejected for a reason, and all that is logged is one warning with a text. -/
structure IsRejected (verdict : Log.Logged (Except Error Payload)) (bad : BadMnemonic)
    (text : String) : Prop where
  value : verdict.value = .error (.badMnemonic bad)
  warning : ∃ record, verdict.records = [record] ∧ record.target = Log.facadeTarget ∧
    record.level = .warn ∧ record.message = text

/-- The warning has the name of the kind in it and nothing else of the input. -/
theorem isRejected_rejected (bad : BadMnemonic) :
    IsRejected (rejected bad) bad
      ("Input rejected: mnemonic validation (kind: " ++ bad.kind.name ++ ")") :=
  ⟨rfl, _, rfl, rfl, rfl, rfl⟩

/-- **The four verdicts.**  The number of words is judged first, then the vocabulary, with
all unknown words at their places, then the checksum; there is no other failure, and a
rejection is logged once, by the name of its kind. -/
theorem validate_classified (list : WordList) (words : List String) :
    (words.length ≠ 24 →
      IsRejected (validate list words) (.wrongWordCount words.length)
        "Input rejected: mnemonic validation (kind: WrongWordCount)") ∧
    (words.length = 24 → (∃ w ∈ words, w ∉ list.toList) →
      ∃ unknown : List UnknownWord,
        (∀ i w, ⟨i, w⟩ ∈ unknown ↔ words[i]? = some w ∧ w ∉ list.toList) ∧
        unknown.Pairwise (fun x y => x.position < y.position) ∧
        IsRejected (validate list words) (.unknownWords unknown)
          "Input rejected: mnemonic validation (kind: UnknownWords)") ∧
    (words.length = 24 → (∀ w ∈ words, w ∈ list.toList) →
      ∃ payload expected given, Codec.decode list words = .ok payload ∧
        (Hash.Sha256.digest (payload.bytes.take 32)).get 0 = expected ∧
        payload.bytes[32]? = some given ∧
        (given ≠ expected →
          IsRejected (validate list words) (.checksumMismatch expected given)
            "Input rejected: mnemonic validation (kind: ChecksumMismatch)") ∧
        (given = expected → validate list words = ⟨.ok payload, []⟩)) ∧
    ∀ error, (validate list words).value = .error error → ∃ bad, error = .badMnemonic bad := by
  refine ⟨?_, ?_, ?_, ?_⟩
  · intro hcount
    rw [validate_of_bad (check_of_wrongWordCount hcount)]
    exact isRejected_rejected _
  · intro hcount ⟨w, hw, hmissing⟩
    have hsome : unknownWords list words ≠ [] := by
      intro hnone
      exact hmissing ((unknownWords_eq_nil_iff list words).mp hnone w hw)
    refine ⟨unknownWords list words, fun i v => mem_unknownWords_iff list words,
      pairwise_unknownWords list words, ?_⟩
    rw [validate_of_bad (check_of_unknown hcount hsome)]
    exact isRejected_rejected _
  · intro hcount hknown
    obtain ⟨payload, hdecode, hwrong, hright⟩ := validate_of_known hcount hknown
    refine ⟨payload, checksum payload.entropy, payload.checksum, hdecode, ?_,
      payload.getElem?_bytes, fun hsum => ?_, hright⟩
    · rw [payload.take_bytes, checksum]
    · rw [hwrong hsum]
      exact isRejected_rejected _
  · intro error herror
    rw [value_validate] at herror
    exact bad_of_check_eq_error herror

end SeedPhrase.Validation
