import SeedPhrase.Proofs.EnglishMnemonic
import SeedPhrase.Proofs.Phrases

/-!
# Recovery from a written phrase

A mnemonic is kept by writing its phrase down and read again when the wallet is lost.  Cutting the
phrase at its spaces gives the words back, because no word of a list holds a space, and the last
one is not empty, so that none of the words is taken for an empty piece at the end.  Spaces behind
the phrase make empty pieces and no more.

* `encode_eq_ok` — the mnemonic of some entropy, which always has one;
* `ofPhrase_phrase_spelling` — the phrase of that mnemonic is read back;
* `recovery_from_phrase` — in any process, the phrase of some entropy brings back the mnemonic,
  the entropy and the seeds.
-/

namespace SeedPhrase

namespace Mnemonic

section Encoded

variable (list : WordList) (entropy : Entropy)

/-- The mnemonic that spells some entropy. -/
def spelling : Mnemonic := ⟨(Codec.indices (.ofEntropy entropy)).map list.word⟩

/-- Every entropy has its mnemonic. -/
theorem encode_eq_ok : encode list entropy = .ok (spelling list entropy) := by
  rw [encode, Codec.encode_eq]
  rfl

theorem isWord_of_mem_spelling : ∀ w ∈ (spelling list entropy).words, IsWord w := by
  intro w hw
  obtain ⟨i, _, rfl⟩ := List.mem_map.mp hw
  exact list.isWord i

theorem length_spelling : (spelling list entropy).words.length = Codec.wordCount := by
  rw [spelling, List.length_map, Codec.length_indices]

/-- The phrase of a mnemonic that was encoded is read back. -/
theorem ofPhrase_phrase_spelling :
    ofPhrase (spelling list entropy).phrase = spelling list entropy := by
  have hwords := isWord_of_mem_spelling list entropy
  apply ofPhrase_phrase
  · intro hnil
    have hlength := length_spelling list entropy
    rw [hnil] at hlength
    cases hlength
  · intro w hw
    exact (hwords w hw).notMem (by decide)
  · intro hlast
    exact (hwords "" (List.mem_of_getLast? hlast)).1 rfl

/-- The entropy is had back from its mnemonic, which is therefore valid. -/
theorem toEntropy_spelling : ((spelling list entropy).toEntropy list).value = .ok entropy :=
  (toEntropy_eq_ok_iff list _ entropy).mpr (encode_eq_ok list entropy)

theorem validate_spelling : ((spelling list entropy).validate list).value = .ok () := by
  rw [validate_eq_toEntropy, toEntropy_spelling]
  rfl

/-- Different entropy has a different mnemonic. -/
theorem spelling_injective : Function.Injective (spelling list) := by
  intro entropy other hsame
  have hcodes : ∀ e, Codec.encode list e = .ok (spelling list e).words := Codec.encode_eq list
  exact Validation.entropy_unique (hcodes entropy) (hsame ▸ hcodes other)

end Encoded

end Mnemonic

namespace Session

/-- **Recovery.**  Every entropy has a mnemonic, which any process makes of it, whatever was done
before.  From the phrase of that mnemonic, with any number of spaces behind it, any process reads
the same mnemonic again: it has the same phrase, is valid, and has that entropy and the same seeds.
No other entropy has the same phrase. -/
theorem recovery_from_phrase (entropy : Entropy) :
    ∃ m : Mnemonic, ∀ (generator : ByteStream) (before : List Operation),
      let session := (run before (start generator)).value.2
      let response := fun operation => (perform operation session).value.1
      response (.make (.entropy entropy.toList)) = .mnemonic m ∧
      (∀ (k : Nat) (passphrase : String),
        let written := m.phrase ++ Mnemonic.spaces k
        let r := Mnemonic.ofPhrase written
        response (.make (.phrase written)) = .mnemonic r ∧
        r = m ∧ r.phrase = m.phrase ∧
        response (.ask r .validate) = .valid ∧
        response (.ask r .entropy) = .entropy entropy ∧
        response (.ask r (.seed passphrase)) = response (.ask m (.seed passphrase))) ∧
      ∀ (other : Entropy) (m' : Mnemonic),
        response (.make (.entropy other.toList)) = .mnemonic m' → m'.phrase = m.phrase →
          other = entropy := by
  refine ⟨.spelling .english entropy, fun generator before => ?_⟩
  intro session response
  have hholds : HoldsEnglish session := holdsEnglish_run generator before
  have hmade : ∀ e : Entropy,
      response (.make (.entropy e.toList)) = .mnemonic (.spelling .english e) := by
    intro e
    have hresponse : response (.make (.entropy e.toList)) = _ := response_make hholds e
    rw [hresponse, Mnemonic.encode_eq_ok]
    rfl
  have hread := Mnemonic.ofPhrase_phrase_spelling .english
  have hvalid : response (.ask (.spelling .english entropy) .validate) = .valid := by
    have hresponse : response (.ask (.spelling .english entropy) .validate) = _ :=
      response_validate hholds _
    rw [hresponse, Mnemonic.validate_spelling]
    rfl
  have hentropy : response (.ask (.spelling .english entropy) .entropy) = .entropy entropy :=
    (response_entropy_eq_iff hholds _ _).mpr (hmade entropy)
  refine ⟨hmade entropy, fun k passphrase => ?_, ?_⟩
  · intro written r
    have hr : r = .spelling .english entropy :=
      (Mnemonic.ofPhrase_append_spaces _ k).trans (hread entropy)
    refine ⟨rfl, hr, congrArg Mnemonic.phrase hr, ?_, ?_, ?_⟩
    · rw [hr]
      exact hvalid
    · rw [hr]
      exact hentropy
    · rw [hr]
  · intro other m' hother hphrase
    rw [hmade other] at hother
    obtain rfl := Response.mnemonic.inj hother
    apply Mnemonic.spelling_injective .english
    rw [← hread other, hphrase, hread entropy]

end Session

end SeedPhrase
