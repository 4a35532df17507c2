import SeedPhrase.Proofs.Recovery

/-!
# Spaces where none belong

A phrase is cut at every space, so a space that was put into it anywhere before its end makes one
more word.  The phrase of a valid mnemonic has one space fewer than words and ends in a letter, and
nothing that is put in front of that letter changes this end.  So with a space too many, and only
then, the number of words is wrong, and since the number is looked at first that is what is
reported, whatever the words look like that were torn apart.

* `Spaced` — a text into which spaces were put;
* `Spaced.count_space`, `Spaced.getLast?_eq` — what that changes and what not;
* `length_ofPhrase_spaced` — each of these spaces makes one more word;
* `exists_spelling_of_valid` — a valid mnemonic is that of some entropy;
* `stray_spaces_detected` — in any process, what becomes of a valid mnemonic with such spaces.
-/

namespace SeedPhrase

namespace Mnemonic

/-- Spaces were put into a text one after the other, `j` of them, each somewhere before the end
that the text had. -/
inductive Spaced (text : String) : Nat → String → Prop
  | unchanged : Spaced text 0 text
  | put {j : Nat} {front back : String} (h : Spaced text j (front ++ back)) (hback : back ≠ "") :
    Spaced text (j + 1) (front ++ " " ++ back)

section Spaced

variable {text written : String} {j : Nat}

theorem Spaced.count_space (h : Spaced text j written) :
    written.toList.count ' ' = text.toList.count ' ' + j := by
  induction h with
  | unchanged => rfl
  | @put j front back _ _ ih =>
    have hone : " ".toList.count ' ' = 1 := by decide
    rw [String.toList_append, List.count_append] at ih
    rw [String.toList_append, String.toList_append, List.count_append, List.count_append, hone]
    omega

/-- The end stays as it was. -/
theorem Spaced.getLast?_eq (h : Spaced text j written) :
    written.toList.getLast? = text.toList.getLast? := by
  induction h with
  | unchanged => rfl
  | @put j front back _ hback ih =>
    have hne : back.toList ≠ [] := mt String.toList_eq_nil_iff.mp hback
    calc (front ++ " " ++ back).toList.getLast?
      _ = back.toList.getLast? := by
        rw [String.toList_append, List.getLast?_append_of_ne_nil _ hne]
      _ = (front ++ back).toList.getLast? := by
        rw [String.toList_append, List.getLast?_append_of_ne_nil _ hne]
      _ = text.toList.getLast? := ih

/-- **Each space too many makes one more word,** and those behind the text make none. -/
theorem length_ofPhrase_spaced (hlast : text.toList.getLast? ≠ some ' ')
    (h : Spaced text j written) (k : Nat) :
    (ofPhrase (written ++ spaces k)).words.length = (ofPhrase text).words.length + j := by
  have hwritten : trimmed written = written := trimmed_eq_self (h.getLast?_eq ▸ hlast)
  rw [ofPhrase_append_spaces, length_ofPhrase, length_ofPhrase, hwritten, trimmed_eq_self hlast,
    h.count_space, Nat.add_assoc]

/-- A text without a space too many is what it was. -/
theorem Spaced.eq_of_zero (h : Spaced text 0 written) : written = text := by
  cases h
  rfl

end Spaced

section Valid

variable {list : WordList} {m : Mnemonic}

/-- **A valid mnemonic is that of some entropy.** -/
theorem exists_spelling_of_valid (h : (m.validate list).value = .ok ()) :
    ∃ entropy, m = spelling list entropy := by
  rw [validate_eq_toEntropy] at h
  cases hentropy : (m.toEntropy list).value with
  | error error =>
    rw [hentropy] at h
    cases h
  | ok entropy =>
    have hencode := (toEntropy_eq_ok_iff list m entropy).mp hentropy
    rw [encode_eq_ok] at hencode
    exact ⟨entropy, (Except.ok.inj hencode).symm⟩

/-- A phrase that is read back does not end in a space. -/
theorem getLast?_phrase_of_reread (h : ofPhrase m.phrase = m) :
    m.phrase.toList.getLast? ≠ some ' ' := by
  have htrimmed : trimmed m.phrase = m.phrase := by rw [← phrase_ofPhrase, h]
  rw [← htrimmed]
  exact getLast?_trimmed _

/-- Too few or too many words are reported, whatever the words are. -/
theorem payload_of_wrongWordCount (h : m.words.length ≠ Codec.wordCount) :
    m.payload list = Validation.rejected (.wrongWordCount m.words.length) :=
  Validation.validate_of_bad (Validation.check_of_wrongWordCount h)

/-- **Words of a valid mnemonic that were torn apart are counted.** -/
theorem length_ofPhrase_of_valid {written : String} {j : Nat}
    (hvalid : (m.validate list).value = .ok ()) (h : Spaced m.phrase j written) (k : Nat) :
    (ofPhrase (written ++ spaces k)).words.length = Codec.wordCount + j ∧
      (j = 0 → ofPhrase (written ++ spaces k) = m) := by
  obtain ⟨entropy, rfl⟩ := exists_spelling_of_valid hvalid
  have hread := ofPhrase_phrase_spelling list entropy
  constructor
  · rw [length_ofPhrase_spaced (getLast?_phrase_of_reread hread) h, hread, length_spelling]
  · rintro rfl
    rw [h.eq_of_zero, ofPhrase_append_spaces, hread]

end Valid

end Mnemonic

namespace Session

/-- A session rejects a mnemonic with too few or too many words, and has no entropy of it. -/
theorem response_of_wrongWordCount {session : Session} (hholds : HoldsEnglish session)
    {m : Mnemonic} (h : m.words.length ≠ Codec.wordCount) :
    (perform (.ask m .validate) session).value.1 =
        .failure (.badMnemonic (.wrongWordCount m.words.length)) ∧
      (perform (.ask m .entropy) session).value.1 =
        .failure (.badMnemonic (.wrongWordCount m.words.length)) := by
  have hvalidate : (perform (.ask m .validate) session).value.1 =
      .failure (.badMnemonic (.wrongWordCount m.words.length)) := by
    rw [response_validate hholds, Mnemonic.validate, Mnemonic.payload_of_wrongWordCount h]
    rfl
  exact ⟨hvalidate, (response_failure_iff hholds m _).mpr hvalidate⟩

/-- A session that calls a mnemonic valid means that it is valid over the English list. -/
theorem valid_of_response {session : Session} (hholds : HoldsEnglish session) {m : Mnemonic}
    (h : (perform (.ask m .validate) session).value.1 = .valid) :
    (m.validate .english).value = .ok () := by
  rw [response_validate hholds] at h
  cases hvalue : (m.validate .english).value with
  | ok _ => rfl
  | error error =>
    rw [hvalue] at h
    cases h

/-- **Spaces that stray into a phrase are noticed.**  In any process, whatever was done before, let
a mnemonic be valid, and let spaces be put into its phrase anywhere before its last character, `j`
of them, and any number behind it.  If there are any before the last character, what is read is
rejected, and has no entropy, because it has `24 + j` words; if there are none, the mnemonic is
read. -/
theorem stray_spaces_detected (generator : ByteStream) (before : List Operation) (m : Mnemonic) :
    let session := (run before (start generator)).value.2
    let response := fun operation => (perform operation session).value.1
    response (.ask m .validate) = .valid →
      ∀ (j : Nat) (written : String) (k : Nat), Mnemonic.Spaced m.phrase j written →
        let r := Mnemonic.ofPhrase (written ++ Mnemonic.spaces k)
        response (.make (.phrase (written ++ Mnemonic.spaces k))) = .mnemonic r ∧
        (1 ≤ j →
          response (.ask r .validate) = .failure (.badMnemonic (.wrongWordCount (24 + j))) ∧
          response (.ask r .entropy) = .failure (.badMnemonic (.wrongWordCount (24 + j)))) ∧
        (j = 0 → r = m) := by
  intro session response hvalid j written k hspaced r
  have hholds : HoldsEnglish session := holdsEnglish_run generator before
  obtain ⟨hlength, hsame⟩ :=
    Mnemonic.length_ofPhrase_of_valid (valid_of_response hholds hvalid) hspaced k
  refine ⟨rfl, fun hj => ?_, hsame⟩
  have hwrong : r.words.length ≠ Codec.wordCount := by
    rw [hlength]
    omega
  have hresponse := response_of_wrongWordCount hholds hwrong
  rwa [hlength] at hresponse

/-- The mnemonic of zeros, with one space in front of its first word, one inside it, and two behind
the phrase. -/
theorem stray_spaces_detected_zeros :
    let m : Mnemonic := ⟨List.replicate 23 "abandon" ++ ["gravity"]⟩
    let rest := "don " ++ " ".intercalate (List.replicate 22 "abandon" ++ ["gravity"])
    let written := " " ++ "aban" ++ " " ++ rest
    let response := fun operation => (perform operation (start (.cyclic []))).value.1
    response (.ask m .validate) = .valid ∧ Mnemonic.Spaced m.phrase 2 written ∧
      response (.ask (.ofPhrase (written ++ Mnemonic.spaces 2)) .validate) =
        .failure (.badMnemonic (.wrongWordCount 26)) := by
  intro m rest written response
  have hvalid : response (.ask m .validate) = .valid := by
    have hvalue : (m.validate .english).value = .ok () := by decide +kernel
    have hresponse : response (.ask m .validate) = _ := 
      response_validate (holdsEnglish_start _) m
    rw [hresponse, hvalue]
    rfl
  have hspaced : Mnemonic.Spaced m.phrase 2 written := by
    have hphrase : m.phrase = "" ++ ("aban" ++ rest) := by decide +kernel
    have hfront : Mnemonic.Spaced m.phrase 1 ("" ++ " " ++ ("aban" ++ rest)) :=
      .put (hphrase ▸ .unchanged) (by decide +kernel)
    rw [← String.append_assoc] at hfront
    exact .put hfront (by decide +kernel)
  exact ⟨hvalid, hspaced,
    ((stray_spaces_detected (.cyclic []) [] m hvalid 2 written 2 hspaced).2.1 (by decide)).1⟩

end Session

end SeedPhrase
