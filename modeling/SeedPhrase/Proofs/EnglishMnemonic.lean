import SeedPhrase.Proofs.Verdict
import SeedPhrase.Session

/-!
# English mnemonics

Whatever was done before, the cache that all mnemonics of a process share holds the
English list or nothing, for nothing else is ever loaded into it.  So every operation
that asks for the list gets that list, and what it answers can be told from the words
alone.

* `HoldsEnglish`, `keeps_run` — the invariant, and that no run of operations breaks it;
* `response_entropy`, `response_validate`, `response_make` — the answers of a session;
* `response_entropy_eq_iff`, `response_failure_iff` — how these answers go together;
* `valid_iff_encoded` — a mnemonic is valid exactly when some entropy is encoded by it.
-/

namespace SeedPhrase

/-- What was obtained from a cache is held by it. -/
theorem Cache.slot_obtain (list : WordList) (cache : Cache) :
    (cache.obtain list).value.2.slot = some (cache.obtain list).value.1 := by
  unfold Cache.obtain
  split
  · assumption
  · rfl

/-- From a cache that holds no other list the given one is obtained. -/
theorem Cache.list_obtain {list : WordList} {cache : Cache}
    (h : ∀ loaded, cache.slot = some loaded → loaded.list = list) :
    (cache.obtain list).value.1.list = list := by
  unfold Cache.obtain
  split
  · exact h _ ‹_›
  · rfl

/-- A mnemonic has the entropy that encodes to its words. -/
theorem Mnemonic.toEntropy_eq_ok_iff (list : WordList) (m : Mnemonic) (entropy : Entropy) :
    (m.toEntropy list).value = .ok entropy ↔ Mnemonic.encode list entropy = .ok m := by
  have hvalue : (m.toEntropy list).value =
      (Validation.check list m.words).map Payload.entropy := by
    rw [← Validation.value_validate]
    rfl
  rw [hvalue, Mnemonic.encode]
  constructor
  · intro h
    cases hcheck : Validation.check list m.words with
    | error error => rw [hcheck] at h; cases h
    | ok payload =>
      rw [hcheck] at h
      obtain ⟨encoded, hencode, hpayload⟩ := Validation.check_eq_ok_iff.mp hcheck
      have hsame : encoded = entropy := by
        rw [← Except.ok.inj h, hpayload]
        rfl
      rw [← hsame, hencode]
      rfl
  · intro h
    cases hencode : Codec.encode list entropy with
    | error error => rw [hencode] at h; cases h
    | ok words =>
      rw [hencode] at h
      have hwords : words = m.words := congrArg Mnemonic.words (Except.ok.inj h)
      rw [hwords] at hencode
      rw [Validation.check_eq_ok_iff.mpr ⟨entropy, hencode, rfl⟩]
      rfl

namespace Session

/-- The cache of a session holds the English list or nothing. -/
def HoldsEnglish (session : Session) : Prop :=
  ∀ loaded, session.cache.slot = some loaded → loaded.list = .english

/-- Work that leaves the English list in the cache, or nothing. -/
def Keeps {α : Type} (work : Work α) : Prop :=
  ∀ session, HoldsEnglish session → HoldsEnglish (work session).value.2

theorem holdsEnglish_start (generator : ByteStream) : HoldsEnglish (start generator) := by
  intro loaded h
  cases h

theorem Keeps.pure {α : Type} (value : α) : Keeps (pure value) := by
  intro session h
  exact h

theorem Keeps.bind {α β : Type} {work : Work α} {next : α → Work β} (hwork : Keeps work)
    (hnext : ∀ value, Keeps (next value)) : Keeps (work >>= next) := by
  intro session h
  exact hnext _ _ (hwork session h)

theorem Keeps.logged {α : Type} (value : Log.Logged α) : Keeps (logged value) := by
  intro session h
  exact h

theorem keeps_loadEnglish : Keeps loadEnglish := by
  intro session h loaded hslot
  have hobtained := Cache.slot_obtain .english session.cache
  have hsame := Option.some.inj (hslot.symm.trans hobtained)
  rw [hsame]
  exact Cache.list_obtain h

theorem keeps_english : Keeps english :=
  keeps_loadEnglish.bind fun loaded => .pure loaded.list

/-- **The list that a session works with is the English one.** -/
theorem english_value {session : Session} (h : HoldsEnglish session) :
    (english session).value.1 = .english :=
  Cache.list_obtain h

theorem keeps_make (source : Source) : Keeps (make source) := by
  cases source with
  | entropy bytes =>
    simp only [make]
    split
    · exact .pure _
    · exact keeps_english.bind fun list => .pure _
  | phrase text => exact .pure _
  | words words => exact .pure _
  | stream stream => exact keeps_english.bind fun list => .pure _
  | generator =>
    refine keeps_english.bind fun list => ?_
    intro session h
    exact h

theorem keeps_ask (m : Mnemonic) (question : Question) : Keeps (ask m question) := by
  cases question with
  | clone => exact .pure _
  | phrase => exact .pure _
  | validate => exact keeps_english.bind fun list => (Keeps.logged _).bind fun _ => .pure _
  | entropy => exact keeps_english.bind fun list => (Keeps.logged _).bind fun _ => .pure _
  | seed passphrase => exact (Keeps.logged _).bind fun _ => .pure _
  | equals other => exact .pure _
  | debugText => exact .pure _

theorem keeps_perform (operation : Operation) : Keeps (perform operation) := by
  cases operation with
  | list => exact keeps_loadEnglish.bind fun loaded => .pure _
  | evict =>
    intro session h loaded hslot
    have hnone : (session.cache.evict).value.slot = none := by
      unfold Cache.evict
      split
      · rfl
      · assumption
    cases hnone.symm.trans hslot
  | make source => exact keeps_make source
  | ask m question => exact keeps_ask m question

theorem keeps_run (operations : List Operation) : Keeps (run operations) := by
  induction operations with
  | nil => exact .pure _
  | cons operation operations ih =>
    rw [run, List.mapM_cons]
    exact (keeps_perform operation).bind fun first => ih.bind fun rest => .pure _

/-- **Every session that can be reached holds the English list or nothing.** -/
theorem holdsEnglish_run (generator : ByteStream) (operations : List Operation) :
    HoldsEnglish (run operations (start generator)).value.2 :=
  keeps_run operations _ (holdsEnglish_start generator)

section Responses

variable {session : Session} (h : HoldsEnglish session)

include h

/-- Asking for the entropy of a mnemonic asks for it by the English list. -/
theorem response_entropy (m : Mnemonic) :
    (perform (.ask m .entropy) session).value.1 =
      respond .entropy (m.toEntropy .english).value := by
  have hresponse : (perform (.ask m .entropy) session).value.1 =
      respond .entropy (m.toEntropy (english session).value.1).value := rfl
  rw [hresponse, english_value h]

theorem response_validate (m : Mnemonic) :
    (perform (.ask m .validate) session).value.1 =
      respond (fun _ => .valid) (m.validate .english).value := by
  have hresponse : (perform (.ask m .validate) session).value.1 =
      respond (fun _ => .valid) (m.validate (english session).value.1).value := rfl
  rw [hresponse, english_value h]

/-- Entropy of the right length is encoded by the English list. -/
theorem response_make (entropy : Entropy) :
    (perform (.make (.entropy entropy.toList)) session).value.1 =
      respond .mnemonic (Mnemonic.encode .english entropy) := by
  have hbytes : Entropy.ofBytes? entropy.toList = some entropy := by
    rw [Entropy.ofBytes?, dif_pos (Vector.length_toList)]
    rfl
  have hresponse : (perform (.make (.entropy entropy.toList)) session).value.1 =
      respond .mnemonic (Mnemonic.encode (english session).value.1 entropy) := by
    simp only [perform, make, hbytes]
    rfl
  rw [hresponse, english_value h]

/-- A session answers with the entropy of which it would make the mnemonic. -/
theorem response_entropy_eq_iff (m : Mnemonic) (entropy : Entropy) :
    (perform (.ask m .entropy) session).value.1 = .entropy entropy ↔
      (perform (.make (.entropy entropy.toList)) session).value.1 = .mnemonic m := by
  have hasked : (perform (.ask m .entropy) session).value.1 = .entropy entropy ↔
      (m.toEntropy .english).value = .ok entropy := by
    rw [response_entropy h]
    cases (m.toEntropy .english).value <;> simp [respond]
  have hmade : (perform (.make (.entropy entropy.toList)) session).value.1 = .mnemonic m ↔
      Mnemonic.encode .english entropy = .ok m := by
    rw [response_make h]
    cases Mnemonic.encode .english entropy <;> simp [respond]
  rw [hasked, hmade, Mnemonic.toEntropy_eq_ok_iff]

/-- A mnemonic has no entropy for the reason for which it is not valid. -/
theorem response_failure_iff (m : Mnemonic) (error : Error) :
    (perform (.ask m .entropy) session).value.1 = .failure error ↔
      (perform (.ask m .validate) session).value.1 = .failure error := by
  rw [response_entropy h, response_validate h, Mnemonic.validate_eq_toEntropy]
  cases (m.toEntropy .english).value <;> simp [respond, Except.map]

end Responses

end Session

/-- **Valid is what was encoded.**  Over any list the sequences that pass are those that
encoding produces, each from one entropy, and the payload is that entropy with its checksum.
In a process that did anything before, a mnemonic has the entropy that it would be made of,
and has none for the reason for which it is not valid. -/
theorem valid_iff_encoded :
    (∀ (list : WordList) (words : List String) (payload : Payload),
      (Validation.validate list words).value = .ok payload ↔
        ∃ entropy, Codec.encode list entropy = .ok words ∧
          payload.bytes = entropy.toList ++ [checksum entropy]) ∧
    (∀ (list : WordList) (words : List String) (entropy other : Entropy),
      Codec.encode list entropy = .ok words → Codec.encode list other = .ok words →
        entropy = other) ∧
    ∀ (generator : ByteStream) (before : List Operation) (m : Mnemonic),
      let session := (Session.run before (Session.start generator)).value.2
      let response := fun operation => (Session.perform operation session).value.1
      (∀ entropy : Entropy, response (.ask m .entropy) = .entropy entropy ↔
        response (.make (.entropy entropy.toList)) = .mnemonic m) ∧
      ∀ error, response (.ask m .entropy) = .failure error ↔
        response (.ask m .validate) = .failure error := by
  refine ⟨?_, fun _ _ _ _ => Validation.entropy_unique, ?_⟩
  · intro list words payload
    exact Validation.validate_eq_ok_iff
  · intro generator before m session response
    have hlist := Session.holdsEnglish_run generator before
    exact ⟨Session.response_entropy_eq_iff hlist m, Session.response_failure_iff hlist m⟩

end SeedPhrase
