import Mathlib.Data.List.DropRight
import SeedPhrase.Mnemonic

/-!
# Cutting and joining phrases

A phrase is words with a space between each two of them, and it is read by cutting it at every
space.  Reading what was written therefore cuts every word for itself, and what comes of it is the
same words again only if none of them could be cut.  Reading also forgives the spaces at the end of
a text, and so it makes no difference between texts that are the same once these are taken off.

* `pieces_append`, `pieces_intercalate`, `length_pieces` — a text is cut where it was joined, and
  in one more piece than there are spaces in it;
* `trimmed` — a text without the spaces at its end;
* `ofPhrase_append_spaces`, `ofPhrase_eq` — spaces at the end change nothing, and the words that
  are read are the pieces of what is left without them;
* `ofPhrase_canonical` — what is read from a text, and from which texts the same is read;
* `ofPhrase_phrase`, `reread_iff` — which mnemonics are read back from their phrase;
* `pieces_phrase`, `phrase_shared_iff` — which mnemonics have the same phrase, and so the same
  seeds.
-/

namespace SeedPhrase

namespace Mnemonic

/-- A text of spaces. -/
def spaces (k : Nat) : String := String.ofList (List.replicate k ' ')

theorem spaces_succ (k : Nat) : spaces (k + 1) = spaces k ++ " " := by
  apply String.toList_inj.mp
  simp [spaces, List.replicate_succ']

section Cutting

variable {w : String} {words : List String}

theorem pieces_ne_nil (text : String) : pieces text ≠ [] := by
  simp [pieces, List.splitOn_ne_nil]

/-- A text without a space is one piece. -/
theorem pieces_of_notMem (h : ' ' ∉ w.toList) : pieces w = [w] := by
  rw [pieces, List.splitOn_eq_singleton h, List.map_singleton, String.ofList_toList]

/-- **A space parts a text,** and what is on either side of it is cut for itself. -/
theorem pieces_append (text rest : String) :
    pieces (text ++ " " ++ rest) = pieces text ++ pieces rest := by
  have hcut : (text ++ " " ++ rest).toList.splitOn ' ' =
      text.toList.splitOn ' ' ++ rest.toList.splitOn ' ' := by
    rw [String.toList_append, String.toList_append, List.append_assoc]
    exact List.splitOn_append_cons_self text.toList rest.toList
  rw [pieces, hcut, List.map_append]
  rfl

/-- One more space makes one more piece, an empty one. -/
theorem pieces_append_space (text : String) : pieces (text ++ " ") = pieces text ++ [""] := by
  rw [← String.append_empty (s := text ++ " "), pieces_append]
  rfl

/-- **A text is cut where it was joined,** and within what it was joined from. -/
theorem pieces_intercalate (hne : words ≠ []) :
    pieces (" ".intercalate words) = words.flatMap pieces := by
  induction words with
  | nil => exact absurd rfl hne
  | cons w words ih =>
    cases words with
    | nil => rw [String.intercalate_singleton, List.flatMap_singleton]
    | cons next rest =>
      rw [String.intercalate_cons_cons, pieces_append, ih (List.cons_ne_nil next rest)]
      rfl

/-- Words without spaces cannot be cut. -/
theorem flatMap_pieces (hspace : ∀ w ∈ words, ' ' ∉ w.toList) : words.flatMap pieces = words := by
  calc words.flatMap pieces
    _ = words.flatMap fun w => [w] := List.flatMap_congr fun w hw => pieces_of_notMem (hspace w hw)
    _ = words := List.flatMap_singleton' words

/-- Nothing that a list is cut into has in it what it was cut at. -/
theorem notMem_of_mem_splitOn {letters piece : List Char} (h : piece ∈ letters.splitOn ' ') :
    ' ' ∉ piece := by
  induction letters generalizing piece with
  | nil =>
    rw [List.splitOn_nil, List.mem_singleton] at h
    exact h ▸ List.not_mem_nil
  | cons c letters ih =>
    -- A character that is no space goes in front of the first piece.
    obtain ⟨first, rest, hcut⟩ := List.exists_cons_of_ne_nil (List.splitOn_ne_nil ' ' letters)
    rw [List.splitOn_cons_eq_if_modifyHead, hcut, List.modifyHead_cons] at h
    rw [hcut] at ih
    grind

theorem notMem_of_mem_pieces {text : String} (h : w ∈ pieces text) : ' ' ∉ w.toList := by
  obtain ⟨piece, hpiece, rfl⟩ := List.mem_map.mp h
  rw [String.toList_ofList]
  exact notMem_of_mem_splitOn hpiece

/-- **There is one piece more than there are spaces.** -/
theorem length_pieces (text : String) : (pieces text).length = 1 + text.toList.count ' ' := by
  rw [pieces, List.length_map]
  induction text.toList with
  | nil => rfl
  | cons c letters ih =>
    rw [List.splitOn_cons_eq_if_modifyHead]
    by_cases hc : c = ' '
    · rw [if_pos (beq_iff_eq.mpr hc), List.length_cons, ih, hc, List.count_cons_self, Nat.add_assoc]
    · rw [if_neg (mt beq_iff_eq.mp hc), List.length_modifyHead, ih, List.count_cons_of_ne hc]

theorem pieces_injective : Function.Injective pieces :=
  Function.LeftInverse.injective intercalate_pieces

/-- The last piece is empty only behind a space, or if there is nothing to cut. -/
theorem eq_empty_of_getLast?_pieces {text : String} (h : text.toList.getLast? ≠ some ' ')
    (hlast : (pieces text).getLast? = some "") : text = "" := by
  obtain ⟨front, hfront⟩ := List.getLast?_eq_some_iff.mp hlast
  have htext := intercalate_pieces text
  by_cases hne : front = []
  · rw [← htext, hfront, hne]
    rfl
  · rw [hfront, String.intercalate_append_of_ne_nil hne (List.cons_ne_nil _ _),
      String.intercalate_singleton, String.append_empty] at htext
    refine absurd ?_ h
    rw [← htext, String.toList_append]
    exact List.getLast?_concat

end Cutting

section Dropping

variable {words : List String}

/-- An empty piece behind others is dropped. -/
theorem dropLastEmpty_append_empty (hne : words ≠ []) :
    dropLastEmpty (words ++ [""]) = dropLastEmpty words := by
  obtain ⟨last, rest, hwords⟩ := List.exists_cons_of_ne_nil (mt List.reverse_eq_nil_iff.mp hne)
  rw [dropLastEmpty, dropLastEmpty, List.reverse_append, hwords]
  rfl

/-- Nothing is dropped behind a last piece that is not empty. -/
theorem dropLastEmpty_of_getLast? (hlast : words.getLast? ≠ some "") :
    dropLastEmpty words = words := by
  rw [List.getLast?_eq_head?_reverse] at hlast
  have hkept : dropEmpty words.reverse = words.reverse := by
    cases hwords : words.reverse with
    | nil => rfl
    | cons piece pieces =>
      rw [hwords, List.head?_cons] at hlast
      cases pieces with
      | nil => rfl
      | cons next rest => rw [dropEmpty, if_neg fun hempty => hlast (congrArg some hempty)]
  rw [dropLastEmpty, hkept, List.reverse_reverse]

/-- Nothing is dropped of what is cut from a text that does not end in a space. -/
theorem dropLastEmpty_pieces {text : String} (h : text.toList.getLast? ≠ some ' ') :
    dropLastEmpty (pieces text) = pieces text := by
  by_cases hlast : (pieces text).getLast? = some ""
  · rw [eq_empty_of_getLast?_pieces h hlast]
    rfl
  · exact dropLastEmpty_of_getLast? hlast

end Dropping

section Trimming

/-- A text without the spaces at its end. -/
def trimmed (text : String) : String := String.ofList (text.toList.rdropWhile (· = ' '))

/-- What is taken off is spaces. -/
theorem exists_trimmed_append_spaces (text : String) : ∃ k, text = trimmed text ++ spaces k := by
  have hspaces : ∃ k, text.toList.rtakeWhile (· = ' ') = List.replicate k ' ' := by
    refine ⟨_, List.eq_replicate_of_mem fun c hc => ?_⟩
    simpa using List.mem_rtakeWhile_imp hc
  obtain ⟨k, hk⟩ := hspaces
  refine ⟨k, String.toList_inj.mp ?_⟩
  rw [trimmed, spaces, ← hk, String.toList_append, String.toList_ofList, String.toList_ofList,
    List.rdropWhile_append_rtakeWhile]

/-- No space is left at the end. -/
theorem getLast?_trimmed (text : String) : (trimmed text).toList.getLast? ≠ some ' ' := by
  intro hlast
  rw [trimmed, String.toList_ofList] at hlast
  obtain ⟨hne, hspace⟩ := List.mem_getLast?_eq_getLast hlast
  exact List.rdropWhile_last_not _ _ hne (by simp [← hspace])

/-- Without a space at the end there is nothing to take off. -/
theorem trimmed_eq_self {text : String} (h : text.toList.getLast? ≠ some ' ') :
    trimmed text = text := by
  rw [trimmed, List.rdropWhile_eq_self_iff.mpr, String.ofList_toList]
  intro hne hspace
  refine h ?_
  rw [List.getLast?_eq_some_getLast hne]
  simpa using hspace

theorem ofPhrase_append_space (text : String) : ofPhrase (text ++ " ") = ofPhrase text := by
  rw [ofPhrase, ofPhrase, pieces_append_space, dropLastEmpty_append_empty (pieces_ne_nil text)]

/-- **Spaces at the end are forgiven,** however many there are. -/
theorem ofPhrase_append_spaces (text : String) (k : Nat) :
    ofPhrase (text ++ spaces k) = ofPhrase text := by
  induction k with
  | zero =>
    rw [show spaces 0 = "" from rfl, String.append_empty]
  | succ k ih => rw [spaces_succ, ← String.append_assoc, ofPhrase_append_space, ih]

/-- **Reading is cutting what is left without the spaces at the end.** -/
theorem ofPhrase_eq (text : String) : ofPhrase text = ⟨pieces (trimmed text)⟩ := by
  obtain ⟨k, hk⟩ := exists_trimmed_append_spaces text
  calc ofPhrase text
    _ = ofPhrase (trimmed text ++ spaces k) := congrArg ofPhrase hk
    _ = ofPhrase (trimmed text) := ofPhrase_append_spaces _ k
    _ = ⟨pieces (trimmed text)⟩ := by rw [ofPhrase, dropLastEmpty_pieces (getLast?_trimmed text)]

-- Spaces in front of words and between them are kept, as empty words.
example : (ofPhrase " a  b  ").words = ["", "a", "", "b"] := by decide

end Trimming

section Reading

variable (text : String)

theorem words_ofPhrase : (ofPhrase text).words = pieces (trimmed text) := by
  rw [ofPhrase_eq]

theorem phrase_ofPhrase : (ofPhrase text).phrase = trimmed text := by
  rw [phrase, words_ofPhrase, intercalate_pieces]

theorem words_ofPhrase_ne_nil : (ofPhrase text).words ≠ [] := by
  rw [words_ofPhrase]
  exact pieces_ne_nil _

theorem notMem_of_mem_ofPhrase : ∀ w ∈ (ofPhrase text).words, ' ' ∉ w.toList := by
  rw [words_ofPhrase]
  exact fun w hw => notMem_of_mem_pieces hw

/-- The last word is empty only if it is the only one. -/
theorem getLast?_ofPhrase_iff :
    (ofPhrase text).words.getLast? = some "" ↔ (ofPhrase text).words = [""] := by
  rw [words_ofPhrase]
  refine ⟨fun hlast => ?_, fun hwords => hwords ▸ rfl⟩
  rw [eq_empty_of_getLast?_pieces (getLast?_trimmed text) hlast]
  rfl

theorem length_ofPhrase :
    (ofPhrase text).words.length = 1 + (trimmed text).toList.count ' ' := by
  rw [words_ofPhrase]
  exact length_pieces _

/-- Trimmed texts are told apart. -/
theorem ofPhrase_eq_ofPhrase_iff {other : String} :
    ofPhrase text = ofPhrase other ↔ trimmed text = trimmed other := by
  rw [ofPhrase_eq, ofPhrase_eq, mk.injEq, pieces_injective.eq_iff]

end Reading

/-- **What is read from a text.**  There is always a word, no word has a space in it, and the last
one is empty only if it is the only one.  With a space between each two of them the words are the
text without the spaces at its end, of which nothing else is taken off; they are one more than
there are spaces left.  Reading that phrase gives the same mnemonic again, and from two texts the
same is read if and only if they differ in nothing but the spaces at their ends. -/
theorem ofPhrase_canonical (text : String) :
    let m := ofPhrase text
    m.words ≠ [] ∧
    (∀ w ∈ m.words, ' ' ∉ w.toList) ∧
    (m.words.getLast? = some "" ↔ m.words = [""]) ∧
    m.phrase = trimmed text ∧
    (∃ k, text = trimmed text ++ spaces k) ∧
    (trimmed text).toList.getLast? ≠ some ' ' ∧
    m.words.length = 1 + (trimmed text).toList.count ' ' ∧
    ofPhrase m.phrase = m ∧
    ∀ other, m = ofPhrase other ↔ trimmed text = trimmed other := by
  intro m
  have hagain : ofPhrase m.phrase = m := by
    rw [ofPhrase_eq_ofPhrase_iff, phrase_ofPhrase]
    exact trimmed_eq_self (getLast?_trimmed text)
  exact ⟨words_ofPhrase_ne_nil text, notMem_of_mem_ofPhrase text, getLast?_ofPhrase_iff text,
    phrase_ofPhrase text, exists_trimmed_append_spaces text, getLast?_trimmed text,
    length_ofPhrase text, hagain, fun other => ofPhrase_eq_ofPhrase_iff text⟩

section Writing

/-- What the words of a mnemonic are cut into, one after the other; a mnemonic without words counts
as one with an empty word. -/
def parts (m : Mnemonic) : List String :=
  (if m.words = [] then [""] else m.words).flatMap pieces

/-- **A phrase is cut into the parts of its words.** -/
theorem pieces_phrase (m : Mnemonic) : pieces m.phrase = m.parts := by
  by_cases hne : m.words = []
  · rw [phrase, parts, if_pos hne, hne]
    rfl
  · rw [phrase, parts, if_neg hne, pieces_intercalate hne]

variable {m other : Mnemonic}

/-- Words that cannot be cut are the parts. -/
theorem parts_eq_words (hne : m.words ≠ []) (hspace : ∀ w ∈ m.words, ' ' ∉ w.toList) :
    m.parts = m.words := by
  rw [parts, if_neg hne, flatMap_pieces hspace]

/-- **What was written is read back.** -/
theorem ofPhrase_phrase (hne : m.words ≠ []) (hspace : ∀ w ∈ m.words, ' ' ∉ w.toList)
    (hlast : m.words.getLast? ≠ some "") : ofPhrase m.phrase = m := by
  rw [ofPhrase, pieces_phrase, parts_eq_words hne hspace, dropLastEmpty_of_getLast? hlast]

/-- A single word is read back even if it is empty. -/
theorem ofPhrase_phrase_singleton {w : String} (hspace : ' ' ∉ w.toList) :
    ofPhrase (phrase ⟨[w]⟩) = ⟨[w]⟩ := by
  rw [phrase, String.intercalate_singleton, ofPhrase, pieces_of_notMem hspace]
  rfl

/-- **Which mnemonics are read back from their phrase:** those that have a word, of which no word
has a space in it, and of which the last word is not empty unless it is the only one. -/
theorem reread_iff (words : List String) :
    ofPhrase (phrase ⟨words⟩) = ⟨words⟩ ↔
      words ≠ [] ∧ (∀ w ∈ words, ' ' ∉ w.toList) ∧
        (words.getLast? ≠ some "" ∨ words.length = 1) := by
  constructor
  · intro h
    have hwords : (ofPhrase (phrase ⟨words⟩)).words = words := congrArg Mnemonic.words h
    refine ⟨hwords ▸ words_ofPhrase_ne_nil _, hwords ▸ notMem_of_mem_ofPhrase _, ?_⟩
    by_cases hlast : words.getLast? = some ""
    · have honly := (getLast?_ofPhrase_iff (phrase ⟨words⟩)).mp (hwords.symm ▸ hlast)
      exact .inr (hwords ▸ honly ▸ rfl)
    · exact .inl hlast
  · rintro ⟨hne, hspace, hlast | hsingle⟩
    · exact ofPhrase_phrase hne hspace hlast
    · obtain ⟨w, rfl⟩ := List.length_eq_one_iff.mp hsingle
      exact ofPhrase_phrase_singleton (hspace w List.mem_cons_self)

/-- A mnemonic is its words. -/
theorem words_injective : Function.Injective words := fun ⟨_⟩ ⟨_⟩ h => congrArg mk h

/-- **The phrase is known by the parts.** -/
theorem phrase_eq_phrase_iff : m.phrase = other.phrase ↔ m.parts = other.parts := by
  rw [← pieces_phrase, ← pieces_phrase, pieces_injective.eq_iff]

/-- A phrase that is not empty and has no space in it is that of a single word. -/
theorem eq_of_notMem_phrase (hne : m.phrase ≠ "") (hspace : ' ' ∉ m.phrase.toList) :
    m = ⟨[m.phrase]⟩ := by
  obtain ⟨words⟩ := m
  cases words with
  | nil => exact absurd rfl hne
  | cons w rest =>
    cases rest with
    | nil => rw [phrase, String.intercalate_singleton]
    | cons next rest =>
      rw [phrase, String.intercalate_cons_cons] at hspace
      simp at hspace

/-- A phrase is shared if it is empty or has a space in it. -/
theorem exists_other_phrase_iff :
    (∃ other, other ≠ m ∧ other.phrase = m.phrase) ↔ m.phrase = "" ∨ ' ' ∈ m.phrase.toList := by
  constructor
  · rintro ⟨other, hother, hphrase⟩
    by_contra hneither
    obtain ⟨hne, hspace⟩ := not_or.mp hneither
    apply hother
    rw [eq_of_notMem_phrase hne hspace, ← hphrase]
    exact eq_of_notMem_phrase (hphrase ▸ hne) (hphrase ▸ hspace)
  · intro h
    -- Of two different mnemonics with the phrase one is not `m`.
    obtain ⟨a, b, hab, ha, hb⟩ :
        ∃ a b : Mnemonic, a ≠ b ∧ a.phrase = m.phrase ∧ b.phrase = m.phrase := by
      rcases h with hempty | hspace
      · rw [hempty]
        exact ⟨⟨[]⟩, ⟨[""]⟩, by decide, rfl, rfl⟩
      · refine ⟨⟨[m.phrase]⟩, ⟨pieces m.phrase⟩, ?_, ?_, ?_⟩
        · intro hsame
          have hlength := length_pieces m.phrase
          have hcount := List.count_pos_iff.mpr hspace
          rw [← mk.inj hsame, List.length_singleton] at hlength
          omega
        · exact String.intercalate_singleton
        · exact intercalate_pieces _
    by_cases hm : a = m
    · exact ⟨b, hm ▸ hab.symm, hb⟩
    · exact ⟨a, hm, ha⟩

/-- A seed is that of a phrase, whatever words the phrase was written from. -/
theorem toSeed_of_phrase_eq (h : m.phrase = other.phrase) (passphrase : String) :
    m.toSeed passphrase = other.toSeed passphrase := by
  rw [toSeed, toSeed, h]

/-- **Who shares a phrase.**  Two mnemonics have the same phrase if and only if their words are cut
into the same pieces at the spaces, one without words counting as one with an empty word, and then
they have the same seed with every passphrase.  Among mnemonics with words that have no spaces in
them only equal ones have the same phrase, but every phrase that is empty or has a space in it is
also that of another mnemonic, which has all seeds in common with the first. -/
theorem phrase_shared_iff (m other : Mnemonic) :
    (m.phrase = other.phrase ↔ m.parts = other.parts) ∧
    (m.parts = other.parts → ∀ passphrase, m.toSeed passphrase = other.toSeed passphrase) ∧
    (m.words ≠ [] → (∀ w ∈ m.words, ' ' ∉ w.toList) →
      other.words ≠ [] → (∀ w ∈ other.words, ' ' ∉ w.toList) →
        (m = other ↔ m.phrase = other.phrase)) ∧
    ((∃ third, third ≠ m ∧ third.phrase = m.phrase ∧
        ∀ passphrase, third.toSeed passphrase = m.toSeed passphrase) ↔
      m.phrase = "" ∨ ' ' ∈ m.phrase.toList) := by
  refine ⟨phrase_eq_phrase_iff, ?_, ?_, ?_⟩
  · intro hparts
    exact toSeed_of_phrase_eq (phrase_eq_phrase_iff.mpr hparts)
  · intro hne hspace hother hotherSpace
    rw [phrase_eq_phrase_iff, parts_eq_words hne hspace, parts_eq_words hother hotherSpace]
    exact words_injective.eq_iff.symm
  · rw [← exists_other_phrase_iff]
    exact exists_congr fun third => and_congr_right fun _ => and_iff_left_of_imp toSeed_of_phrase_eq

end Writing

end Mnemonic

end SeedPhrase
