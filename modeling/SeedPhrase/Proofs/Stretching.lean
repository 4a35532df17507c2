import SeedPhrase.Mnemonic

/-!
# Seeds are stretched phrases

A seed is derived in one pass over hash states, with a key that was prepared once, and only the
last state is turned into bytes.  What comes out is what the definition says: all the keyed
hashes, from the first one, of the salt, to the last, each of them the hash of the bytes of the one
before it, added up bit by bit.

* `Pbkdf2.IsStretched` — the definition, hash by hash;
* `Pbkdf2.bytes_accumulate` — the pass adds up the hashes;
* `Pbkdf2.derive_eq_sum`, `Pbkdf2.isStretched_derive` — so what is derived is the sum, byte by
  byte;
* `Seed.Deriver.isRefused_iff` — which parameters are refused;
* `Seed.seed_is_stretched_phrase` — what it comes to for seeds, of phrases and of mnemonics.
-/

namespace SeedPhrase

namespace Hash

/-- The keyed hash of a message, written out: of a key that is longer than a block the hash is
taken, what is shorter than a block is followed by zeros, and the block stands, altered in one way,
in front of the message and, altered in another, in front of the hash of that. -/
theorem Hmac.mac_eq (key message : List UInt8) :
    Hmac.mac key message =
      let short := if 128 < key.length then (Sha512.digest key).toList else key
      let block := short ++ List.replicate (128 - short.length) 0
      Sha512.digest (block.map (· ^^^ 0x5c) ++
        (Sha512.digest (block.map (· ^^^ 0x36) ++ message)).toList) := by
  have hshort : (if key.length ≤ Sha512.blockSize then key else (Sha512.digest key).toList) =
      if 128 < key.length then (Sha512.digest key).toList else key := by
    by_cases hlong : 128 < key.length
    · rw [if_pos hlong, if_neg (Nat.not_le.mpr hlong)]
    · rw [if_neg hlong, if_pos (Nat.not_lt.mp hlong)]
  simp only [mac, outerPad, innerPad, keyBlock, hshort]

namespace Pbkdf2

/-- What a password is stretched to with a salt and some hashes: there are hashes, counted from
one, of which the first is that of the salt and the number one in four bytes, and each later one
that of the hash before it; and each byte is the sum of theirs, bit by bit. -/
def IsStretched (password salt : List UInt8) (iterations : Nat) (stretched : Vector UInt8 64) :
    Prop :=
  ∃ U : Nat → Vector UInt8 64,
    U 1 = Hmac.mac password (salt ++ [0, 0, 0, 1]) ∧
    (∀ i, 1 ≤ i → U (i + 1) = Hmac.mac password (U i).toList) ∧
    ∀ (j : Nat) (_ : j < 64), stretched[j] =
      ((List.range' 1 iterations).map fun i => (U i)[j]).foldl (· ^^^ ·) 0

theorem zero_add (x : Sha512.Digest) : add (Vector.replicate 64 0) x = x := by
  ext i hi
  simp [add]

/-- Hashes are added up byte by byte. -/
theorem getElem_foldl_add (hashes : List Sha512.Digest) (sum : Sha512.Digest) {j : Nat}
    (hj : j < 64) :
    (hashes.foldl add sum)[j] = (hashes.map (·[j])).foldl (· ^^^ ·) sum[j] := by
  induction hashes generalizing sum with
  | nil => rfl
  | cons hash hashes ih =>
    have hbyte : (add sum hash)[j] = sum[j] ^^^ hash[j] := Vector.getElem_zipWith hj
    rw [List.foldl_cons, ih, hbyte, List.map_cons, List.foldl_cons]

variable (password salt : List UInt8)

/-- **The pass adds up the hashes.**  From a state that stands for one of them, it adds as many of
those that follow as it makes steps. -/
theorem bytes_accumulate (steps : Nat) {i : Nat} {last : Sha512.State} (sum : Sha512.State)
    (hlast : last.bytes = chain password salt i) :
    (accumulate (Hmac.Key.ofBytes password) steps last sum).bytes =
      ((List.range' (i + 1) steps).map (chain password salt)).foldl add sum.bytes := by
  -- The first step moves the pass on to the next hash, so the state and the sum are left open.
  induction steps generalizing i last sum with
  | zero => rfl
  | succ steps ih =>
    obtain ⟨hmac, hsum⟩ := bytes_step password last sum
    have hnext : ((Hmac.Key.ofBytes password).finishHash last).bytes =
        chain password salt (i + 1) := by rw [hmac, hlast, chain]
    rw [accumulate, ih _ hnext, hsum, hnext, List.range'_succ, List.map_cons, List.foldl_cons]

/-- The first state of the pass stands for the first hash. -/
theorem bytes_first :
    ((Hmac.Key.ofBytes password).finish (salt ++ blockNumber)).bytes = chain password salt 0 :=
  Hmac.Key.mac_ofBytes password (salt ++ blockNumber)

/-- **What is derived is the sum of all the hashes.** -/
theorem derive_eq_sum {iterations : Nat} (h : 0 < iterations) :
    derive password salt iterations =
      ((List.range iterations).map (chain password salt)).foldl add (Vector.replicate 64 0) := by
  obtain ⟨steps, rfl⟩ := Nat.exists_eq_succ_of_ne_zero (Nat.ne_of_gt h)
  have hfirst := bytes_first password salt
  rw [List.range_eq_range', List.range'_succ, List.map_cons, List.foldl_cons, zero_add, derive,
    bytes_accumulate password salt _ _ hfirst, hfirst]
  rfl

theorem isStretched_derive {iterations : Nat} (h : 0 < iterations) :
    IsStretched password salt iterations (derive password salt iterations) := by
  refine ⟨fun i => chain password salt (i - 1), rfl, ?_, ?_⟩
  · intro i hi
    obtain ⟨j, rfl⟩ := Nat.exists_eq_succ_of_ne_zero (Nat.ne_of_gt hi)
    rfl
  · intro j hj
    simp only [derive_eq_sum password salt h]
    rw [getElem_foldl_add _ _ hj, Vector.getElem_replicate hj, List.range'_eq_map_range,
      List.map_map, List.map_map]
    congr 2
    funext i
    simp only [Function.comp_apply, Nat.add_sub_cancel_left]

end Pbkdf2

end Hash

namespace Seed

open Hash.Pbkdf2

/-- The bytes of two texts, one behind the other. -/
theorem utf8_append (text other : String) : utf8 (text ++ other) = utf8 text ++ utf8 other := by
  simp only [utf8, String.toUTF8, String.toByteArray_append, ByteArray.data_append,
    Array.toList_append]

namespace Deriver

/-- What a deriver derives. -/
theorem isStretched_seed (deriver : Deriver) (phrase passphrase : String) :
    IsStretched (utf8 phrase) (utf8 deriver.config.saltLabel ++ utf8 passphrase)
      deriver.config.iterations (deriver.seed phrase passphrase).bytes := by
  rw [← utf8_append]
  exact isStretched_derive _ _ deriver.iterations_pos

section Refusal

variable {config : Config}

/-- No iterations are refused first. -/
theorem ofConfig_of_noIterations (h : config.iterations = 0) :
    ofConfig config = .error .noIterations := dif_pos h

theorem ofConfig_of_wrongOutputSize (hi : config.iterations ≠ 0) (ho : config.outputSize ≠ size) :
    ofConfig config = .error (.wrongOutputSize config.outputSize) := by
  rw [ofConfig, dif_neg hi, dif_neg ho]

theorem ofConfig_of_usable (hi : config.iterations ≠ 0) (ho : config.outputSize = size) :
    ∃ deriver, ofConfig config = .ok deriver ∧ deriver.config = config := by
  refine ⟨⟨config, Nat.pos_of_ne_zero hi, ho⟩, ?_, rfl⟩
  rw [ofConfig, dif_neg hi, dif_pos ho]

/-- **Which parameters are refused:** no iterations, or seeds of another length. -/
theorem isRefused_iff :
    (∃ reason,
      (ofConfig config).mapError Config.Fault.toError = .error (.invalidSeedConfig reason)) ↔
      config.iterations = 0 ∨ config.outputSize ≠ size := by
  constructor
  · intro ⟨reason, hrefused⟩
    by_cases hi : config.iterations = 0
    · exact .inl hi
    · right
      intro ho
      obtain ⟨deriver, hderiver, -⟩ := ofConfig_of_usable hi ho
      rw [hderiver] at hrefused
      cases hrefused
  · intro hunusable
    by_cases hi : config.iterations = 0
    · exact ⟨_, congrArg (Except.mapError _) (ofConfig_of_noIterations hi)⟩
    · have ho := hunusable.resolve_left hi
      exact ⟨_, congrArg (Except.mapError _) (ofConfig_of_wrongOutputSize hi ho)⟩

end Refusal

end Deriver

/-- **Seeds are stretched phrases.**  Parameters are refused if they ask for no iterations, which is
told first, or for seeds of another length; with all others there is a deriver, and from any phrase
and any passphrase it derives what the phrase is stretched to with the label and the passphrase,
all of them as UTF-8.  The seed of a mnemonic, valid or not, is that of its words with single
spaces between them, for the label and the number of iterations that all mnemonics have in common.
The last part writes out the keyed hash that is used throughout. -/
theorem seed_is_stretched_phrase :
    let bytes := fun text : String => text.toUTF8.data.toList
    (∀ config : Config,
      let made := (Deriver.ofConfig config).mapError Config.Fault.toError
      ((∃ reason, made = .error (.invalidSeedConfig reason)) ↔
        config.iterations = 0 ∨ config.outputSize ≠ 64) ∧
      (config.iterations = 0 →
        made = .error (.invalidSeedConfig "PBKDF2 iterations must be non-zero")) ∧
      (config.iterations ≠ 0 → config.outputSize ≠ 64 →
        made = .error (.invalidSeedConfig
          ("output size must be 64 bytes, got " ++ toString config.outputSize))) ∧
      (config.iterations ≠ 0 → config.outputSize = 64 →
        ∃ deriver, made = .ok deriver ∧ ∀ phrase passphrase,
          IsStretched (bytes phrase) (bytes config.saltLabel ++ bytes passphrase)
            config.iterations (deriver.derive phrase passphrase).value.bytes)) ∧
    (∀ (m : Mnemonic) (passphrase : String),
      IsStretched (bytes (" ".intercalate m.words)) (bytes "mnemonic" ++ bytes passphrase) 2048
        (m.toSeed passphrase).value.bytes) ∧
    ∀ key message, Hash.Hmac.mac key message =
      let short := if 128 < key.length then (Hash.Sha512.digest key).toList else key
      let block := short ++ List.replicate (128 - short.length) 0
      Hash.Sha512.digest (block.map (· ^^^ 0x5c) ++
        (Hash.Sha512.digest (block.map (· ^^^ 0x36) ++ message)).toList) := by
  intro bytes
  refine ⟨fun config => ⟨Deriver.isRefused_iff, ?_, ?_, ?_⟩, ?_, Hash.Hmac.mac_eq⟩
  · intro hi
    rw [Deriver.ofConfig_of_noIterations hi]
    rfl
  · intro hi ho
    rw [Deriver.ofConfig_of_wrongOutputSize hi ho]
    rfl
  · intro hi ho
    obtain ⟨deriver, hderiver, rfl⟩ := Deriver.ofConfig_of_usable hi ho
    refine ⟨deriver, ?_, deriver.isStretched_seed⟩
    rw [hderiver]
    rfl
  · intro m passphrase
    exact Deriver.bip39.isStretched_seed m.phrase passphrase

/-- Two hashes of a phrase and a passphrase that are not written in plain letters, checked against
bytes that another implementation gave. -/
theorem seed_is_stretched_phrase_unicode :
    ∃ seed : Seed,
      IsStretched "añil zoo".toUTF8.data.toList
        ("mnemonic".toUTF8.data.toList ++ "πάπυρος".toUTF8.data.toList) 2 seed.bytes ∧
      seed.toHex =
        "f9ab8937c64cd20021c34bf03d5fd32f4ee4e857fefc355f74153e9e88f841b6" ++
          "72fc1cbc556515c51ee8240f2fcd55fdabf2d906d74243b54672f8e515948594" := by
  obtain ⟨deriver, hmade, hstretched⟩ :=
    (seed_is_stretched_phrase.1 { iterations := 2 }).2.2.2 (by decide) rfl
  have htwice : deriver = ⟨{ iterations := 2 }, by decide, rfl⟩ := (Except.ok.inj hmade).symm
  refine ⟨_, hstretched "añil zoo" "πάπυρος", ?_⟩
  rw [htwice]
  decide +kernel

end Seed

end SeedPhrase
