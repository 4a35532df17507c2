import SeedPhrase.Proofs.Cache.FailedLoad
import SeedPhrase.Proofs.Eviction

/-!
# What the log cannot tell

The records of a process could be written by somebody who is told very little: which operations
were done, whether entropy was of the right length, and which check a rejected mnemonic failed.
This is the outline of what happened; the words, the entropy and the passphrases are not in it.
So two processes with the same outline have the same log, whatever their secrets are.

* `Outline`, `Operation.outline` — what is left of an operation without what is secret in it;
* `Outline.effect` — the records of an operation, written from its outline alone;
* `Session.left_perform`, `Session.left_run` — they are the records of the operation itself, and
  so for all operations of a process;
* `Cache.AlikeLoads.serveAll` — nor does the log of any cache tell what its loader brings;
* `Session.log_tells_no_secret` — what it comes to, with the texts for debugging.
-/

namespace SeedPhrase

open Log (Logged)

/-- The check that failed, if a result is a rejection. -/
def rejectionOf {α : Type} : Except Error α → Option BadMnemonic.Kind
  | .ok _ => none
  | .error error => error.badMnemonic?.map BadMnemonic.kind

/-- The check that failed, if a response is a rejection. -/
def Response.rejection? : Response → Option BadMnemonic.Kind
  | .failure error => error.badMnemonic?.map BadMnemonic.kind
  | _ => none

/-- An operation without what is secret in it. -/
inductive Outline
  | list
  | evict
  /-- A mnemonic is made of entropy, which has the right length or not. -/
  | encode (fits : Bool)
  | read
  | compose
  | draw
  | generate
  | clone
  | phrase
  /-- A mnemonic is judged, and rejected by a check or not. -/
  | validate (rejection : Option BadMnemonic.Kind)
  /-- The entropy of a mnemonic is asked for, which is rejected by a check or not. -/
  | entropy (rejection : Option BadMnemonic.Kind)
  | seed
  | equals
  | debugText
deriving DecidableEq, Repr

/-- The outline of an operation and of the response to it. -/
def Operation.outline : Operation → Response → Outline
  | .list, _ => .list
  | .evict, _ => .evict
  | .make (.entropy bytes), _ => .encode (bytes.length = Entropy.size)
  | .make (.phrase _), _ => .read
  | .make (.words _), _ => .compose
  | .make (.stream _), _ => .draw
  | .make .generator, _ => .generate
  | .ask _ .clone, _ => .clone
  | .ask _ .phrase, _ => .phrase
  | .ask _ .validate, response => .validate response.rejection?
  | .ask _ .entropy, response => .entropy response.rejection?
  | .ask _ (.seed _), _ => .seed
  | .ask _ (.equals _), _ => .equals
  | .ask _ .debugText, _ => .debugText

namespace Outline

/-- The English list is asked for: what becomes of the cache, and what is logged. -/
def load (cache : Cache) : Logged Cache := Prod.snd <$> cache.obtain .english

/-- The record of a rejection, if there was one. -/
def judge : Option BadMnemonic.Kind → Logged Unit
  | none => pure ()
  | some kind => .write (Log.rejectedInput Validation.operation kind.name)

/-- What becomes of the cache, and what is logged, as far as the outline tells it. -/
def effect (cache : Cache) : Outline → Logged Cache
  | list => load cache
  | evict => cache.evict
  | encode fits => if fits then load cache else pure cache
  | read => pure cache
  | compose => pure cache
  | draw => load cache
  | generate => load cache
  | clone => pure cache
  | phrase => pure cache
  | validate rejection => do
    let next ← load cache
    judge rejection
    return next
  | entropy rejection => do
    let next ← load cache
    judge rejection
    return next
  | seed => do
    .write (Log.performance Seed.Deriver.operation none true)
    return cache
  | equals => pure cache
  | debugText => pure cache

end Outline

namespace Session

/-- A rejection is passed on as it is. -/
theorem rejection?_respond {α : Type} {answer : α → Response}
    (h : ∀ value, (answer value).rejection? = none) (result : Except Error α) :
    (respond answer result).rejection? = rejectionOf result := by
  cases result with
  | ok value => exact h value
  | error error => rfl

theorem rejectionOf_map {α β : Type} (f : α → β) (result : Except Error α) :
    rejectionOf (result.map f) = rejectionOf result := by
  cases result <;> rfl

/-- **A judgement is logged by its kind.**  A check fails for no other reason than that the words
are rejected, so which check it was tells the record. -/
theorem records_validate (list : WordList) (words : List String) :
    (Validation.validate list words).records =
      (Outline.judge (rejectionOf (Validation.validate list words).value)).records := by
  rw [Validation.value_validate]
  cases hcheck : Validation.check list words with
  | ok payload =>
    rw [Validation.records_validate_of_ok hcheck]
    rfl
  | error error =>
    rw [Validation.records_validate_of_error hcheck]
    obtain ⟨bad, rfl⟩ := Validation.bad_of_check_eq_error hcheck
    rfl

/-- What is made of the payload of a mnemonic is logged as the judgement is. -/
theorem records_judged {α : Type} (f : Payload → α) (list : WordList) (m : Mnemonic) :
    let judged : Logged (Except Error α) := do return (← m.payload list).map f
    judged.records = (Outline.judge (rejectionOf judged.value)).records := by
  intro judged
  have hrecords : judged.records = (m.payload list).records := List.append_nil _
  have hvalue : rejectionOf judged.value = rejectionOf (m.payload list).value :=
    rejectionOf_map f _
  rw [hrecords, hvalue]
  exact records_validate list m.words

/-- The cache that work leaves, with the records of the work. -/
def left {α : Type} (done : Logged (α × Session)) : Logged Cache := (fun p => p.2.cache) <$> done

theorem left_bind {α β : Type} (work : Work α) (next : α → Work β) (session : Session) :
    left ((work >>= next) session) = work session >>= fun p => left (next p.1 p.2) := by
  have hbind : (work >>= next) session = work session >>= fun p => next p.1 p.2 := rfl
  rw [left, hbind, map_bind]
  rfl

theorem english_eq (session : Session) :
    english session = session.cache.obtain .english >>= fun p =>
      pure (p.1.list, { session with cache := p.2 }) := by
  apply Log.Logged.ext
  · rfl
  · show (_ ++ []) ++ [] = _ ++ []
    rw [List.append_nil]

/-- Work that asks for the list, and from then on neither logs anything nor touches the cache. -/
theorem left_english {α : Type} {next : WordList → Work α} (session : Session)
    (hquiet : ∀ list session, left (next list session) = pure session.cache) :
    left ((english >>= next) session) = Outline.load session.cache := by
  rw [left_bind, english_eq, bind_assoc]
  simp only [pure_bind, hquiet]
  rfl

/-- Work that asks for the list and judges by it, which is logged by the kind of the rejection. -/
theorem left_judged {α : Type} {judgement : WordList → Logged (Except Error α)}
    (hrecords : ∀ list, (judgement list).records =
      (Outline.judge (rejectionOf (judgement list).value)).records)
    (answer : Except Error α → Response) (session : Session) :
    left ((do return answer (← logged (judgement (← english))) : Work Response) session) =
      Outline.load session.cache >>= fun next =>
        Outline.judge (rejectionOf (judgement (english session).value.1).value) >>= fun _ =>
          pure next := by
  have hlogged : ∀ list next, left ((do return answer (← logged (judgement list)) :
      Work Response) next) = judgement list >>= fun _ => pure next.cache := by
    intro list next
    apply Log.Logged.ext
    · rfl
    · show ((judgement list).records ++ [] ++ []) ++ [] = (judgement list).records ++ []
      simp only [List.append_nil]
  rw [left_bind, english_eq, bind_assoc]
  simp only [pure_bind, hlogged]
  apply Log.Logged.ext
  · rfl
  · simp only [Outline.load, Log.Logged.records_bind, Log.Logged.records_pure,
      Log.Logged.records_map, hrecords]
    rfl

theorem left_make (source : Source) (session : Session) :
    left (make source session) =
      ((Operation.make source).outline (make source session).value.1).effect session.cache := by
  cases source with
  | entropy bytes =>
    by_cases hfits : bytes.length = Entropy.size
    · have hbytes : Entropy.ofBytes? bytes = some ⟨bytes.toArray, hfits⟩ := dif_pos hfits
      rw [Operation.outline, Outline.effect, if_pos (decide_eq_true hfits), make, hbytes]
      exact left_english session fun _ _ => rfl
    · -- What has the wrong length is refused before the list is asked for.
      have hbytes : Entropy.ofBytes? bytes = none := dif_neg hfits
      rw [Operation.outline, Outline.effect, if_neg (by simpa using hfits), make, hbytes]
      rfl
  | phrase text => rfl
  | words words => rfl
  | stream stream => exact left_english session fun _ _ => rfl
  | generator => exact left_english session fun _ _ => rfl

theorem left_ask (m : Mnemonic) (question : Question) (session : Session) :
    left (ask m question session) =
      ((Operation.ask m question).outline (ask m question session).value.1).effect
        session.cache := by
  cases question with
  | clone => rfl
  | phrase => rfl
  | validate =>
    have hrejection : (ask m .validate session).value.1.rejection? =
        rejectionOf (m.validate (english session).value.1).value :=
      rejection?_respond (fun _ => rfl) _
    rw [Operation.outline, Outline.effect, hrejection]
    exact left_judged (fun list => records_judged _ list m) _ session
  | entropy =>
    have hrejection : (ask m .entropy session).value.1.rejection? =
        rejectionOf (m.toEntropy (english session).value.1).value :=
      rejection?_respond (fun _ => rfl) _
    rw [Operation.outline, Outline.effect, hrejection]
    exact left_judged (fun list => records_judged _ list m) _ session
  | seed passphrase => rfl
  | equals other => rfl
  | debugText => rfl

/-- **The outline tells all that is logged.** -/
theorem left_perform (operation : Operation) (session : Session) :
    left (perform operation session) =
      (operation.outline (perform operation session).value.1).effect session.cache := by
  cases operation with
  | list =>
    apply Log.Logged.ext
    · rfl
    · show ((session.cache.obtain .english).records ++ [] ++ []) ++ [] =
        (session.cache.obtain .english).records ++ []
      simp only [List.append_nil]
  | evict =>
    apply Log.Logged.ext
    · rfl
    · show (session.cache.evict.records ++ []) ++ [] = session.cache.evict.records
      simp only [List.append_nil]
  | make source => exact left_make source session
  | ask m question => exact left_ask m question session

/-- The outlines of operations one after another, and of the responses to them. -/
def outlines (operations : List Operation) (session : Session) : List Outline :=
  operations.zipWith Operation.outline (run operations session).value.1

theorem outlines_cons (operation : Operation) (operations : List Operation) (session : Session) :
    outlines (operation :: operations) session =
      operation.outline (perform operation session).value.1 ::
        outlines operations (perform operation session).value.2 := by
  rw [outlines, run_cons]
  rfl

/-- So do the outlines of all operations, one after another. -/
theorem left_run (operations : List Operation) (session : Session) :
    left (run operations session) =
      (outlines operations session).foldlM Outline.effect session.cache := by
  induction operations generalizing session with
  | nil => rfl
  | cons operation operations ih =>
    have hrest := ih (perform operation session).value.2
    rw [run_cons, outlines_cons, List.foldlM_cons, ← left_perform]
    apply Log.Logged.ext
    · have hcache := congrArg Log.Logged.value hrest
      exact hcache
    · have hlater := congrArg Log.Logged.records hrest
      simp only [left, Log.Logged.records_map] at hlater
      simp only [left, Log.Logged.records_map, Log.Logged.records_bind, Log.Logged.records_pure,
        Log.Logged.value_map, List.append_nil]
      rw [hlater]

/-- Operations with the same outlines are logged alike. -/
theorem records_eq_of_outlines {session session' : Session}
    (hcache : session.cache = session'.cache) {operations operations' : List Operation}
    (h : outlines operations session = outlines operations' session') :
    (run operations session).records = (run operations' session').records := by
  have hleft : left (run operations session) = left (run operations' session') := by
    rw [left_run, left_run, h, hcache]
  have hrecords := congrArg Log.Logged.records hleft
  simpa only [left, Log.Logged.records_map] using hrecords

end Session

/-- Two outcomes of the same sort: lists, errors or panics, whichever they are. -/
inductive LoadResult.Alike : LoadResult → LoadResult → Prop
  | list (list other : WordList) : Alike (.list list) (.list other)
  | failure (error other : Error) : Alike (.failure error) (.failure other)
  | panic : Alike .panic .panic

namespace Cache

/-- Two caches that did alike, perhaps with different lists. -/
structure AlikeLoads (cache other : Cache) : Prop where
  held : cache.isLoaded = other.isLoaded
  loads : cache.loads = other.loads
  calls : cache.calls = other.calls

theorem alikeLoads_refl (cache : Cache) : AlikeLoads cache cache := ⟨rfl, rfl, rfl⟩

/-- Both hold nothing, or each holds a list. -/
theorem AlikeLoads.slots {cache other : Cache} (h : AlikeLoads cache other) :
    (cache.slot = none ∧ other.slot = none) ∨
      ∃ held held', cache.slot = some held ∧ other.slot = some held' := by
  have hheld : cache.slot.isSome = other.slot.isSome := h.held
  cases hslot : cache.slot with
  | none =>
    rw [hslot] at hheld
    exact .inl ⟨rfl, Option.isNone_iff_eq_none.mp (Option.isSome_eq_false_iff.mp hheld.symm)⟩
  | some held =>
    rw [hslot] at hheld
    obtain ⟨held', hother⟩ := Option.isSome_iff_exists.mp hheld.symm
    exact .inr ⟨held, held', rfl, hother⟩

section TwoLoaders

variable {loader loader' : Loader} (hloaders : ∀ call, (loader call).Alike (loader' call))
  {cache other : Cache} (h : AlikeLoads cache other)

include h

theorem AlikeLoads.evict : cache.evict.records = other.evict.records ∧
    AlikeLoads cache.evict.value other.evict.value := by
  unfold Cache.evict
  rcases h.slots with ⟨hslot, hother⟩ | ⟨held, held', hslot, hother⟩
  · rw [hslot, hother]
    exact ⟨rfl, h⟩
  · rw [hslot, hother]
    exact ⟨rfl, rfl, h.loads, h.calls⟩

include hloaders

/-- **A load is logged by its sort.**  Nothing of the list is in the record, nor of the error. -/
theorem AlikeLoads.get : (cache.get loader).records = (other.get loader').records ∧
    AlikeLoads (cache.get loader).value.2 (other.get loader').value.2 := by
  have hcalls : cache.calls + 1 = other.calls + 1 := congrArg (· + 1) h.calls
  have hbrought := hloaders cache.calls
  rcases h.slots with ⟨hslot, hother⟩ | ⟨held, held', hslot, hother⟩
  · rw [get_of_empty _ hslot, get_of_empty _ hother, load, load, ← h.calls]
    generalize loader cache.calls = brought, loader' cache.calls = brought' at hbrought
    cases hbrought with
    | list list list' =>
      have hrecord : loadRecord cache.loads list.length = loadRecord other.loads list'.length := by
        rw [h.loads, list.length_eq, list'.length_eq]
      exact ⟨congrArg (fun record => [record] ++ []) hrecord, rfl, congrArg (· + 1) h.loads,
        hcalls⟩
    | failure error error' => exact ⟨rfl, h.held, h.loads, hcalls⟩
    | panic => exact ⟨rfl, h.held, h.loads, hcalls⟩
  · rw [get_of_loaded _ hslot, get_of_loaded _ hother]
    exact ⟨rfl, h⟩

theorem AlikeLoads.perform (call : CacheCall) :
    (cache.perform loader call).records = (other.perform loader' call).records ∧
      AlikeLoads (cache.perform loader call).value.2 (other.perform loader' call).value.2 := by
  cases call with
  | get =>
    obtain ⟨hrecords, hnext⟩ := h.get hloaders
    refine ⟨?_, hnext⟩
    simp [Cache.perform, hrecords]
  | evict =>
    obtain ⟨hrecords, hnext⟩ := h.evict
    refine ⟨?_, hnext⟩
    simp [Cache.perform, hrecords]

theorem AlikeLoads.serve (request : CacheRequest) :
    (cache.serve loader request).records = (other.serve loader' request).records ∧
      AlikeLoads (cache.serve loader request).value.2 (other.serve loader' request).value.2 := by
  cases request with
  | call call =>
    obtain ⟨hrecords, hnext⟩ := h.perform hloaders call
    refine ⟨?_, hnext⟩
    simp [Cache.serve, hrecords]
  | isLoaded => exact ⟨rfl, h⟩
  | loadCount => exact ⟨rfl, h⟩

/-- So are all the loads of a cache, whatever else is asked of it. -/
theorem AlikeLoads.serveAll (requests : List CacheRequest) :
    (Cache.serveAll loader requests cache).records =
      (Cache.serveAll loader' requests other).records := by
  induction requests generalizing cache other with
  | nil => rfl
  | cons request requests ih =>
    obtain ⟨hfirst, hnext⟩ := h.serve hloaders request
    have hrest := ih hnext
    show _ ++ (_ ++ []) = _ ++ (_ ++ [])
    rw [hfirst, hrest]

end TwoLoaders

/-- A load that fails leaves one record, and the error has no part in it. -/
theorem records_get_of_failure {loader : Loader} {cache : Cache} {error : Error}
    (hslot : cache.slot = none) (hload : loader cache.calls = .failure error) :
    (cache.get loader).records = [failureRecord] := by
  rw [get_of_empty loader hslot, load, hload]
  rfl

end Cache

/-- The text of a mnemonic for debugging shows how many words there are, and nothing else. -/
theorem Mnemonic.debugText_eq_of_length {m m' : Mnemonic} (h : m.length = m'.length) :
    m.debugText = m'.debugText ∧ m.debugLines = m'.debugLines := by
  have hredaction : m.redaction = m'.redaction := by rw [redaction, redaction, h]
  constructor
  · unfold debugText
    rw [hredaction]
  · unfold debugLines
    rw [hredaction]

namespace Session

/-- **Logs and texts for debugging tell no secret.**  Two processes with generators of their own,
which do the same operations on any words, entropy and passphrases, have the same log, provided
that the same entropies have the right length and the same judgements come to the same; the time
that a derivation took is left open in it.  The text of a mnemonic for debugging tells the number
of its words and that of a seed nothing.  Nor does the log of a cache tell which lists its loader
brings or with which errors it fails: each failure leaves the same record. -/
theorem log_tells_no_secret :
    (∀ (generator generator' : ByteStream) (operations operations' : List Operation),
      outlines operations (start generator) = outlines operations' (start generator') →
        (run operations (start generator)).records =
          (run operations' (start generator')).records) ∧
    (∀ m m' : Mnemonic, m.length = m'.length →
      m.debugText = m'.debugText ∧ m.debugLines = m'.debugLines) ∧
    (∀ seed seed' : Seed, seed.debugText = seed'.debugText) ∧
    (∀ loader loader' : Loader, (∀ call, (loader call).Alike (loader' call)) →
      ∀ requests, (Cache.serveAll loader requests .empty).records =
        (Cache.serveAll loader' requests .empty).records) ∧
    ∀ (loader : Loader) (cache : Cache) (error : Error), cache.slot = none →
      loader cache.calls = .failure error →
        (cache.get loader).records.map (fun record => (record.level, record.message)) =
          [(.error, "Cryptographic operation failed: word list load " ++
            "(error_type: cryypt_mnemonic::error::MnemonicError)")] := by
  refine ⟨?_, fun _ _ => Mnemonic.debugText_eq_of_length, fun _ _ => rfl,
    fun loader loader' hloaders requests => ?_, ?_⟩
  · intro generator generator' operations operations' houtlines
    have hcache : (start generator).cache = (start generator').cache := rfl
    exact records_eq_of_outlines hcache houtlines
  · exact (Cache.alikeLoads_refl .empty).serveAll hloaders requests
  · intro loader cache error hslot hload
    rw [Cache.records_get_of_failure hslot hload]
    rfl

/-- Two processes, one with zeros for entropy and the other with ones: both draw a mnemonic of
their own, ask whether too few words are valid, forget the list, ask for the entropy of words that
are unknown, copy a mnemonic and derive a seed.  The passphrases differ, and so do all the
words. -/
theorem log_tells_no_secret_elsewhere :
    let operations : List Operation :=
      [.make (.entropy (List.replicate 32 0)), .make .generator,
        .ask ⟨["abandon", "ability"]⟩ .validate, .evict,
        .ask ⟨List.replicate 24 "Abandon"⟩ .entropy, .ask ⟨["abandon"]⟩ .clone,
        .ask ⟨["abandon", "ability"]⟩ (.seed "")]
    let operations' : List Operation :=
      [.make (.entropy (List.replicate 32 255)), .make .generator, .ask ⟨[]⟩ .validate, .evict,
        .ask ⟨List.replicate 24 "zoo!"⟩ .entropy, .ask ⟨["zoo", "zoo"]⟩ .clone,
        .ask ⟨["zoo"]⟩ (.seed "TREZOR")]
    let zeros := start (.cyclic [])
    let ones := start (.cyclic [255])
    outlines operations zeros = outlines operations' ones ∧
      (run operations zeros).records.length = 6 ∧
      (run operations zeros).records = (run operations' ones).records := by
  intro operations operations' zeros ones
  have houtlines : outlines operations zeros = outlines operations' ones := by decide +kernel
  have hlength : (run operations zeros).records.length = 6 := by decide +kernel
  exact ⟨houtlines, hlength, log_tells_no_secret.1 _ _ _ _ houtlines⟩

end Session

end SeedPhrase
