import SeedPhrase.Proofs.EnglishMnemonic
import SeedPhrase.Text.Written

/-!
# Forgetting the list changes nothing

The English list may be forgotten between any two operations.  The next operation that needs it
reads it anew from the text that is part of the library, and that text is always the same list.  So
two processes that do the same, of which one forgets its list now and then, give the same answers
and log the same, except that the forgetful one logs its forgetting and its loading again.

* `Loader.ofText`, `Cache.get_english` — what is loaded is always the English list;
* `Cache.kept` — a log without what is said of forgetting;
* `Session.Follows` — a session that forgot its list some times, and one that never did;
* `Session.Unmoved` — work that comes to the same in both;
* `Session.Follows.run` — runs of operations come to the same;
* `Session.eviction_transparent` — what that means for a process from its beginning on.
-/

namespace SeedPhrase

section Embedded

/-- A loader that reads a text, the same one every time. -/
def Loader.ofText (text : String) : Loader := fun _ =>
  match WordList.ofText text with
  | .ok list => .list list
  | .error fault => .failure fault.toError

theorem Loader.ofText_of_ok {text : String} {list : WordList} (h : WordList.ofText text = .ok list) :
    ofText text = fun _ => .list list := by
  funext call
  rw [ofText, h]

/-- The lines of the text are the words. -/
theorem WordList.English.lines_text : Text.lines text = words := by
  apply Text.lines_join
  intro line hline
  have hword := isWord_of_fault?_eq_none fault?_words line hline
  exact ⟨hword.notMem (by decide), fun hreturn =>
    hword.notMem (by decide) (List.mem_of_getLast? hreturn)⟩

/-- The text breaks no rule for word lists. -/
theorem WordList.ofText_english : ofText English.text = .ok english := by
  rw [ofText, English.lines_text, ofWords_of_fault?_eq_none English.fault?_words]
  rfl

/-- **Loading the English list cannot fail.**  Asking a cache that reads the text is obtaining the
list. -/
theorem Cache.get_english (cache : Cache) :
    cache.get (.ofText WordList.English.text) =
      (fun p => (Reply.list p.1, p.2)) <$> cache.obtain .english := by
  rw [Loader.ofText_of_ok WordList.ofText_english, get_of_constant]

end Embedded

namespace Cache

/-- Whether a record tells that a list was forgotten, or that one was loaded that is not the
first. -/
def tellsOfEviction (record : Log.Record) : Bool :=
  record = evictRecord || record = loadRecord 1 WordList.size

/-- The records that do not tell of evictions. -/
def kept (records : List Log.Record) : List Log.Record :=
  records.filter fun record => !tellsOfEviction record

@[simp] theorem kept_append (earlier later : List Log.Record) :
    kept (earlier ++ later) = kept earlier ++ kept later := List.filter_append ..

theorem kept_eq_self {records : List Log.Record}
    (h : ∀ record ∈ records, ∀ cache change entries,
      record.event ≠ .cacheChanged cache change entries) : kept records = records := by
  apply List.filter_eq_self.mpr
  intro record hrecord
  have hevict : record ≠ evictRecord := by
    rintro rfl
    exact h _ hrecord _ _ _ rfl
  have hload : record ≠ loadRecord 1 WordList.size := by
    rintro rfl
    exact h _ hrecord _ _ _ rfl
  simp [tellsOfEviction, hevict, hload]

theorem kept_evictRecord : kept [evictRecord] = [] := rfl

/-- The first load is told of. -/
theorem kept_loadRecord_zero (list : WordList) :
    kept [loadRecord 0 list.length] = [loadRecord 0 list.length] := by
  rw [list.length_eq]
  decide

/-- Every load that is not the first leaves the same record. -/
theorem kept_loadRecord {n : Nat} (h : n ≠ 0) (list : WordList) :
    kept [loadRecord n list.length] = [] := by
  have hsame : loadRecord n list.length = loadRecord 1 WordList.size := by
    rw [list.length_eq, loadRecord, loadRecord, if_neg h, if_neg (by decide)]
  rw [hsame]
  rfl

/-- A cache that forgot its list some times, and one that never forgot it. -/
structure Follows (forgetful steady : Cache) : Prop where
  begun : forgetful.loads = 0 ↔ steady.loads = 0
  counted : forgetful.slot ≠ none → forgetful.loads ≠ 0
  held : steady.slot = none ↔ steady.loads = 0

/-- **The first load is the same.**  A list that only the forgetful cache has to load is one that
was loaded before. -/
theorem Follows.obtain {forgetful steady : Cache} (h : Follows forgetful steady)
    (list : WordList) :
    kept (forgetful.obtain list).records = (steady.obtain list).records ∧
      Follows (forgetful.obtain list).value.2 (steady.obtain list).value.2 := by
  obtain ⟨hbegun, hcounted, hheld⟩ := h
  unfold Cache.obtain
  cases hslot : forgetful.slot with
  | some loaded =>
    have hloads : steady.loads ≠ 0 := fun hnone => hcounted (by simp [hslot]) (hbegun.mpr hnone)
    cases hsteady : steady.slot with
    | some other => exact ⟨rfl, hbegun, hcounted, hheld⟩
    | none => exact absurd (hheld.mp hsteady) hloads
  | none =>
    cases hsteady : steady.slot with
    | some other =>
      have hloads : steady.loads ≠ 0 := fun hnone => by
        cases hsteady.symm.trans (hheld.mpr hnone)
      have hbefore : forgetful.loads ≠ 0 := fun hnone => hloads (hbegun.mp hnone)
      -- Only the forgetful cache loads, and it has loaded before.
      refine ⟨kept_loadRecord hbefore list, ?_, fun _ => Nat.succ_ne_zero _, hheld⟩
      exact iff_of_false (Nat.succ_ne_zero _) hloads
    | none =>
      have hloads : steady.loads = 0 := hheld.mp hsteady
      have hbefore : forgetful.loads = 0 := hbegun.mpr hloads
      -- Both load for the first time.
      refine ⟨?_, ?_, fun _ => Nat.succ_ne_zero _, ?_⟩
      · simp only [accept, hloads, hbefore]
        exact kept_loadRecord_zero list
      · exact iff_of_false (Nat.succ_ne_zero _) (Nat.succ_ne_zero _)
      · exact iff_of_false (Option.some_ne_none _) (Nat.succ_ne_zero _)

/-- Forgetting is told of by itself, and the loads before it stay counted. -/
theorem Follows.evict {forgetful steady : Cache} (h : Follows forgetful steady) :
    kept forgetful.evict.records = [] ∧ Follows forgetful.evict.value steady := by
  unfold Cache.evict
  cases forgetful.slot with
  | some loaded => exact ⟨kept_evictRecord, h.begun, fun hslot => absurd rfl hslot, h.held⟩
  | none => exact ⟨rfl, h⟩

end Cache

/-- Whether an operation lets the cache forget its list. -/
def Operation.isEvict : Operation → Bool
  | .evict => true
  | _ => false

theorem Operation.eq_evict {operation : Operation} (h : operation.isEvict = true) :
    operation = .evict := by
  cases operation with
  | evict => rfl
  | list => cases h
  | make source => cases h
  | ask m question => cases h

/-- A response without the number of the load that a list came from. -/
def Response.content : Response → Response
  | .list loaded => .list ⟨0, loaded.list⟩
  | response => response

namespace Session

/-- A session that forgot its list some times, and one that never did. -/
structure Follows (forgetful steady : Session) : Prop where
  generator : forgetful.generator = steady.generator
  cache : Cache.Follows forgetful.cache steady.cache
  forgetfulHolds : HoldsEnglish forgetful
  steadyHolds : HoldsEnglish steady

theorem follows_start (generator : ByteStream) : Follows (start generator) (start generator) := by
  refine ⟨rfl, ⟨Iff.rfl, ?_, iff_of_true rfl rfl⟩, holdsEnglish_start generator,
    holdsEnglish_start generator⟩
  intro hslot
  exact absurd rfl hslot

/-- Work that comes to the same and is logged alike, whether the list was forgotten or not. -/
def Unmoved {α : Type} (work : Work α) : Prop :=
  ∀ forgetful steady : Session, Follows forgetful steady →
    (work forgetful).value.1 = (work steady).value.1 ∧
      Cache.kept (work forgetful).records = (work steady).records ∧
      Follows (work forgetful).value.2 (work steady).value.2

theorem Unmoved.pure {α : Type} (value : α) : Unmoved (pure value) := by
  intro forgetful steady h
  exact ⟨rfl, rfl, h⟩

theorem Unmoved.bind {α β : Type} {work : Work α} {next : α → Work β} (hwork : Unmoved work)
    (hnext : ∀ value, Unmoved (next value)) : Unmoved (work >>= next) := by
  intro forgetful steady h
  obtain ⟨hvalue, hrecords, hfollows⟩ := hwork _ _ h
  obtain ⟨hlast, hlater, hafter⟩ := hnext (work steady).value.1 _ _ hfollows
  have hforgetful : (work >>= next) forgetful =
      (work forgetful >>= fun p => next p.1 p.2) := rfl
  have hsteady : (work >>= next) steady = (work steady >>= fun p => next p.1 p.2) := rfl
  rw [hforgetful, hsteady]
  simp only [Log.Logged.value_bind, Log.Logged.records_bind, Cache.kept_append, hvalue]
  refine ⟨hlast, ?_, hafter⟩
  rw [hrecords, hlater]

/-- Records that do not speak of a cache are logged alike. -/
theorem Unmoved.logged {α : Type} {value : Log.Logged α}
    (h : ∀ record ∈ value.records, ∀ cache change entries,
      record.event ≠ .cacheChanged cache change entries) : Unmoved (logged value) := by
  intro forgetful steady hfollows
  refine ⟨rfl, ?_, hfollows⟩
  have hrecords : ∀ session, (Session.logged value session).records = value.records :=
    fun session => List.append_nil _
  rw [hrecords, hrecords, Cache.kept_eq_self h]

/-- Both sessions obtain the English list, and have it from then on. -/
theorem Follows.loadEnglish {forgetful steady : Session} (h : Follows forgetful steady) :
    (Session.loadEnglish forgetful).value.1.list = .english ∧
      (Session.loadEnglish steady).value.1.list = .english ∧
      Cache.kept (Session.loadEnglish forgetful).records =
        (Session.loadEnglish steady).records ∧
      Follows (Session.loadEnglish forgetful).value.2 (Session.loadEnglish steady).value.2 := by
  obtain ⟨hrecords, hcache⟩ := h.cache.obtain .english
  refine ⟨Cache.list_obtain h.forgetfulHolds, Cache.list_obtain h.steadyHolds, ?_,
    h.generator, hcache, keeps_loadEnglish _ h.forgetfulHolds, keeps_loadEnglish _ h.steadyHolds⟩
  simp only [Session.loadEnglish, Log.Logged.records_bind, Log.Logged.records_pure,
    List.append_nil, hrecords]

theorem unmoved_english : Unmoved english := by
  intro forgetful steady h
  obtain ⟨hforgetful, hsteady, hrecords, hfollows⟩ := h.loadEnglish
  refine ⟨hforgetful.trans hsteady.symm, ?_, hfollows⟩
  have hlogged : ∀ session, (english session).records = (loadEnglish session).records :=
    fun session => List.append_nil _
  rw [hlogged, hlogged, hrecords]

/-- What is drawn from the generator of the process is the same, and so is the rest of it. -/
theorem Unmoved.drawn (draw : ByteStream → Except Error Mnemonic × ByteStream) :
    Unmoved do
      let session ← get
      let (made, generator) := draw session.generator
      set { session with generator := generator }
      return respond .mnemonic made := by
  intro forgetful steady h
  refine ⟨?_, rfl, ?_, h.cache, h.forgetfulHolds, h.steadyHolds⟩
  · show respond .mnemonic (draw forgetful.generator).1 =
      respond .mnemonic (draw steady.generator).1
    rw [h.generator]
  · show (draw forgetful.generator).2 = (draw steady.generator).2
    rw [h.generator]

theorem unmoved_make (source : Source) : Unmoved (make source) := by
  cases source with
  | entropy bytes =>
    simp only [make]
    cases Entropy.ofBytes? bytes with
    | none => exact .pure _
    | some entropy => exact unmoved_english.bind fun list => .pure _
  | phrase text => exact .pure _
  | words words => exact .pure _
  | stream stream => exact unmoved_english.bind fun list => .pure _
  | generator => exact unmoved_english.bind fun list => .drawn (Mnemonic.draw list)

/-- A judgement on a mnemonic is logged, if at all, as a rejection or as an inner failure. -/
theorem event_of_mem_validate {list : WordList} {words : List String} {record : Log.Record}
    (h : record ∈ (Validation.validate list words).records) (cache change : String)
    (entries : Option Nat) : record.event ≠ .cacheChanged cache change entries := by
  cases hcheck : Validation.check list words with
  | ok payload =>
    rw [Validation.records_validate_of_ok hcheck] at h
    cases h
  | error error =>
    rw [Validation.records_validate_of_error hcheck, List.mem_singleton] at h
    rw [h, Validation.failureRecord]
    cases error.badMnemonic? with
    | some bad => exact Log.Event.noConfusion
    | none => exact Log.Event.noConfusion

theorem unmoved_ask (m : Mnemonic) (question : Question) : Unmoved (ask m question) := by
  cases question with
  | clone => exact .pure _
  | phrase => exact .pure _
  | validate =>
    refine unmoved_english.bind fun list => Unmoved.bind (.logged ?_) fun answer => .pure _
    intro record hrecord
    exact event_of_mem_validate (by simpa [Mnemonic.validate, Mnemonic.payload] using hrecord)
  | entropy =>
    refine unmoved_english.bind fun list => Unmoved.bind (.logged ?_) fun answer => .pure _
    intro record hrecord
    exact event_of_mem_validate (by simpa [Mnemonic.toEntropy, Mnemonic.payload] using hrecord)
  | seed passphrase =>
    refine Unmoved.bind (.logged ?_) fun seed => .pure _
    intro record hrecord cache change entries
    rw [List.mem_singleton.mp hrecord]
    exact Log.Event.noConfusion
  | equals other => exact .pure _
  | debugText => exact .pure _

/-- What two sessions come to, one of them forgetful, when both do the same operation. -/
theorem Follows.perform {forgetful steady : Session} (h : Follows forgetful steady)
    {operation : Operation} (hkept : operation.isEvict = false) :
    (Session.perform operation forgetful).value.1.content =
        (Session.perform operation steady).value.1.content ∧
      Cache.kept (Session.perform operation forgetful).records =
        (Session.perform operation steady).records ∧
      Follows (Session.perform operation forgetful).value.2
        (Session.perform operation steady).value.2 := by
  cases operation with
  | list =>
    obtain ⟨hforgetful, hsteady, hrecords, hfollows⟩ := h.loadEnglish
    have hlogged : ∀ session, (Session.perform .list session).records =
        (Session.loadEnglish session).records := fun session => List.append_nil _
    refine ⟨?_, ?_, hfollows⟩
    · show Response.list ⟨0, (Session.loadEnglish forgetful).value.1.list⟩ =
        .list ⟨0, (Session.loadEnglish steady).value.1.list⟩
      rw [hforgetful, hsteady]
    · rw [hlogged, hlogged, hrecords]
  | evict => cases hkept
  | make source =>
    obtain ⟨hvalue, hrecords, hfollows⟩ := unmoved_make source _ _ h
    exact ⟨congrArg Response.content hvalue, hrecords, hfollows⟩
  | ask m question =>
    obtain ⟨hvalue, hrecords, hfollows⟩ := unmoved_ask m question _ _ h
    exact ⟨congrArg Response.content hvalue, hrecords, hfollows⟩

/-- Forgetting the list, on the one side only. -/
theorem Follows.evict {forgetful steady : Session} (h : Follows forgetful steady) :
    Cache.kept (Session.perform .evict forgetful).records = [] ∧
      Follows (Session.perform .evict forgetful).value.2 steady := by
  obtain ⟨hrecords, hcache⟩ := h.cache.evict
  refine ⟨?_, h.generator, hcache, keeps_perform .evict _ h.forgetfulHolds, h.steadyHolds⟩
  simp only [Session.perform, Log.Logged.records_bind, Log.Logged.records_pure, List.append_nil,
    hrecords]

/-- The operations that do not forget the list. -/
def steadyOf (operations : List Operation) : List Operation :=
  operations.filter fun operation => !operation.isEvict

/-- The responses to the operations that do not forget the list. -/
def answersTo (operations : List Operation) (responses : List Response) : List Response :=
  ((operations.zip responses).filter fun entry => !entry.1.isEvict).map Prod.snd

theorem run_cons (operation : Operation) (operations : List Operation) (session : Session) :
    run (operation :: operations) session = do
      let (response, next) ← perform operation session
      let (responses, last) ← run operations next
      return (response :: responses, last) := by
  rw [run, List.mapM_cons]
  rfl

theorem length_run (operations : List Operation) (session : Session) :
    (run operations session).value.1.length = operations.length := by
  induction operations generalizing session with
  | nil => rfl
  | cons operation operations ih =>
    rw [run_cons]
    exact congrArg (· + 1) (ih _)

/-- **Two sessions that do the same give the same answers,** whatever the one of them forgets in
between. -/
theorem Follows.run {forgetful steady : Session} (h : Follows forgetful steady)
    (operations : List Operation) :
    (answersTo operations (Session.run operations forgetful).value.1).map Response.content =
        (Session.run (steadyOf operations) steady).value.1.map Response.content ∧
      Cache.kept (Session.run operations forgetful).records =
        (Session.run (steadyOf operations) steady).records ∧
      Follows (Session.run operations forgetful).value.2
        (Session.run (steadyOf operations) steady).value.2 := by
  induction operations generalizing forgetful steady with
  | nil => exact ⟨rfl, rfl, h⟩
  | cons operation operations ih =>
    cases hevict : operation.isEvict with
    | true =>
      obtain rfl := Operation.eq_evict hevict
      obtain ⟨hrecords, hfollows⟩ := h.evict
      obtain ⟨hanswers, hlater, hlast⟩ := ih hfollows
      have hsteady : steadyOf (.evict :: operations) = steadyOf operations := rfl
      rw [run_cons, hsteady]
      refine ⟨hanswers, ?_, hlast⟩
      simp only [Log.Logged.records_bind, Log.Logged.records_pure, List.append_nil,
        Cache.kept_append, hrecords, List.nil_append]
      exact hlater
    | false =>
      obtain ⟨hanswer, hrecords, hfollows⟩ := h.perform hevict
      obtain ⟨hanswers, hlater, hlast⟩ := ih hfollows
      have hsteady : steadyOf (operation :: operations) = operation :: steadyOf operations := by
        simp [steadyOf, hevict]
      rw [run_cons, hsteady, run_cons]
      refine ⟨?_, ?_, hlast⟩
      · have hhead : ∀ response responses,
            answersTo (operation :: operations) (response :: responses) =
              response :: answersTo operations responses := by
          intro response responses
          simp [answersTo, hevict]
        simp only [Log.Logged.value_bind, Log.Logged.value_pure, hhead, List.map_cons]
        rw [hanswer, hanswers]
      · simp only [Log.Logged.records_bind, Log.Logged.records_pure, List.append_nil,
          Cache.kept_append]
        rw [hrecords, hlater]

/-- Whoever asks for the list is given the English one. -/
theorem content_of_list {session : Session} (h : HoldsEnglish session)
    (operations : List Operation) :
    ∀ entry ∈ operations.zip (run operations session).value.1, entry.1 = .list →
      entry.2.content = .list ⟨0, .english⟩ := by
  induction operations generalizing session with
  | nil =>
    intro entry hentry
    cases hentry
  | cons operation operations ih =>
    rw [run_cons]
    intro entry hentry hlist
    rcases List.mem_cons.mp hentry with rfl | hlater
    · obtain rfl : operation = .list := hlist
      have hobtained : (Session.loadEnglish session).value.1.list = .english :=
        Cache.list_obtain h
      show Response.list ⟨0, (Session.loadEnglish session).value.1.list⟩ = _
      rw [hobtained]
    · exact ih (keeps_perform operation session h) entry hlater hlist

/-- **Eviction is transparent.**  Take any operations of a process, some of which let the cache
forget the English list, and the same operations without these.  Every operation is answered, the
answers are the same but for the number of the load that a list came from, the log is the same once
the records of forgetting and of loading again are left out, and the generator ends up in the same
place.  Asking for the list always brings it, since its text can always be read. -/
theorem eviction_transparent (generator : ByteStream) (operations : List Operation) :
    let forgetful := run operations (start generator)
    let steady := run (steadyOf operations) (start generator)
    (forgetful.value.1.length = operations.length ∧
      (answersTo operations forgetful.value.1).map Response.content =
        steady.value.1.map Response.content ∧
      Cache.kept forgetful.records = steady.records ∧
      forgetful.value.2.generator = steady.value.2.generator) ∧
    (∀ entry ∈ operations.zip forgetful.value.1, entry.1 = .list →
      entry.2.content = .list ⟨0, .english⟩) ∧
    ∀ cache : Cache, cache.get (.ofText WordList.English.text) =
      (fun p => (Reply.list p.1, p.2)) <$> cache.obtain .english := by
  intro forgetful steady
  obtain ⟨hanswers, hrecords, hfollows⟩ := (follows_start generator).run operations
  exact ⟨⟨length_run operations _, hanswers, hrecords, hfollows.generator⟩,
    content_of_list (holdsEnglish_start generator) operations, Cache.get_english⟩

end Session

end SeedPhrase
