import GlobalMailSystem.RelayGrowth

namespace GlobalMailSystem.Relay

open Publisher Transition

def Queued (s : Store) (events : List OutboxEvent) : Prop :=
  ∀ event ∈ events, s.Has event ∧ ∃ changed, Announces event changed

structure TaskOk (s : Store) (t : Task) : Prop where
  mail : t.mail ∈ s.db.mails.rows
  aggregate : t.mail.id = t.event.aggregateID
  announced : Announces t.event t.changed
  stored : s.Has t.event
  rest : Queued s t.rest

def PCOk (s : Store) : WorkerPC → Prop
  | .idle => True
  | .loop events => Queued s events
  | .loadMail event changed rest => s.Has event ∧ Announces event changed ∧ Queued s rest
  | .setMail t => TaskOk s t
  | .addIndexes t => TaskOk s t ∧ s.cache.Detailed t.mail
  | .advance t => TaskOk s t ∧ s.cache.Detailed t.mail ∧ s.cache.Indexed t.mail
  | .publish t =>
    TaskOk s t ∧ s.cache.Detailed t.mail ∧ s.cache.Indexed t.mail ∧ t.event.version ≤ s.cache.version
  | .markPublished t =>
    TaskOk s t ∧ s.cache.Detailed t.mail ∧ s.cache.Indexed t.mail ∧
      t.event.version ≤ s.cache.version ∧ ∃ k, .accepted k t.event.id t.changed ∈ s.log
  | .readRetryCount _ _ _ rest => Queued s rest
  | .markFailed _ status _ _ _ rest => status ≠ .published ∧ Queued s rest

theorem Queued.mono {s t : Store} {events : List OutboxEvent} (hg : Grows s t) (h : Queued s events) :
    Queued t events :=
  fun event he => ⟨hg.events event (h event he).1, (h event he).2⟩

theorem TaskOk.mono {s s' : Store} {t : Task} (hg : Grows s s') (h : TaskOk s t) : TaskOk s' t where
  mail := hg.mails _ h.mail
  aggregate := h.aggregate
  announced := h.announced
  stored := hg.events _ h.stored
  rest := h.rest.mono hg

theorem PCOk.mono {s s' : Store} (hg : Grows s s') {pc : WorkerPC} (h : PCOk s pc) : PCOk s' pc := by
  cases pc with
  | idle => trivial
  | loop events => exact Queued.mono hg h
  | loadMail event changed rest =>
    obtain ⟨hhas, hann, hrest⟩ := h
    exact ⟨hg.events _ hhas, hann, hrest.mono hg⟩
  | setMail t => exact TaskOk.mono hg h
  | addIndexes t =>
    obtain ⟨ht, hd⟩ := h
    exact ⟨ht.mono hg, hg.cache.details _ ht.mail hd⟩
  | advance t =>
    obtain ⟨ht, hd, hi⟩ := h
    exact ⟨ht.mono hg, hg.cache.details _ ht.mail hd, hg.cache.indexes _ ht.mail hi⟩
  | publish t =>
    obtain ⟨ht, hd, hi, hv⟩ := h
    exact ⟨ht.mono hg, hg.cache.details _ ht.mail hd, hg.cache.indexes _ ht.mail hi, hv.trans hg.cache.version⟩
  | markPublished t =>
    obtain ⟨ht, hd, hi, hv, k, hlog⟩ := h
    exact ⟨ht.mono hg, hg.cache.details _ ht.mail hd, hg.cache.indexes _ ht.mail hi, hv.trans hg.cache.version, k,
      hg.log _ hlog⟩
  | readRetryCount event cause nextRetryAt rest => exact Queued.mono hg h
  | markFailed event status nextRetryAt started cause rest => exact ⟨h.1, Queued.mono hg h.2⟩

theorem attempt_ok {s s' : Store} {a : Action} {outcome : Outcome} {next pc' : WorkerPC}
    {fail : String → WorkerPC} (h : some (attempt s a outcome next fail) = some (s', pc'))
    (hg : Grows s (s.act a)) (hnext : PCOk (s.act a) next) (hfail : ∀ err, PCOk s (fail err)) :
    Grows s s' ∧ PCOk s' pc' := by
  cases outcome with
  | ok => cases h; exact ⟨hg, hnext⟩
  | failed err => cases h; exact ⟨Grows.refl s, hfail err⟩
  | lost err => cases h; exact ⟨hg, (hfail err).mono hg⟩

theorem workStep_ok {c : Config} {k : Nat} {s s' : Store} {now : Time} {outcome : Outcome}
    {pc pc' : WorkerPC} (hpc : PCOk s pc) (h : workStep c k s now outcome pc = some (s', pc')) :
    Grows s s' ∧ PCOk s' pc' := by
  cases pc with
  | idle => cases h
  | loop events =>
    cases events with
    | nil => cases h; exact ⟨Grows.refl s, trivial⟩
    | cons event rest =>
      have hevent := hpc event List.mem_cons_self
      have hrest : Queued s rest := fun e he => hpc e (List.mem_cons_of_mem _ he)
      obtain ⟨hhas, changed, hann⟩ := hevent
      simp only [workStep, hann.payload, EventPayload.unmarshal] at h
      cases h
      exact ⟨Grows.refl s, hhas, hann, hrest⟩
  | loadMail event changed rest =>
    obtain ⟨hhas, hann, hrest⟩ := hpc
    simp only [workStep] at h
    split at h
    · split at h
      · cases h; exact ⟨Grows.refl s, hrest⟩
      · rename_i mail hfind
        obtain ⟨hmail, hid⟩ := Table.find?_eq_some.mp hfind
        cases h
        exact ⟨Grows.refl s, hmail, hid, hann, hhas, hrest⟩
    · cases h; exact ⟨Grows.refl s, hrest⟩
    · cases h; exact ⟨Grows.refl s, hrest⟩
  | setMail t =>
    have hg : Grows s (s.act (.write (.setGlobalMail t.mail now))) :=
      grows_act (SharedCache.grows_setGlobalMail hpc.mail now)
    exact attempt_ok h hg ⟨hpc.mono hg, SharedCache.detailed_setGlobalMail _ _ _⟩ fun _ => hpc.rest
  | addIndexes t =>
    obtain ⟨ht, hd⟩ := hpc
    have hg : Grows s (s.act (.write (.addGlobalMailToIndexes t.mail))) :=
      grows_act (SharedCache.grows_addGlobalMailToIndexes ht.mail)
    have hi := SharedCache.indexed_addGlobalMailToIndexes s.cache t.mail
    exact attempt_ok h hg ⟨ht.mono hg, hg.cache.details _ ht.mail hd, hi⟩ fun _ => ht.rest
  | advance t =>
    obtain ⟨ht, hd, hi⟩ := hpc
    have hg : Grows s (s.act (.write (.advanceGlobalMailVersion t.event.version))) :=
      grows_act (SharedCache.grows_advance t.event.version)
    have hv := (SharedCache.le_advance s.cache t.event.version).2
    exact attempt_ok h hg ⟨ht.mono hg, hd, hi, hv⟩ fun _ => ht.rest
  | publish t =>
    obtain ⟨ht, hd, hi, hv⟩ := hpc
    have hg : Grows s (s.act (.accept k t.event.id t.changed)) := grows_of_cache rfl
    have hlog : .accepted k t.event.id t.changed ∈ (s.act (.accept k t.event.id t.changed)).log :=
      List.mem_append_right _ (List.mem_singleton.mpr rfl)
    exact attempt_ok h hg ⟨ht.mono hg, hd, hi, hv, k, hlog⟩ fun _ => ht.rest
  | markPublished t =>
    have hg : Grows s (s.act (.markPublished k t.event.id now)) := grows_of_cache rfl
    exact attempt_ok h hg (hpc.1.mono hg).rest fun _ => trivial
  | readRetryCount event cause nextRetryAt rest =>
    simp only [workStep] at h
    split at h
    · split at h
      · cases h; exact ⟨Grows.refl s, hpc⟩
      · cases h; exact ⟨Grows.refl s, OutboxTable.failedStatus_not_published _ _, hpc⟩
    · cases h; exact ⟨Grows.refl s, hpc⟩
    · cases h; exact ⟨Grows.refl s, hpc⟩
  | markFailed event status nextRetryAt started cause rest =>
    have hg : Grows s (s.act (.markFailed k event.id status nextRetryAt started cause)) :=
      grows_of_cache rfl
    exact attempt_ok h hg (hpc.2.mono hg) fun _ => hpc.2

theorem fetchResult_ok {s : Store} {c : Config} {k : Nat} {limit : Int} {workerNow now : Time}
    {skip : Int → Bool} (hann : ∀ row ∈ s.db.outbox.rows, ∃ changed, Announces row changed)
    (outcome : Outcome) :
    Grows s (fetchResult s c k limit workerNow now skip outcome).1 ∧
      PCOk (fetchResult s c k limit workerNow now skip outcome).1
        (fetchResult s c k limit workerNow now skip outcome).2 := by
  have hg : Grows s (s.act (.fetch k limit c.workerID (workerNow + c.lockTTL) now skip)) :=
    grows_of_cache rfl
  cases outcome with
  | ok =>
    refine ⟨hg, Queued.mono hg fun event he => ?_⟩
    obtain ⟨row, hrow, rfl⟩ := List.mem_map.mp he
    have hmem := (OutboxTable.mem_pendingRows hrow).1
    have hsame := sameEvent_lease c.workerID (workerNow + c.lockTTL) row
    obtain ⟨changed, hchanged⟩ := hann row hmem
    exact ⟨⟨row, hmem, rfl, rfl, rfl, rfl⟩, changed, hchanged.congr hsame⟩
  | failed err => exact ⟨Grows.refl s, trivial⟩
  | lost err => exact ⟨hg, trivial⟩

structure Inv (w : World) : Prop where
  announced : ∀ row ∈ w.store.db.outbox.rows, ∃ changed, Announces row changed
  workers : ∀ k, PCOk w.store (w.workers k)
  publishers : ∀ p rows, w.publishers p = .creating rows → rows.WellFormed

theorem wellFormed_announced {rows : Rows} (h : rows.WellFormed) (auto : AutoIncrement) :
    ∃ changed, Announces (storedEvent auto rows.event) changed := by
  obtain ⟨changed, hp, hid, hmail, hv⟩ := h.payload
  refine ⟨changed, hp, fun hne => ?_, hmail.trans h.aggregate.symm, hv.trans h.version.symm⟩
  exact hid.trans (assigned_of_ne (hid ▸ hne)).symm

theorem announced_step {sha256 : PublishPayload → String} {config : Nat → Config} {w w' : World}
    {l : Label} (hw : Inv w) (h : step sha256 config w l = some w') :
    ∀ row ∈ w'.store.db.outbox.rows, ∃ changed, Announces row changed := by
  rcases step_store h with hs | ⟨a, hi, hs⟩
  · rw [hs]
    exact hw.announced
  · intro row hrow
    rw [hs] at hrow
    have same {old : OutboxEvent} (hold : old ∈ w.store.db.outbox.rows) (hsame : SameEvent row old) :
        ∃ changed, Announces row changed := by
      obtain ⟨changed, hchanged⟩ := hw.announced old hold
      exact ⟨changed, hchanged.congr hsame⟩
    cases act_row hrow with
    | kept hold => exact hw.announced row hold
    | created =>
      cases hi with
      | create hp => exact wellFormed_announced (hw.publishers _ _ hp) _
    | fetched hold => exact same hold ⟨rfl, rfl, rfl, rfl⟩
    | published hold => exact same hold (sameEvent_publishedRow _ _)
    | failed hold => exact same hold (sameEvent_failedRow _ _ _ _ _)

section Steps

variable {sha256 : PublishPayload → String} {config : Nat → Config}

theorem publisherStart_creating {db : Database} {cmd : PublishCommand} {now : Time}
    {newMailID eventID : Int} {failure : Option String} {rows : Rows}
    (h : publisherStart sha256 db cmd now newMailID eventID failure = .creating rows) :
    rows = publishRows sha256 (defaultAction cmd) now newMailID eventID := by
  cases failure with
  | some err => cases h
  | none =>
    simp only [publisherStart] at h
    split at h
    · cases h
    · cases h
    · rename_i hprepare
      cases h
      exact prepare_create hprepare

theorem publisherStart_wellFormed {db : Database} {cmd : PublishCommand} {now : Time}
    {newMailID eventID : Int} {failure : Option String} {rows : Rows}
    (h : publisherStart sha256 db cmd now newMailID eventID failure = .creating rows) :
    rows.WellFormed := by
  rw [publisherStart_creating h]
  exact publishRows_wellFormed _ _ _ _ _

theorem createResult_grows (s : Store) (auto : AutoIncrement) (rows : Rows) (outcome : Outcome) :
    Grows s (createResult s auto rows outcome).1 := by
  rcases createResult_store s auto rows outcome with h | h
  · rw [h]
    exact Grows.refl s
  · rw [h]
    exact grows_create s auto rows

theorem createResult_returned (s : Store) (auto : AutoIncrement) (rows rows' : Rows) (outcome : Outcome) :
    (createResult s auto rows outcome).2 ≠ .creating rows' := by
  intro h
  cases outcome with
  | ok =>
    simp only [createResult] at h
    split at h <;> cases h
  | failed err => cases h
  | lost err => cases h

theorem setPublisher_ok {w : World} {p : Nat} {r : Store × PublisherPC} (hw : Inv w)
    (hann : ∀ row ∈ r.1.db.outbox.rows, ∃ changed, Announces row changed)
    (hg : Grows w.store r.1) (hr : ∀ rows, r.2 = .creating rows → rows.WellFormed) :
    Inv (w.setPublisher p r) ∧ Grows w.store (w.setPublisher p r).store := by
  refine ⟨⟨hann, fun k => (hw.workers k).mono hg, fun q rows hq => ?_⟩, hg⟩
  simp only [World.setPublisher, Function.update_apply] at hq
  split_ifs at hq
  · exact hr rows hq
  · exact hw.publishers q rows hq

theorem setWorker_ok {w : World} {k : Nat} {r : Store × WorkerPC} (hw : Inv w)
    (hann : ∀ row ∈ r.1.db.outbox.rows, ∃ changed, Announces row changed)
    (hr : Grows w.store r.1 ∧ PCOk r.1 r.2) :
    Inv (w.setWorker k r) ∧ Grows w.store (w.setWorker k r).store := by
  refine ⟨⟨hann, fun j => ?_, hw.publishers⟩, hr.1⟩
  simp only [World.setWorker, Function.update_apply]
  split_ifs
  · exact hr.2
  · exact (hw.workers j).mono hr.1

theorem inv_step {w w' : World} {l : Label} (hw : Inv w) (h : step sha256 config w l = some w') :
    Inv w' ∧ Grows w.store w'.store := by
  have hann := announced_step hw h
  cases step_inv h with
  | publishBegin =>
    exact setPublisher_ok hw hann (Grows.refl _) fun rows => publisherStart_wellFormed
  | publishCreate =>
    apply setPublisher_ok hw hann (createResult_grows _ _ _ _)
    intro rows hrows
    exact absurd hrows (createResult_returned _ _ _ _ _)
  | publishCrash =>
    apply setPublisher_ok hw hann (Grows.refl _)
    intro rows hrows
    cases hrows
  | fetch => exact setWorker_ok hw hann (fetchResult_ok hw.announced _)
  | @work k _ _ _ _ hwork => exact setWorker_ok hw hann (workStep_ok (hw.workers k) hwork)
  | crash => exact setWorker_ok hw hann ⟨Grows.refl _, trivial⟩

theorem inv_init : Inv init where
  announced row h := by cases h
  workers k := trivial
  publishers p rows h := by cases h

theorem inv_run {w : World} {ls : List Label} (h : run (step sha256 config) init ls = some w) :
    Inv w :=
  run_invariant (fun _ _ _ hs hstep => (inv_step hs hstep).1) inv_init h

theorem grows_run {w w' : World} {ls : List Label} (hw : Inv w)
    (h : run (step sha256 config) w ls = some w') : Grows w.store w'.store := by
  apply run_relation (R := fun s t : World => Grows s.store t.store) ?_ ?_ ?_ hw h
  · exact fun s => Grows.refl s.store
  · exact fun s t u hst htu => hst.trans htu
  · exact fun s l t hs hstep => inv_step hs hstep

end Steps

end GlobalMailSystem.Relay
