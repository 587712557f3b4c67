import GlobalMailSystem.RelaySteps

namespace GlobalMailSystem.Relay

open Publisher Transition

structure SameEvent (a b : OutboxEvent) : Prop where
  id : a.id = b.id
  aggregateID : a.aggregateID = b.aggregateID
  version : a.version = b.version
  payload : a.payload = b.payload

theorem SameEvent.refl (a : OutboxEvent) : SameEvent a a := ⟨rfl, rfl, rfl, rfl⟩

theorem SameEvent.trans {a b c : OutboxEvent} (hab : SameEvent a b) (hbc : SameEvent b c) :
    SameEvent a c :=
  ⟨hab.id.trans hbc.id, hab.aggregateID.trans hbc.aggregateID, hab.version.trans hbc.version,
    hab.payload.trans hbc.payload⟩

theorem sameEvent_lease (lockedBy : String) (lockedUntil : Time) (row : OutboxEvent) :
    SameEvent (OutboxTable.lease lockedBy lockedUntil row) row :=
  ⟨rfl, rfl, rfl, rfl⟩

theorem sameEvent_fetchRow (ids : List Int) (lockedBy : String) (lockedUntil now : Time)
    (row : OutboxEvent) : SameEvent (OutboxTable.fetchRow ids lockedBy lockedUntil now row) row := by
  unfold OutboxTable.fetchRow
  split
  · exact ⟨rfl, rfl, rfl, rfl⟩
  · exact SameEvent.refl row

theorem sameEvent_publishedRow (now : Time) (row : OutboxEvent) :
    SameEvent (OutboxTable.publishedRow now row) row :=
  ⟨rfl, rfl, rfl, rfl⟩

theorem sameEvent_failedRow (status : OutboxStatus) (nextRetryAt now : Time) (cause : String)
    (row : OutboxEvent) : SameEvent (OutboxTable.failedRow status nextRetryAt now cause row) row :=
  ⟨rfl, rfl, rfl, rfl⟩

/-- An event published with id 0 keeps that id in its payload; its row has another. -/
structure Announces (event : OutboxEvent) (changed : GlobalMailChangedEvent) : Prop where
  payload : event.payload = .encoded changed
  eventID : changed.eventID ≠ 0 → changed.eventID = event.id
  globalMailID : changed.globalMailID = event.aggregateID
  version : changed.version = event.version

theorem Announces.congr {a b : OutboxEvent} {changed : GlobalMailChangedEvent} (hab : SameEvent a b)
    (h : Announces b changed) : Announces a changed :=
  ⟨hab.payload.trans h.payload, fun hne => (h.eventID hne).trans hab.id.symm, h.globalMailID.trans hab.aggregateID.symm,
    h.version.trans hab.version.symm⟩

inductive RowOrigin (s : Store) : Action → OutboxEvent → Prop
  | kept {a : Action} {row : OutboxEvent} (h : row ∈ s.db.outbox.rows) : RowOrigin s a row
  | created {auto : AutoIncrement} {rows : Rows} :
      RowOrigin s (.create auto rows) (storedEvent auto rows.event)
  | fetched {k : Nat} {limit : Int} {lockedBy : String} {lockedUntil now : Time} {skip : Int → Bool}
      {row : OutboxEvent} (h : row ∈ s.db.outbox.rows) :
      RowOrigin s (.fetch k limit lockedBy lockedUntil now skip)
        { OutboxTable.lease lockedBy lockedUntil row with nextRetryTime := none, updateTime := now }
  | published {k : Nat} {now : Time} {row : OutboxEvent} (h : row ∈ s.db.outbox.rows) :
      RowOrigin s (.markPublished k row.id now) (OutboxTable.publishedRow now row)
  | failed {k : Nat} {status : OutboxStatus} {nextRetryAt now : Time} {cause : String}
      {row : OutboxEvent} (h : row ∈ s.db.outbox.rows) :
      RowOrigin s (.markFailed k row.id status nextRetryAt now cause)
        (OutboxTable.failedRow status nextRetryAt now cause row)

theorem act_row {s : Store} {a : Action} {row : OutboxEvent}
    (h : row ∈ (s.act a).db.outbox.rows) : RowOrigin s a row := by
  cases a with
  | create auto rows =>
    simp only [Store.act] at h
    split at h
    · exact .kept h
    · rename_i db hcreate
      change row ∈ db.outbox.rows at h
      rw [(create_rows hcreate).outbox] at h
      rcases List.mem_append.mp h with h | h
      · exact .kept h
      · rw [List.mem_singleton.mp h]
        exact .created
  | fetch k limit lockedBy lockedUntil now skip =>
    obtain ⟨old, hold, rfl⟩ := OutboxTable.mem_fetchPending.mp h
    unfold OutboxTable.fetchRow
    split
    · exact .fetched hold
    · exact .kept hold
  | write w => exact .kept h
  | accept k id event => exact .kept h
  | markPublished k id now =>
    rcases OutboxTable.mem_markPublished.mp h with ⟨hrow, _⟩ | ⟨old, hold, rfl, rfl⟩
    · exact .kept hrow
    · exact .published hold
  | markFailed k id status nextRetryAt now cause =>
    rcases OutboxTable.mem_markFailed.mp h with ⟨hrow, _⟩ | ⟨old, hold, rfl, rfl⟩
    · exact .kept hrow
    · exact .failed hold

theorem mem_act_create {s : Store} {auto : AutoIncrement} {rows : Rows} {row : OutboxEvent}
    (h : row ∈ s.db.outbox.rows) : row ∈ (s.act (.create auto rows)).db.outbox.rows := by
  simp only [Store.act]
  split
  · exact h
  · rename_i db hcreate
    change row ∈ db.outbox.rows
    rw [(create_rows hcreate).outbox]
    exact List.mem_append_left _ h

def Store.Has (s : Store) (event : OutboxEvent) : Prop :=
  ∃ row ∈ s.db.outbox.rows, SameEvent row event

theorem act_has {s : Store} {event : OutboxEvent} (h : s.Has event) (a : Action) :
    (s.act a).Has event := by
  obtain ⟨row, hrow, hsame⟩ := h
  cases a with
  | create auto rows =>
    simp only [Store.act]
    split
    · exact ⟨row, hrow, hsame⟩
    · rename_i db hcreate
      refine ⟨row, ?_, hsame⟩
      change row ∈ db.outbox.rows
      rw [(create_rows hcreate).outbox]
      exact List.mem_append_left _ hrow
  | fetch k limit lockedBy lockedUntil now skip =>
    refine ⟨_, OutboxTable.mem_fetchPending.mpr ⟨row, hrow, rfl⟩, ?_⟩
    exact (sameEvent_fetchRow _ _ _ _ _).trans hsame
  | write w => exact ⟨row, hrow, hsame⟩
  | accept k id event => exact ⟨row, hrow, hsame⟩
  | markPublished k id now =>
    by_cases he : row.id = id
    · refine ⟨_, OutboxTable.mem_markPublished.mpr (Or.inr ⟨row, hrow, he, rfl⟩), ?_⟩
      exact (sameEvent_publishedRow now row).trans hsame
    · exact ⟨row, OutboxTable.mem_markPublished.mpr (Or.inl ⟨hrow, he⟩), hsame⟩
  | markFailed k id status nextRetryAt now cause =>
    by_cases he : row.id = id
    · refine ⟨_, OutboxTable.mem_markFailed.mpr (Or.inr ⟨row, hrow, he, rfl⟩), ?_⟩
      exact (sameEvent_failedRow status nextRetryAt now cause row).trans hsame
    · exact ⟨row, OutboxTable.mem_markFailed.mpr (Or.inl ⟨hrow, he⟩), hsame⟩

/-- What no step takes back, as far as later steps of a worker rely on it. -/
structure Grows (s t : Store) : Prop where
  mails : ∀ mail ∈ s.db.mails.rows, mail ∈ t.db.mails.rows
  events : ∀ event, s.Has event → t.Has event
  cache : SharedCache.Grows s.db.mails s.cache t.cache
  log : ∀ e ∈ s.log, e ∈ t.log

theorem Grows.refl (s : Store) : Grows s s :=
  ⟨fun _ h => h, fun _ h => h, .refl _ _, fun _ h => h⟩

theorem Grows.trans {s t u : Store} (hst : Grows s t) (htu : Grows t u) : Grows s u where
  mails mail h := htu.mails mail (hst.mails mail h)
  events event h := htu.events event (hst.events event h)
  cache := hst.cache.trans htu.cache hst.mails
  log e h := htu.log e (hst.log e h)

theorem act_mails {s : Store} {a : Action} {mail : GlobalMail} (h : mail ∈ s.db.mails.rows) :
    mail ∈ (s.act a).db.mails.rows := by
  cases a with
  | create auto rows =>
    simp only [Store.act]
    split
    · exact h
    · rename_i db hcreate
      change mail ∈ db.mails.rows
      rw [(create_rows hcreate).mails]
      exact List.mem_append_left _ h
  | fetch | write | accept | markPublished | markFailed => exact h

theorem mem_act_log {s : Store} {a : Action} {e : Effect} (h : e ∈ s.log) : e ∈ (s.act a).log := by
  rw [act_log]
  exact List.mem_append_left _ h

theorem grows_act {s : Store} {a : Action} (h : SharedCache.Grows s.db.mails s.cache (s.act a).cache) :
    Grows s (s.act a) where
  mails _ hm := act_mails hm
  events _ he := act_has he a
  cache := h
  log _ he := mem_act_log he

theorem grows_of_cache {s : Store} {a : Action} (h : (s.act a).cache = s.cache) : Grows s (s.act a) :=
  grows_act (h ▸ .refl _ _)

theorem grows_create (s : Store) (auto : AutoIncrement) (rows : Rows) : Grows s (s.act (.create auto rows)) := by
  apply grows_of_cache
  simp only [Store.act]
  split <;> rfl

end GlobalMailSystem.Relay
