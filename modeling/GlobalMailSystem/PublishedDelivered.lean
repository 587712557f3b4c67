import GlobalMailSystem.PublishedAbsorbing

namespace GlobalMailSystem.Relay

open Publisher Transition

structure Delivered (s : Store) (event : OutboxEvent) (mail : GlobalMail)
    (changed : GlobalMailChangedEvent) : Prop where
  stored : mail ∈ s.db.mails.rows
  aggregate : mail.id = event.aggregateID
  detailed : s.cache.Detailed mail
  indexed : s.cache.Indexed mail
  version : event.version ≤ s.cache.version
  announces : Announces event changed
  accepted : ∃ k, .accepted k event.id changed ∈ s.log

section Runs

variable {sha256 : PublishPayload → String} {config : Nat → Config}

theorem delivered_of_markPublished {s : Store} {t : Task} (h : PCOk s (.markPublished t)) :
    Delivered s t.event t.mail t.changed := by
  obtain ⟨ht, hd, hi, hv, haccepted⟩ := h
  exact ⟨ht.mail, ht.aggregate, hd, hi, hv, ht.announced, haccepted⟩

theorem Delivered.congr {s : Store} {a b : OutboxEvent} {mail : GlobalMail}
    {changed : GlobalMailChangedEvent} (hab : SameEvent a b) (h : Delivered s b mail changed) :
    Delivered s a mail changed where
  stored := h.stored
  aggregate := h.aggregate.trans hab.aggregateID.symm
  detailed := h.detailed
  indexed := h.indexed
  version := hab.version ▸ h.version
  announces := h.announces.congr hab
  accepted := hab.id ▸ h.accepted

theorem act_publishes {s : Store} {a : Action} {id : Int} (hbefore : ¬ s.Published id)
    (hafter : (s.act a).Published id)
    (hcreate : ∀ auto rows, a = .create auto rows → rows.event.status = .pending)
    (hfail : ∀ k event status nextRetryAt now cause,
      a = .markFailed k event status nextRetryAt now cause → status ≠ .published) :
    ∃ k now, a = .markPublished k id now := by
  obtain ⟨row, hrow, rfl, hstatus⟩ := hafter
  cases act_row hrow with
  | kept h => exact absurd ⟨row, h, rfl, hstatus⟩ hbefore
  | @created auto rows =>
    have hpending : (storedEvent auto rows.event).status = .pending := hcreate _ _ rfl
    rw [hpending] at hstatus
    cases hstatus
  | fetched h => cases hstatus
  | published h => exact ⟨_, _, rfl⟩
  | failed h => exact absurd hstatus (hfail _ _ _ _ _ _ rfl)

theorem issues_statuses {w : World} (hw : Inv w) {l : Label} {a : Action} (hi : Issues config w l a) :
    (∀ auto rows, a = .create auto rows → rows.event.status = .pending) ∧
      ∀ k event status nextRetryAt now cause,
        a = .markFailed k event status nextRetryAt now cause → status ≠ .published := by
  constructor
  · rintro auto rows rfl
    cases hi with
    | create hp => exact (hw.publishers _ _ hp).pending
  · rintro k event status nextRetryAt now cause rfl
    cases hi with
    | markFailed hk hex => exact (hk ▸ hw.workers k : PCOk w.store (.markFailed ..)).1

theorem publishing_step {w w' : World} {l : Label} {id : Int} (hw : Inv w)
    (h : step sha256 config w l = some w') (hbefore : ¬ w.store.Published id)
    (hafter : w'.store.Published id) :
    ∃ k now outcome t, l = .work k now outcome ∧ w.workers k = .markPublished t ∧ t.event.id = id := by
  rcases step_store h with hs | ⟨a, hi, hs⟩
  · exact absurd (hs ▸ hafter) hbefore
  · obtain ⟨hcreate, hfail⟩ := issues_statuses hw hi
    rw [hs] at hafter
    obtain ⟨k, now, rfl⟩ := act_publishes hbefore hafter hcreate hfail
    cases hi with
    | markPublished hk => exact ⟨k, _, _, _, rfl, hk, rfl⟩

variable (sha256 config)

def BecomesPublished (ls : List Label) (id : Int) (s t : World) : Prop :=
  ∃ as l bs, ls = as ++ l :: bs ∧ run (step sha256 config) init as = some s ∧
    step sha256 config s l = some t ∧ ¬ s.store.Published id ∧ t.store.Published id

end Runs

theorem published_delivered (sha256 : PublishPayload → String) (config : Nat → Config)
    (ls : List Label) (w : World) (row : OutboxEvent)
    (h : run (step sha256 config) init ls = some w) (hrow : row ∈ w.store.db.outbox.rows)
    (hpublished : row.status = .published) :
    (∃ s t, BecomesPublished sha256 config ls row.id s t) ∧
      ∀ s t, BecomesPublished sha256 config ls row.id s t →
        ∃ mail changed, Delivered s.store row mail changed := by
  constructor
  · have hinit : ¬ init.store.Published row.id := by
      rintro ⟨r, hr, _⟩
      cases hr
    obtain ⟨as, l, bs, s, t, he, hs, hl, hbefore, hafter⟩ :=
      run_crossing (P := fun w : World => w.store.Published row.id) hinit
        ⟨row, hrow, rfl, hpublished⟩ h
    exact ⟨s, t, as, l, bs, he, hs, hl, hbefore, hafter⟩
  · rintro s t ⟨as, l, bs, rfl, hs, hl, hbefore, hafter⟩
    have hinv := inv_run hs
    obtain ⟨k, _, _, task, _, hk, hid⟩ := publishing_step hinv hl hbefore hafter
    have hpc : PCOk s.store (.markPublished task) := hk ▸ hinv.workers k
    obtain ⟨s', hs', hrest⟩ := run_append.mp h
    obtain rfl : s = s' := Option.some.inj (hs.symm.trans hs')
    -- the row of the final state is the one the worker was holding
    obtain ⟨held, hheld, hsame⟩ := (grows_run hinv hrest).events _ hpc.1.stored
    obtain rfl : held = row := w.store.db.outbox.row_unique hheld hrow (hsame.id.trans hid)
    exact ⟨_, _, (delivered_of_markPublished hpc).congr hsame⟩

theorem takeover_delivered :
    ∃ row ∈ afterTakeover.store.db.outbox.rows, row.status = .published ∧
      (∃ s t, BecomesPublished (fun _ => "") twoWorkers takeover row.id s t) ∧
      ∀ s t, BecomesPublished (fun _ => "") twoWorkers takeover row.id s t →
        ∃ mail changed, Delivered s.store row mail changed := by
  have hpublished : ∃ row ∈ afterTakeover.store.db.outbox.rows, row.status = .published := by decide
  obtain ⟨row, hrow, hstatus⟩ := hpublished
  exact ⟨row, hrow, hstatus, published_delivered (fun _ => "") twoWorkers takeover afterTakeover row
    (Option.some_get _).symm hrow hstatus⟩

end GlobalMailSystem.Relay
