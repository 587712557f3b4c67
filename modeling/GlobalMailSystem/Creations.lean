import GlobalMailSystem.PublishedAbsorbing
import GlobalMailSystem.PublisherSteps

namespace GlobalMailSystem.Relay

open Publisher Transition

structure Creation where
  call : Nat
  auto : AutoIncrement
  rows : Rows

def creation (w : World) : Label → List Creation
  | .publishCreate p auto outcome =>
    match w.publishers p with
    | .creating rows =>
      if outcome.executed && (createGlobalMailWithOutbox w.store.db auto rows).isSome then [⟨p, auto, rows⟩]
      else []
    | _ => []
  | _ => []

def announcement (row : OutboxEvent) : Int × Int × Int × EventPayload :=
  (row.id, row.aggregateID, row.version, row.payload)

structure Accounts (created : List Creation) (db : Database) : Prop where
  mails : db.mails.rows = created.map fun c => storedMail c.auto c.rows.mail
  conditions : db.conditions.rows = created.flatMap fun c => storedConditions c.auto c.rows.mail
  outbox : db.outbox.rows.map announcement = created.map fun c => announcement (storedEvent c.auto c.rows.event)
  idempotency : db.idempotency.rows = created.filterMap fun c => c.rows.record

section Tables

theorem accounts_create {created : List Creation} {db db' : Database} {p : Nat} {auto : AutoIncrement} {rows : Rows}
    (h : Accounts created db) (hcreate : createGlobalMailWithOutbox db auto rows = some db') :
    Accounts (created ++ [⟨p, auto, rows⟩]) db' := by
  have hadded := create_rows hcreate
  refine ⟨?_, ?_, ?_, ?_⟩
  · simp [hadded.mails, h.mails]
  · simp [hadded.conditions, h.conditions]
  · simp [hadded.outbox, h.outbox]
  · rw [hadded.idempotency, h.idempotency, List.filterMap_append]
    cases hr : rows.record <;> simp [hr]

theorem announcement_updateWhere (t : OutboxTable) (id : Int) (f : OutboxEvent → OutboxEvent)
    (hf : ∀ row, (f row).id = row.id) (hsame : ∀ row, announcement (f row) = announcement row) :
    (t.updateWhere id f hf).rows.map announcement = t.rows.map announcement := by
  rw [Table.updateWhere, Table.mapRows, List.map_map]
  apply List.map_congr_left
  intro row _
  simp only [Function.comp_apply]
  split
  · exact hsame row
  · rfl

theorem accounts_act {created : List Creation} {s : Store} (h : Accounts created s.db) {a : Action}
    (ha : ∀ auto rows, a ≠ .create auto rows) : Accounts created (s.act a).db := by
  cases a with
  | create auto rows => exact absurd rfl (ha auto rows)
  | fetch k limit lockedBy lockedUntil now skip =>
    refine ⟨h.mails, h.conditions, ?_, h.idempotency⟩
    simp only [Store.act, OutboxTable.fetchPending, Table.mapRows, List.map_map]
    rw [← h.outbox]
    apply List.map_congr_left
    intro row _
    simp only [Function.comp_apply, OutboxTable.fetchRow]
    split <;> rfl
  | write w | accept k id event => exact ⟨h.mails, h.conditions, h.outbox, h.idempotency⟩
  | markPublished k id now =>
    have hrows := announcement_updateWhere s.db.outbox id _ (OutboxTable.publishedRow_id now)
      fun _ => rfl
    exact ⟨h.mails, h.conditions, hrows.trans h.outbox, h.idempotency⟩
  | markFailed k id status nextRetryAt now cause =>
    have hrows := announcement_updateWhere s.db.outbox id _
      (OutboxTable.failedRow_id status nextRetryAt now cause) fun _ => rfl
    exact ⟨h.mails, h.conditions, hrows.trans h.outbox, h.idempotency⟩

end Tables

section Runs

variable {sha256 : PublishPayload → String} {config : Nat → Config}

theorem accounts_createResult {created : List Creation} {w : World} {p : Nat} {auto : AutoIncrement} {rows : Rows}
    (h : Accounts created w.store.db) (hp : w.publishers p = .creating rows) (outcome : Outcome) :
    Accounts (created ++ creation w (.publishCreate p auto outcome))
      (createResult w.store auto rows outcome).1.db := by
  cases hcreate : createGlobalMailWithOutbox w.store.db auto rows with
  | none =>
    have hstore : (createResult w.store auto rows outcome).1 = w.store := by
      cases outcome <;> simp [createResult, Store.act, hcreate]
    simpa [creation, hp, hcreate, hstore] using h
  | some db =>
    cases outcome with
    | failed err => simpa [creation, hp, Outcome.executed, createResult] using h
    | ok | lost =>
      simp only [creation, hp, hcreate, Outcome.executed, createResult, Store.act]
      exact accounts_create h hcreate

theorem accounts_step {created : List Creation} {w w' : World} {l : Label}
    (hw : Accounts created w.store.db) (h : step sha256 config w l = some w') :
    Accounts (created ++ creation w l) w'.store.db := by
  cases hl : l with
  | publishCreate p auto outcome =>
    subst hl
    cases hp : w.publishers p with
    | idle | returned => simp [step, hp] at h
    | creating rows =>
      simp only [step, hp, Option.some.injEq] at h
      rw [← h]
      exact accounts_createResult hw hp outcome
  | publishBegin | publishCrash | fetch | work | crash =>
    simp only [creation, List.append_nil]
    rcases step_store h with hs | ⟨a, hi, hs⟩
    · rw [hs]
      exact hw
    · rw [hs]
      apply accounts_act hw
      rintro auto rows rfl
      cases hi
      cases hl

variable (sha256 config) in
def creations (ls : List Label) : List Creation := trace (step sha256 config) creation init ls

theorem accounts_run {ls : List Label} {w : World} (h : run (step sha256 config) init ls = some w) :
    Accounts (creations sha256 config ls) w.store.db := by
  apply run_trace (P := fun created (u : World) => Accounts created u.store.db) ?_ ⟨rfl, rfl, rfl, rfl⟩ h
  intro as u l v _ hu hl
  exact accounts_step hu hl

theorem creations_snoc {as : List Label} {u v : World} {l : Label}
    (h : run (step sha256 config) init as = some u) (hl : step sha256 config u l = some v) :
    creations sha256 config (as ++ [l]) = creations sha256 config as ++ creation u l := by
  rw [creations, trace_append h]
  simp [trace, hl, creations]

theorem mem_creation {w : World} {l : Label} {c : Creation} (h : c ∈ creation w l) :
    w.publishers c.call = .creating c.rows ∧ ∃ outcome, l = .publishCreate c.call c.auto outcome := by
  cases l with
  | publishCreate q auto outcome =>
    simp only [creation] at h
    split at h
    · rename_i drafted hq
      split_ifs at h
      · cases List.mem_singleton.mp h
        exact ⟨hq, outcome, rfl⟩
      · cases h
    · cases h
  | publishBegin | publishCrash | fetch | work | crash => cases h

theorem creations_drafted {ls : List Label} {w : World}
    (h : run (step sha256 config) init ls = some w) {c : Creation} (hc : c ∈ creations sha256 config ls) :
    ∃ cmd now newMailID eventID, Began ls c.call cmd ∧
      c.rows = publishRows sha256 (defaultAction cmd) now newMailID eventID := by
  refine run_history (P := fun as _ => ∀ c ∈ creations sha256 config as,
    ∃ cmd now newMailID eventID, Began as c.call cmd ∧
      c.rows = publishRows sha256 (defaultAction cmd) now newMailID eventID)
    ?_ (fun c hc => by cases hc) h c hc
  intro as u l v hrun hdrafted hl c hc
  rw [creations_snoc hrun hl] at hc
  have hfound : ∃ cmd now newMailID eventID, Began as c.call cmd ∧
      c.rows = publishRows sha256 (defaultAction cmd) now newMailID eventID := by
    rcases List.mem_append.mp hc with hc | hc
    · exact hdrafted c hc
    · exact drafted_run hrun (mem_creation hc).1
  obtain ⟨cmd, now, newMailID, eventID, hbegan, hrows⟩ := hfound
  exact ⟨cmd, now, newMailID, eventID, hbegan.mono, hrows⟩

theorem creations_wellFormed {ls : List Label} {w : World}
    (h : run (step sha256 config) init ls = some w) {c : Creation}
    (hc : c ∈ creations sha256 config ls) : c.rows.WellFormed := by
  obtain ⟨cmd, now, newMailID, eventID, _, hrows⟩ := creations_drafted h hc
  rw [hrows]
  exact publishRows_wellFormed sha256 _ now newMailID eventID

end Runs

section Conditions

/-- Every row of `global_mail_condition` is of a stored mail or, for a mail published without an id, of none; and
what a mail row carries is what is found under its id. -/
structure ConditionsRead (db : Database) : Prop where
  owner : ∀ condition ∈ db.conditions.rows, condition.mailID = 0 ∨ ∃ mail ∈ db.mails.rows, mail.id = condition.mailID
  keyed : ∀ mail ∈ db.mails.rows, mail.id ≠ 0
  read : ∀ mail ∈ db.mails.rows,
    mail.conditions = db.conditions.rows.filter fun condition => condition.mailID = mail.id

theorem conditionsRead_create {db db' : Database} {auto : AutoIncrement} {rows : Rows} (h : ConditionsRead db)
    (hcreate : createGlobalMailWithOutbox db auto rows = some db') : ConditionsRead db' := by
  have hadded := create_rows hcreate
  have hmail {mail : GlobalMail} (hm : mail ∈ db'.mails.rows) :
      mail ∈ db.mails.rows ∨ mail = storedMail auto rows.mail := by
    rw [hadded.mails, List.mem_append, List.mem_singleton] at hm
    exact hm
  refine ⟨fun condition hc => ?_, fun mail hm => ?_, fun mail hm => ?_⟩
  · rw [hadded.mails]
    rw [hadded.conditions] at hc
    rcases List.mem_append.mp hc with hold | hnew
    · refine (h.owner condition hold).imp_right ?_
      rintro ⟨mail, hm, hid⟩
      exact ⟨mail, List.mem_append_left _ hm, hid⟩
    · rw [mailID_storedConditions hnew]
      by_cases hzero : rows.mail.id = 0
      · exact Or.inl hzero
      · refine Or.inr ⟨_, List.mem_append_right _ (List.mem_singleton.mpr rfl), ?_⟩
        rw [storedMail_of_ne hzero]
  · rcases hmail hm with hold | rfl
    · exact h.keyed mail hold
    · exact storedMail_id_ne_zero auto rows.mail
  · rw [hadded.conditions, List.filter_append]
    rcases hmail hm with hold | rfl
    · -- the new conditions are not of an older mail
      have hnone : (storedConditions auto rows.mail).filter (fun condition => condition.mailID = mail.id) = [] := by
        refine List.filter_eq_nil_iff.mpr fun condition hc he => ?_
        have hid : rows.mail.id = mail.id := (mailID_storedConditions hc).symm.trans (by simpa using he)
        have hne : rows.mail.id ≠ 0 := hid ▸ h.keyed mail hold
        apply hadded.fresh mail hold
        rw [storedMail_of_ne hne, hid]
      rw [hnone, List.append_nil]
      exact h.read mail hold
    · -- and no older condition is of the new mail
      have hnone : db.conditions.rows.filter
          (fun condition => condition.mailID = (storedMail auto rows.mail).id) = [] := by
        refine List.filter_eq_nil_iff.mpr fun condition hc he => ?_
        have hid : condition.mailID = (storedMail auto rows.mail).id := by simpa using he
        rcases h.owner condition hc with hzero | ⟨mail, hm, howner⟩
        · exact storedMail_id_ne_zero auto rows.mail (hid.symm.trans hzero)
        · exact hadded.fresh mail hm (howner.trans hid)
      rw [hnone]
      rfl

theorem conditionsRead_run {sha256 : PublishPayload → String} {config : Nat → Config} {ls : List Label} {w : World}
    (h : run (step sha256 config) init ls = some w) : ConditionsRead w.store.db := by
  apply run_invariant (I := fun u : World => ConditionsRead u.store.db) ?_ ?_ h
  · intro u l v hu hl
    rcases step_store hl with hs | ⟨a, -, hs⟩
    · rw [hs]
      exact hu
    · rw [hs]
      cases a with
      | create auto rows =>
        simp only [Store.act]
        split
        · exact hu
        · exact conditionsRead_create hu ‹_›
      | fetch | write | accept | markPublished | markFailed => exact ⟨hu.owner, hu.keyed, hu.read⟩
  · exact ⟨fun _ hc => by simp [init, Database.empty, Table.empty] at hc,
      fun _ hm => by simp [init, Database.empty, Table.empty] at hm,
      fun _ hm => by simp [init, Database.empty, Table.empty] at hm⟩

end Conditions

def Corresponds (mail : GlobalMail) (row : OutboxEvent) : Prop :=
  row.aggregateID = mail.id ∧ row.version = mail.version ∧
    ∃ changed, row.payload.unmarshal = some changed ∧ changed.eventID = row.id ∧
      changed.globalMailID = mail.id ∧ changed.version = mail.version

section Correspondence

theorem Accounts.mail_row {created : List Creation} {db : Database} (h : Accounts created db)
    {mail : GlobalMail} (hmail : mail ∈ db.mails.rows) :
    ∃ c ∈ created, storedMail c.auto c.rows.mail = mail := by
  rw [h.mails] at hmail
  exact List.mem_map.mp hmail

theorem Accounts.outbox_row {created : List Creation} {db : Database} (h : Accounts created db)
    {row : OutboxEvent} (hrow : row ∈ db.outbox.rows) :
    ∃ c ∈ created, announcement (storedEvent c.auto c.rows.event) = announcement row := by
  have hmem : announcement row ∈ db.outbox.rows.map announcement := List.mem_map_of_mem hrow
  rw [h.outbox] at hmem
  exact List.mem_map.mp hmem

theorem Accounts.event_row {created : List Creation} {db : Database} (h : Accounts created db)
    {c : Creation} (hc : c ∈ created) :
    ∃ row ∈ db.outbox.rows, announcement row = announcement (storedEvent c.auto c.rows.event) := by
  have hmem : announcement (storedEvent c.auto c.rows.event) ∈
      created.map fun c => announcement (storedEvent c.auto c.rows.event) := List.mem_map_of_mem hc
  rw [← h.outbox] at hmem
  exact List.mem_map.mp hmem

theorem Accounts.mail_unique {created : List Creation} {db : Database} (h : Accounts created db)
    {c d : Creation} (hc : c ∈ created) (hd : d ∈ created)
    (hid : (storedMail c.auto c.rows.mail).id = (storedMail d.auto d.rows.mail).id) : c = d := by
  have hnodup := db.mails.unique
  rw [h.mails, List.map_map] at hnodup
  exact List.inj_on_of_nodup_map hnodup hc hd hid

theorem announcement_inj {a b : OutboxEvent} (h : announcement a = announcement b) : SameEvent a b := by
  simp only [announcement, Prod.mk.injEq] at h
  exact ⟨h.1, h.2.1, h.2.2.1, h.2.2.2⟩

/-- Neither the mail nor the event came without an id. -/
def Creation.Keyed (c : Creation) : Prop := c.rows.mail.id ≠ 0 ∧ c.rows.event.id ≠ 0

instance (c : Creation) : Decidable c.Keyed := inferInstanceAs (Decidable (_ ∧ _))

theorem corresponds_of_keyed {c : Creation} (h : c.rows.WellFormed) (hkeyed : c.Keyed) {row : OutboxEvent}
    (hrow : SameEvent row (storedEvent c.auto c.rows.event)) :
    Corresponds (storedMail c.auto c.rows.mail) row := by
  obtain ⟨changed, hpayload, heventID, hmailID, hversion⟩ := h.payload
  have hevent : row.id = c.rows.event.id := hrow.id.trans (assigned_of_ne hkeyed.2)
  rw [storedMail_of_ne hkeyed.1]
  refine ⟨hrow.aggregateID.trans h.aggregate, hrow.version.trans h.version, changed, ?_,
    heventID.trans hevent.symm, hmailID, hversion⟩
  rw [hrow.payload]
  change EventPayload.unmarshal c.rows.event.payload = _
  rw [hpayload]
  rfl

theorem keyed_of_corresponds {c d : Creation} (hd : d.rows.WellFormed)
    (hcorr : ∃ row, SameEvent row (storedEvent d.auto d.rows.event) ∧
      Corresponds (storedMail c.auto c.rows.mail) row) :
    (storedMail d.auto d.rows.mail).id = (storedMail c.auto c.rows.mail).id ∧ d.Keyed := by
  -- conversely, the row of a mail without an id announces mail 0, and that of an event without an id event 0
  obtain ⟨row, hrow, haggregate, -, changed, hpayload, heventID, -⟩ := hcorr
  have hmail : d.rows.mail.id = (storedMail c.auto c.rows.mail).id :=
    hd.aggregate.symm.trans (hrow.aggregateID.symm.trans haggregate)
  have hne : d.rows.mail.id ≠ 0 := hmail ▸ storedMail_id_ne_zero c.auto c.rows.mail
  obtain ⟨drafted, hdrafted, hid, -⟩ := hd.payload
  have hchanged : changed = drafted := by
    have hrowPayload : row.payload = .encoded drafted := hrow.payload.trans hdrafted
    rw [hrowPayload] at hpayload
    exact (Option.some.inj hpayload).symm
  refine ⟨by rw [storedMail_of_ne hne]; exact hmail, hne, fun hzero => ?_⟩
  have hevent : changed.eventID = 0 := by rw [hchanged, hid, hzero]
  have hrowID : row.id ≠ 0 := by
    rw [hrow.id]
    exact assigned_ne_zero d.auto.event_pos
  exact hrowID (heventID.symm.trans hevent)

end Correspondence

section Runs

variable {sha256 : PublishPayload → String} {config : Nat → Config} {ls : List Label} {w : World}
  (h : run (step sha256 config) init ls = some w)
include h

theorem outbox_corresponds (hkeyed : ∀ c ∈ creations sha256 config ls, c.Keyed) :
    ∀ row ∈ w.store.db.outbox.rows, ∃ mail ∈ w.store.db.mails.rows, Corresponds mail row := by
  have hacc := accounts_run h
  intro row hrow
  obtain ⟨c, hc, he⟩ := hacc.outbox_row hrow
  refine ⟨storedMail c.auto c.rows.mail, ?_, corresponds_of_keyed (creations_wellFormed h hc) (hkeyed c hc)
    (announcement_inj he.symm)⟩
  rw [hacc.mails]
  exact List.mem_map_of_mem hc

theorem mail_corresponds (hkeyed : ∀ c ∈ creations sha256 config ls, c.Keyed) :
    ∀ mail ∈ w.store.db.mails.rows, ∃ row ∈ w.store.db.outbox.rows, Corresponds mail row ∧
      ∀ other ∈ w.store.db.outbox.rows, other.aggregateID = mail.id → other = row := by
  have hacc := accounts_run h
  intro mail hmail
  obtain ⟨c, hc, rfl⟩ := hacc.mail_row hmail
  obtain ⟨row, hrow, he⟩ := hacc.event_row hc
  refine ⟨row, hrow, corresponds_of_keyed (creations_wellFormed h hc) (hkeyed c hc) (announcement_inj he), ?_⟩
  intro other hother hid
  obtain ⟨d, hd, hde⟩ := hacc.outbox_row hother
  have hmailID : (storedMail d.auto d.rows.mail).id = (storedMail c.auto c.rows.mail).id := by
    rw [← hid, storedMail_of_ne (hkeyed d hd).1]
    exact (creations_wellFormed h hd).aggregate.symm.trans (announcement_inj hde).aggregateID
  have hdc : d = c := hacc.mail_unique hd hc hmailID
  apply w.store.db.outbox.row_unique hother hrow
  exact (announcement_inj (hde.symm.trans (hdc ▸ he.symm))).id

theorem keyed_of_mails
    (hmails : ∀ mail ∈ w.store.db.mails.rows, ∃ row ∈ w.store.db.outbox.rows, Corresponds mail row) :
    ∀ c ∈ creations sha256 config ls, c.Keyed := by
  have hacc := accounts_run h
  intro c hc
  have hmail : storedMail c.auto c.rows.mail ∈ w.store.db.mails.rows := by
    rw [hacc.mails]
    exact List.mem_map_of_mem hc
  obtain ⟨row, hrow, hcorr⟩ := hmails _ hmail
  obtain ⟨d, hd, he⟩ := hacc.outbox_row hrow
  obtain ⟨hid, hkeyed⟩ := keyed_of_corresponds (creations_wellFormed h hd) ⟨row, announcement_inj he.symm, hcorr⟩
  rw [← hacc.mail_unique hd hc hid]
  exact hkeyed

end Runs

theorem mails_and_events_correspond (sha256 : PublishPayload → String) (config : Nat → Config)
    (ls : List Label) (w : World) (h : run (step sha256 config) init ls = some w) :
    (((∀ mail ∈ w.store.db.mails.rows, ∃ row ∈ w.store.db.outbox.rows, Corresponds mail row ∧
        ∀ other ∈ w.store.db.outbox.rows, other.aggregateID = mail.id → other = row) ∧
      (∀ row ∈ w.store.db.outbox.rows, ∃ mail ∈ w.store.db.mails.rows, Corresponds mail row)) ↔
      ∀ c ∈ creations sha256 config ls, c.Keyed) ∧
    (∀ k event rest, w.workers k = .loop (event :: rest) → event.payload.unmarshal ≠ none) ∧
    ((∀ c ∈ creations sha256 config ls, c.Keyed) → ∀ k event changed rest,
      w.workers k = .loadMail event changed rest → w.store.db.mails.find? event.aggregateID ≠ none) := by
  have hinv := inv_run h
  refine ⟨⟨?_, fun hkeyed => ⟨mail_corresponds h hkeyed, outbox_corresponds h hkeyed⟩⟩, ?_, ?_⟩
  · rintro ⟨hmails, -⟩
    apply keyed_of_mails h
    intro mail hmail
    obtain ⟨row, hrow, hcorr, -⟩ := hmails mail hmail
    exact ⟨row, hrow, hcorr⟩
  · intro k event rest hk
    have hpc := hinv.workers k
    rw [hk] at hpc
    obtain ⟨_, changed, hchanged⟩ := hpc event List.mem_cons_self
    simp [hchanged.payload, EventPayload.unmarshal]
  · intro hkeyed k event changed rest hk hnone
    have hpc := hinv.workers k
    rw [hk] at hpc
    obtain ⟨row, hrow, hsame⟩ := hpc.1
    obtain ⟨mail, hmail, hcorr⟩ := outbox_corresponds h hkeyed row hrow
    exact Table.find?_eq_none.mp hnone mail hmail (hcorr.1.symm.trans hsame.aggregateID)

theorem takeover_corresponds :
    run (step (fun _ => "") twoWorkers) init takeover = some afterTakeover ∧
      ∃ mail ∈ afterTakeover.store.db.mails.rows, ∃ row ∈ afterTakeover.store.db.outbox.rows,
        Corresponds mail row := by
  have htakeover : run (step (fun _ => "") twoWorkers) init takeover = some afterTakeover :=
    (Option.some_get _).symm
  have hkeyed : ∀ c ∈ creations (fun _ => "") twoWorkers takeover, c.Keyed := by decide
  have hmail : afterTakeover.store.db.mails.rows ≠ [] := by decide
  obtain ⟨mail, hmem⟩ := List.exists_mem_of_ne_nil _ hmail
  obtain ⟨row, hrow, hcorr, _⟩ := ((mails_and_events_correspond _ _ _ _ htakeover).1.mpr hkeyed).1 mail hmem
  exact ⟨htakeover, mail, hmem, row, hrow, hcorr⟩

def zeroMail : List Label :=
  [.publishBegin 0 ⟨noticeMail, [], "", ""⟩ 0 0 7 none, .publishCreate 0 .first .ok,
    .fetch 0 10 0 0 (fun _ => false) .ok, .work 0 0 .ok]

def afterZeroMail : World := (run (step (fun _ => "") twoWorkers) init zeroMail).get (by decide)

/-- Its row gets the id 1, its event speaks of mail 0, and the relay does not find that one. -/
theorem zeroMail_not_found :
    run (step (fun _ => "") twoWorkers) init zeroMail = some afterZeroMail ∧
      (∃ mail ∈ afterZeroMail.store.db.mails.rows, mail.id = 1) ∧
      (∀ row ∈ afterZeroMail.store.db.outbox.rows, row.aggregateID = 0) ∧
      ∃ event changed, afterZeroMail.workers 0 = .loadMail event changed [] ∧
        afterZeroMail.store.db.mails.find? event.aggregateID = none :=
  ⟨(Option.some_get _).symm, by decide, by decide, _, _, rfl, by decide⟩

end GlobalMailSystem.Relay
