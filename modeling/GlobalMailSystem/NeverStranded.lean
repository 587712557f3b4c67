import GlobalMailSystem.PublishedAbsorbing
import GlobalMailSystem.PublisherSteps

namespace GlobalMailSystem.Relay

open Publisher Transition

def NotStranded (maxRetries : Int) (row : OutboxEvent) : Prop :=
  row.status = .pending ∨ (row.status = .processing ∧ row.lockedUntil ≠ none) ∨
    row.status = .published ∨ (row.status = .failed ∧ maxRetries ≤ row.retryCount)

def Effect.countsFailure (id : Int) : Effect → Bool
  | .markedFailed _ eventID => eventID = id
  | _ => false

def failures (log : List Effect) (id : Int) : Nat := log.countP (Effect.countsFailure id)

def Action.fails (id : Int) : Action → Prop
  | .markFailed _ eventID _ _ _ _ => eventID = id
  | _ => False

theorem failures_append (as bs : List Effect) (id : Int) :
    failures (as ++ bs) id = failures as id + failures bs id :=
  List.countP_append

theorem failures_act_same {s : Store} {a : Action} {id : Int} (ha : ¬ a.fails id) :
    failures (s.act a).log id = failures s.log id := by
  rw [act_log, failures_append, Nat.add_eq_left]
  apply List.countP_eq_zero.mpr
  intro e he
  cases a with
  | create => cases he
  | fetch k limit lockedBy lockedUntil now skip =>
    obtain ⟨event, _, rfl⟩ := List.mem_map.mp he
    exact Bool.false_ne_true
  | write | accept | markPublished =>
    rw [List.mem_singleton.mp he]
    exact Bool.false_ne_true
  | markFailed k eventID status nextRetryAt now cause =>
    rw [List.mem_singleton.mp he]
    intro h
    have hid : eventID = id := of_decide_eq_true h
    exact ha hid

theorem failures_markFailed (s : Store) (k : Nat) (id : Int) (status : OutboxStatus)
    (nextRetryAt now : Time) (cause : String) :
    failures (s.act (.markFailed k id status nextRetryAt now cause)).log id =
      failures s.log id + 1 := by
  rw [act_log, failures_append]
  simp [failures, Action.effects, Effect.countsFailure]

structure FailsRow (maxRetries : Int) (s : Store) (id : Int) (status : OutboxStatus) : Prop where
  row : ∃ row ∈ s.db.outbox.rows, row.id = id
  status : status = .pending ∨
    status = .failed ∧ ∀ row ∈ s.db.outbox.rows, row.id = id → maxRetries ≤ row.retryCount + 1

structure RetryInv (maxRetries : Int) (s : Store) : Prop where
  rows : ∀ row ∈ s.db.outbox.rows, NotStranded maxRetries row
  counted : ∀ row ∈ s.db.outbox.rows, row.retryCount = failures s.log row.id
  unknown : ∀ id, (∀ row ∈ s.db.outbox.rows, row.id ≠ id) → failures s.log id = 0

theorem act_ids {s : Store} {a : Action} {row : OutboxEvent} (h : row ∈ s.db.outbox.rows) :
    ∃ row' ∈ (s.act a).db.outbox.rows, row'.id = row.id := by
  obtain ⟨row', hrow', hsame⟩ := act_has ⟨row, h, SameEvent.refl row⟩ a
  exact ⟨row', hrow', hsame.id⟩

theorem created_row {s : Store} {auto : AutoIncrement} {rows : Rows} {old : OutboxEvent}
    (h : storedEvent auto rows.event ∈ (s.act (.create auto rows)).db.outbox.rows)
    (hold : old ∈ s.db.outbox.rows) (hid : old.id = (storedEvent auto rows.event).id) :
    old = storedEvent auto rows.event :=
  (s.act (.create auto rows)).db.outbox.row_unique (mem_act_create hold) h hid

theorem retryCount_le_act {s : Store} {a : Action} {row old : OutboxEvent}
    (hrow : row ∈ (s.act a).db.outbox.rows) (hold : old ∈ s.db.outbox.rows) (hid : old.id = row.id) :
    old.retryCount ≤ row.retryCount := by
  have same {other : OutboxEvent} (hother : other ∈ s.db.outbox.rows) (he : old.id = other.id) :
      old.retryCount = other.retryCount := by
    rw [s.db.outbox.row_unique hold hother he]
  cases act_row hrow with
  | kept hother => exact (same hother hid).le
  | created => rw [created_row hrow hold hid]
  | fetched hother => exact (same hother hid).le
  | published hother => exact (same hother hid).le
  | failed hother =>
    rw [same hother hid]
    exact (Int.lt_succ _).le

theorem FailsRow.act {n : Int} {s : Store} {id : Int} {status : OutboxStatus}
    (h : FailsRow n s id status) (a : Action) : FailsRow n (s.act a) id status := by
  obtain ⟨old, hold, hid⟩ := h.row
  obtain ⟨row, hrow, hsame⟩ := act_ids hold
  refine ⟨⟨row, hrow, hsame.trans hid⟩, h.status.imp_right ?_⟩
  rintro ⟨hfailed, hretries⟩
  refine ⟨hfailed, fun other hother he => ?_⟩
  have hle := retryCount_le_act hother hold (hid.trans he.symm)
  exact (hretries old hold hid).trans (Int.add_le_add_right hle 1)

theorem retryInv_markFailed {n : Int} {s : Store} (hs : RetryInv n s) {k : Nat} {id : Int}
    {status : OutboxStatus} {nextRetryAt now : Time} {cause : String} (hf : FailsRow n s id status) :
    RetryInv n (s.act (.markFailed k id status nextRetryAt now cause)) where
  rows row hrow := by
    rcases OutboxTable.mem_markFailed.mp hrow with ⟨hold, _⟩ | ⟨old, hold, hid, rfl⟩
    · exact hs.rows row hold
    · rcases hf.status with rfl | ⟨rfl, hretries⟩
      · exact Or.inl rfl
      · exact Or.inr (Or.inr (Or.inr ⟨rfl, hretries old hold hid⟩))
  counted row hrow := by
    rcases OutboxTable.mem_markFailed.mp hrow with ⟨hold, hne⟩ | ⟨old, hold, rfl, rfl⟩
    · have hother : ¬ (Action.markFailed k id status nextRetryAt now cause).fails row.id :=
        fun he => hne (Eq.symm he)
      rw [failures_act_same hother]
      exact hs.counted row hold
    · have hcount := hs.counted old hold
      change old.retryCount + 1 = (failures _ old.id : Int)
      rw [failures_markFailed, hcount]
      push_cast
      rfl
  unknown id' hnone := by
    obtain ⟨row, hrow, hid⟩ := hf.row
    obtain ⟨row', hrow', hid'⟩ := act_ids hrow
    have hother : ¬ (Action.markFailed k id status nextRetryAt now cause).fails id' :=
      fun he => hnone row' hrow' (hid'.trans (hid.trans he))
    rw [failures_act_same hother]
    apply hs.unknown
    intro old hold he
    obtain ⟨old', hold', he'⟩ := act_ids hold
    exact hnone old' hold' (he'.trans he)

theorem retryInv_act {n : Int} {s : Store} (hs : RetryInv n s) {a : Action}
    (hcreate : ∀ auto rows, a = .create auto rows →
      rows.event.status = .pending ∧ rows.event.retryCount = 0)
    (hfail : ∀ k id status nextRetryAt now cause,
      a = .markFailed k id status nextRetryAt now cause → FailsRow n s id status) :
    RetryInv n (s.act a) := by
  by_cases hmarks : ∃ id, a.fails id
  · cases a with
    | markFailed k id status nextRetryAt now cause =>
      exact retryInv_markFailed hs (hfail _ _ _ _ _ _ rfl)
    | create | fetch | write | accept | markPublished =>
      obtain ⟨_, hnot⟩ := hmarks
      exact hnot.elim
  · have hsame (id : Int) : failures (s.act a).log id = failures s.log id :=
      failures_act_same fun h => hmarks ⟨id, h⟩
    constructor
    · intro row hrow
      cases act_row hrow with
      | kept hold => exact hs.rows row hold
      | created => exact Or.inl (hcreate _ _ rfl).1
      | fetched _ => exact Or.inr (Or.inl ⟨rfl, nofun⟩)
      | published _ => exact Or.inr (Or.inr (Or.inl rfl))
      | failed _ => exact absurd ⟨_, rfl⟩ hmarks
    · intro row hrow
      rw [hsame]
      cases act_row hrow with
      | kept hold => exact hs.counted row hold
      | fetched hold => exact (hs.counted _ hold :)
      | published hold => exact (hs.counted _ hold :)
      | failed _ => exact absurd ⟨_, rfl⟩ hmarks
      | @created auto rows =>
        -- the insert has found no row with this key, unless it is the row that was there
        by_cases hold : ∃ old ∈ s.db.outbox.rows, old.id = (storedEvent auto rows.event).id
        · obtain ⟨old, hmem, hid⟩ := hold
          rw [← created_row hrow hmem hid]
          exact hs.counted old hmem
        · have hzero := hs.unknown _ fun old hmem hid => hold ⟨old, hmem, hid⟩
          rw [hzero]
          exact (hcreate auto rows rfl).2
    · intro id hnone
      rw [hsame]
      apply hs.unknown
      intro old hold he
      obtain ⟨old', hold', he'⟩ := act_ids hold
      exact hnone old' hold' (he'.trans he)

section Workers

variable {sha256 : PublishPayload → String} {config : Nat → Config}

theorem attempt_not_markFailed {s : Store} {a : Action} {outcome : Outcome} {next pc : WorkerPC}
    {fail : String → WorkerPC} {s' : Store} (h : some (attempt s a outcome next fail) = some (s', pc)) :
    pc = next ∨ ∃ err, pc = fail err := by
  cases outcome with
  | ok => cases h; exact Or.inl rfl
  | failed err => cases h; exact Or.inr ⟨err, rfl⟩
  | lost err => cases h; exact Or.inr ⟨err, rfl⟩

theorem workStep_markFailed {c : Config} {k : Nat} {s s' : Store} {now : Time} {outcome : Outcome}
    {pc : WorkerPC} {event : OutboxEvent} {status : OutboxStatus} {nextRetryAt started : Time}
    {cause : String} {rest : List OutboxEvent}
    (h : workStep c k s now outcome pc =
      some (s', .markFailed event status nextRetryAt started cause rest)) :
    s' = s ∧ ∃ row, s.db.outbox.find? event.id = some row ∧
      status = OutboxTable.failedStatus row.retryCount c.maxRetries := by
  cases pc with
  | idle => cases h
  | loop events =>
    cases events with
    | nil => cases h
    | cons event' rest' =>
      simp only [workStep] at h
      split at h <;> cases h
  | loadMail event' changed rest' =>
    simp only [workStep] at h
    split at h
    · split at h <;> cases h
    all_goals cases h
  | readRetryCount event' cause' next' rest' =>
    simp only [workStep] at h
    split at h
    · split at h
      · cases h
      · rename_i row hfind
        cases h
        exact ⟨rfl, row, hfind, rfl⟩
    all_goals cases h
  | setMail t | addIndexes t | advance t | publish t | markPublished t =>
    rcases attempt_not_markFailed h with hnext | ⟨err, hnext⟩ <;> cases hnext
  | markFailed event' status' next' started' cause' rest' =>
    rcases attempt_not_markFailed h with hnext | ⟨err, hnext⟩ <;> cases hnext

def WorkersDecide (maxRetries : Int) (w : World) : Prop :=
  ∀ k event status nextRetryAt started cause rest,
    w.workers k = .markFailed event status nextRetryAt started cause rest →
      FailsRow maxRetries w.store event.id status

theorem failsRow_of_select {n : Int} (hn : 0 < n) {s : Store} {id : Int} {row : OutboxEvent}
    (h : s.db.outbox.find? id = some row) :
    FailsRow n s id (OutboxTable.failedStatus row.retryCount n) := by
  obtain ⟨hrow, hid⟩ := Table.find?_eq_some.mp h
  refine ⟨⟨row, hrow, hid⟩, ?_⟩
  unfold OutboxTable.failedStatus OutboxTable.effectiveRetries
  rw [if_neg (not_le.mpr hn)]
  split_ifs with hretries
  · refine Or.inr ⟨rfl, fun other hother hsame => ?_⟩
    rw [s.db.outbox.row_unique hother hrow (hsame.trans hid.symm)]
    exact hretries
  · exact Or.inl rfl

theorem setWorker_same (w : World) (k : Nat) (r : Store × WorkerPC) : (w.setWorker k r).workers k = r.2 := by
  simp [World.setWorker]

theorem setWorker_other {w : World} {j k : Nat} (r : Store × WorkerPC) (h : k ≠ j) :
    (w.setWorker j r).workers k = w.workers k := by
  simp [World.setWorker, h]

theorem workersDecide_step {n : Int} (hn : 0 < n) (hconfig : ∀ k, (config k).maxRetries = n)
    {w w' : World} {l : Label} (hw : WorkersDecide n w) (h : step sha256 config w l = some w') :
    WorkersDecide n w' := by
  have hkept {id : Int} {status : OutboxStatus} (hf : FailsRow n w.store id status) :
      FailsRow n w'.store id status := by
    rcases step_store h with hs | ⟨a, _, hs⟩
    · rw [hs]
      exact hf
    · rw [hs]
      exact hf.act a
  intro k event status nextRetryAt started cause rest hk
  have unchanged (he : w'.workers k = w.workers k) : FailsRow n w'.store event.id status :=
    hkept (hw k event status nextRetryAt started cause rest (he ▸ hk))
  cases step_inv h with
  | publishBegin | publishCreate | publishCrash => exact unchanged rfl
  | @fetch j _ _ _ _ outcome =>
    by_cases hj : k = j
    · subst hj
      rw [setWorker_same] at hk
      cases outcome <;> cases hk
    · exact unchanged (setWorker_other _ hj)
  | @work j _ _ s' pc' hwork =>
    by_cases hj : k = j
    · subst hj
      rw [setWorker_same] at hk
      subst hk
      obtain ⟨_, row, hfind, hstatus⟩ := workStep_markFailed hwork
      apply hkept
      rw [hstatus, hconfig k]
      exact failsRow_of_select hn hfind
    · exact unchanged (setWorker_other _ hj)
  | @crash j =>
    by_cases hj : k = j
    · subst hj
      rw [setWorker_same] at hk
      cases hk
    · exact unchanged (setWorker_other _ hj)

theorem retryInv_step {n : Int} {ls : List Label} {w w' : World} {l : Label}
    (hrun : run (step sha256 config) init ls = some w) (hw : RetryInv n w.store)
    (hworkers : WorkersDecide n w) (h : step sha256 config w l = some w') : RetryInv n w'.store := by
  rcases step_store h with hs | ⟨a, hi, hs⟩
  · rw [hs]
    exact hw
  · rw [hs]
    apply retryInv_act hw
    · rintro auto rows rfl
      cases hi with
      | create hp =>
        obtain ⟨cmd, now, newMailID, eventID, _, rfl⟩ := drafted_run hrun hp
        exact ⟨rfl, rfl⟩
    · rintro k id status nextRetryAt now cause rfl
      cases hi with
      | markFailed hk _ => exact hworkers _ _ _ _ _ _ _ hk

theorem retryInv_init (n : Int) : RetryInv n init.store where
  rows row h := by cases h
  counted row h := by cases h
  unknown id _ := rfl

theorem workersDecide_init (n : Int) : WorkersDecide n init := by
  intro k event status nextRetryAt started cause rest hk
  cases hk

end Workers

theorem NotStranded.selectable {n : Int} {row : OutboxEvent} (h : NotStranded n row)
    (hpublished : row.status ≠ .published) (hfailed : row.status ≠ .failed) :
    ∃ t, ∀ now, t ≤ now → OutboxTable.selectable now row = true := by
  rcases h with hp | ⟨hp, hlocked⟩ | hp | ⟨hp, _⟩
  · refine ⟨row.nextRetryTime.getD 0, fun now hnow => ?_⟩
    cases hr : row.nextRetryTime with
    | none => simp [OutboxTable.selectable, hp, hr]
    | some t =>
      rw [hr] at hnow
      simpa [OutboxTable.selectable, hp, hr] using hnow
  · obtain ⟨t, ht⟩ := Option.ne_none_iff_exists'.mp hlocked
    exact ⟨t, fun now hnow => by simpa [OutboxTable.selectable, hp, ht] using hnow⟩
  · exact absurd hp hpublished
  · exact absurd hp hfailed

theorem never_stranded (sha256 : PublishPayload → String) (config : Nat → Config) (maxRetries : Int)
    (hpos : 0 < maxRetries) (hconfig : ∀ k, (config k).maxRetries = maxRetries) (ls : List Label)
    (w : World) (h : run (step sha256 config) init ls = some w) (row : OutboxEvent)
    (hrow : row ∈ w.store.db.outbox.rows) :
    NotStranded maxRetries row ∧
      (row.status ≠ .published → row.status ≠ .failed →
        ∃ t, ∀ now, t ≤ now → OutboxTable.selectable now row = true) ∧
      row.retryCount = failures w.store.log row.id := by
  have hall : RetryInv maxRetries w.store ∧ WorkersDecide maxRetries w := by
    apply reachable_invariant
      (I := fun w : World => RetryInv maxRetries w.store ∧ WorkersDecide maxRetries w) ?_ ?_ h
    · rintro as u l v hrun ⟨hinv, hworkers⟩ hl
      exact ⟨retryInv_step hrun hinv hworkers hl, workersDecide_step hpos hconfig hworkers hl⟩
    · exact ⟨retryInv_init maxRetries, workersDecide_init maxRetries⟩
  obtain ⟨hinv, _⟩ := hall
  have hsettled := hinv.rows row hrow
  exact ⟨hsettled, hsettled.selectable, hinv.counted row hrow⟩

theorem lateFailure_selectable :
    run (step (fun _ => "") twoWorkers) init (takeover ++ [lateFailure]) = some afterLateFailure ∧
      ∃ row ∈ afterLateFailure.store.db.outbox.rows, row.status ≠ .published ∧ row.status ≠ .failed ∧
        (∃ t, ∀ now, t ≤ now → OutboxTable.selectable now row = true) ∧
        row.retryCount = failures afterLateFailure.store.log row.id := by
  have htakeover : run (step (fun _ => "") twoWorkers) init takeover = some afterTakeover :=
    (Option.some_get _).symm
  have hlate : step (fun _ => "") twoWorkers afterTakeover lateFailure = some afterLateFailure :=
    (Option.some_get _).symm
  have hrun := run_snoc htakeover hlate
  have hrow : ∃ row ∈ afterLateFailure.store.db.outbox.rows,
      row.status ≠ .published ∧ row.status ≠ .failed := by decide
  obtain ⟨row, hmem, hpublished, hfailed⟩ := hrow
  have hall := never_stranded (fun _ => "") twoWorkers 5 (by decide) (fun _ => rfl) _ _ hrun row hmem
  exact ⟨hrun, row, hmem, hpublished, hfailed, hall.2.1 hpublished hfailed, hall.2.2⟩

end GlobalMailSystem.Relay
