import GlobalMailSystem.PublishedAbsorbing

namespace GlobalMailSystem.Relay

open Publisher Transition

def Effect.marks (k : Nat) (id : Int) : Effect → Bool
  | .markedPublished worker eventID => worker = k && eventID = id
  | .markedFailed worker eventID => worker = k && eventID = id
  | _ => false

def Effect.leases (k : Nat) (id : Int) : Effect → Bool
  | .fetched worker eventID _ _ => worker = k && eventID = id
  | _ => false

def markedUnder (k : Nat) (id : Int) : List Effect → Bool
  | [] => false
  | e :: rest => e.marks k id || (!e.leases k id && markedUnder k id rest)

def LeasesExclusive (log : List Effect) : Prop :=
  ∀ before between after holder k id now lockedUntil now' lockedUntil',
    log = before ++ .fetched holder id now lockedUntil ::
      (between ++ .fetched k id now' lockedUntil' :: after) →
    now' < lockedUntil → markedUnder holder id between = true

def leaseAfter (id : Int) (lease : Option (Nat × Time)) : Effect → Option (Nat × Time)
  | .fetched k eventID _ lockedUntil => if eventID = id then some (k, lockedUntil) else lease
  | e => if lease.any fun held => e.marks held.1 id then none else lease

def currentLease (log : List Effect) (id : Int) : Option (Nat × Time) :=
  log.foldl (leaseAfter id) none

def Effect.fetchedAfter (id : Int) (now : Time) : Effect → Bool
  | .fetched _ eventID clock _ => eventID = id && now < clock
  | _ => false

/-- The update of `MarkFailed` makes an event pending again before the lease of another worker ends. -/
def reopensLeased (w : World) : Label → Bool
  | .work k _ outcome =>
    match w.workers k with
    | .markFailed event status nextRetryAt _ _ _ =>
      outcome.executed && status = .pending &&
        (currentLease w.store.log event.id).any fun held => held.1 ≠ k && nextRetryAt < held.2
    | _ => false
  | _ => false

/-- `FetchPending` runs on a clock that is behind the clock of an earlier fetch of the same event. -/
def clockBehind (w : World) : Label → Bool
  | .fetch _ limit _ now skip outcome =>
    outcome.executed && (w.store.db.outbox.pendingRows limit now skip).any fun row =>
      w.store.log.any (Effect.fetchedAfter row.id now)
  | _ => false

section Log

theorem currentLease_append (as bs : List Effect) (id : Int) :
    currentLease (as ++ bs) id = bs.foldl (leaseAfter id) (currentLease as id) := by
  rw [currentLease, List.foldl_append]
  rfl

def FetchOk (log : List Effect) (e : Effect) : Prop :=
  ∀ k id now lockedUntil, e = .fetched k id now lockedUntil →
    (∀ held, currentLease log id = some held → held.2 ≤ now) ∧
      ∀ e ∈ log, e.fetchedAfter id now = false

def FetchesOk (log : List Effect) : Prop :=
  ∀ before e after, log = before ++ e :: after → FetchOk before e

theorem fetchesOk_append {log new : List Effect} (h : FetchesOk log)
    (hnew : ∀ before e after, new = before ++ e :: after → FetchOk (log ++ before) e) :
    FetchesOk (log ++ new) := by
  intro before e after he
  rcases List.append_eq_append_iff.mp he with ⟨mid, rfl, hmid⟩ | ⟨mid, hlog, hmid⟩
  · exact hnew mid e after hmid
  · cases mid with
    | nil =>
      rw [List.append_nil] at hlog
      subst hlog
      simpa using hnew [] e after hmid.symm
    | cons x mid =>
      rw [List.cons_append] at hmid
      obtain ⟨rfl, _⟩ := List.cons.inj hmid
      exact h before e mid hlog

theorem leaseAfter_kept {k : Nat} {id : Int} {lockedUntil : Time} {e : Effect}
    (hfetch : ¬ e.fetches id) (hmark : e.marks k id = false) :
    leaseAfter id (some (k, lockedUntil)) e = some (k, lockedUntil) := by
  cases e with
  | fetched k' eventID now until_ => exact if_neg hfetch
  | write w => rfl
  | accepted k' eventID event => rfl
  | markedPublished k' eventID | markedFailed k' eventID => simp [leaseAfter, hmark]

theorem leases_fetches {k : Nat} {id : Int} {e : Effect} (h : ¬ e.fetches id) :
    e.leases k id = false := by
  cases e with
  | fetched k' eventID now until_ =>
    have hid : eventID ≠ id := h
    simp [Effect.leases, hid]
  | write | accepted | markedPublished | markedFailed => rfl

theorem lease_held {k : Nat} {id : Int} {lockedUntil : Time} {between : List Effect}
    (hfetch : ∀ e ∈ between, ¬ e.fetches id) (hmark : markedUnder k id between = false) :
    between.foldl (leaseAfter id) (some (k, lockedUntil)) = some (k, lockedUntil) := by
  induction between with
  | nil => rfl
  | cons e rest ih =>
    have he := hfetch e List.mem_cons_self
    simp only [markedUnder, leases_fetches he, Bool.not_false, Bool.true_and, Bool.or_eq_false_iff] at hmark
    rw [List.foldl_cons, leaseAfter_kept he hmark.1]
    exact ih (fun e he => hfetch e (List.mem_cons_of_mem _ he)) hmark.2

theorem markedUnder_append {k : Nat} {id : Int} {as bs : List Effect}
    (hfetch : ∀ e ∈ as, ¬ e.fetches id) (h : markedUnder k id (as ++ bs) = false) :
    markedUnder k id as = false := by
  induction as with
  | nil => rfl
  | cons e rest ih =>
    have he := hfetch e List.mem_cons_self
    simp only [List.cons_append, markedUnder, leases_fetches he, Bool.not_false, Bool.true_and,
      Bool.or_eq_false_iff] at h ⊢
    exact ⟨h.1, ih (fun e he => hfetch e (List.mem_cons_of_mem _ he)) h.2⟩

instance (id : Int) : (e : Effect) → Decidable (e.fetches id)
  | .fetched _ eventID _ _ => inferInstanceAs (Decidable (eventID = id))
  | .write _ | .accepted _ _ _ | .markedPublished _ _ | .markedFailed _ _ =>
    inferInstanceAs (Decidable False)

theorem lease_ended {log between after : List Effect} {holder k : Nat} {id : Int}
    {now lockedUntil now' lockedUntil' : Time}
    (h : FetchesOk (log ++ .fetched holder id now lockedUntil ::
      (between ++ .fetched k id now' lockedUntil' :: after)))
    (hfetch : ∀ e ∈ between, ¬ e.fetches id) (hmark : markedUnder holder id between = false) :
    lockedUntil ≤ now' := by
  have hok := h (log ++ .fetched holder id now lockedUntil :: between)
    (.fetched k id now' lockedUntil') after (by simp)
  apply (hok k id now' lockedUntil' rfl).1 (holder, lockedUntil)
  rw [currentLease_append, List.foldl_cons, leaseAfter, if_pos rfl]
  exact lease_held hfetch hmark

theorem leasesExclusive_of_fetchesOk {log : List Effect} (h : FetchesOk log) : LeasesExclusive log := by
  intro before between after holder k id now lockedUntil now' lockedUntil' he hearly
  subst he
  by_contra hunmarked
  rw [Bool.not_eq_true] at hunmarked
  by_cases hfetch : ∀ e ∈ between, ¬ e.fetches id
  · exact absurd (lease_ended h hfetch hunmarked) (not_le.mpr hearly)
  · -- the first fetch in between waits for the lease, and the later one is not on an earlier clock
    obtain ⟨first, hfirst⟩ : ∃ e, between.find? (fun e => decide (e.fetches id)) = some e := by
      rw [← Option.isSome_iff_exists, List.find?_isSome]
      simpa using hfetch
    obtain ⟨hid, as, bs, rfl, has⟩ := List.find?_eq_some_iff_append.mp hfirst
    replace has : ∀ e ∈ as, ¬ e.fetches id := by simpa using has
    cases first with
    | fetched k₁ eventID now₁ until₁ =>
      have heq : eventID = id := of_decide_eq_true hid
      subst heq
      have hsplit : FetchesOk (before ++ .fetched holder eventID now lockedUntil ::
          (as ++ .fetched k₁ eventID now₁ until₁ ::
            (bs ++ .fetched k eventID now' lockedUntil' :: after))) := by simpa using h
      have hended : lockedUntil ≤ now₁ :=
        lease_ended hsplit has (markedUnder_append has hunmarked)
      have hlast := h (before ++ .fetched holder eventID now lockedUntil ::
        (as ++ .fetched k₁ eventID now₁ until₁ :: bs))
        (.fetched k eventID now' lockedUntil') after (by simp)
      have hclock := (hlast k eventID now' lockedUntil' rfl).2 (.fetched k₁ eventID now₁ until₁) (by simp)
      have hnow : now₁ ≤ now' := by simpa [Effect.fetchedAfter] using hclock
      exact absurd (hended.trans hnow) (not_le.mpr hearly)
    | write | accepted | markedPublished | markedFailed => cases hid

end Log

section Store

theorem foldl_fetched (events : List OutboxEvent) (k : Nat) (id : Int) (now lockedUntil : Time)
    (lease : Option (Nat × Time)) :
    (events.map fun event => Effect.fetched k event.id now lockedUntil).foldl (leaseAfter id) lease =
      if id ∈ events.map (·.id) then some (k, lockedUntil) else lease := by
  induction events generalizing lease with
  | nil => rfl
  | cons event events ih =>
    rw [List.map_cons, List.foldl_cons, ih, leaseAfter]
    by_cases hid : event.id = id
    · simp [hid]
    · simp [hid, Ne.symm hid]

def Leased (s : Store) : Prop :=
  ∀ id held, currentLease s.log id = some held →
    ∃ row ∈ s.db.outbox.rows, row.id = id ∧
      ∀ now, now < held.2 → OutboxTable.selectable now row = false

def Respects (s : Store) : Action → Prop
  | .fetch _ limit _ _ now skip =>
    ∀ row ∈ s.db.outbox.pendingRows limit now skip, ∀ e ∈ s.log, e.fetchedAfter row.id now = false
  | .markFailed k id status nextRetryAt _ _ =>
    status = .pending → ∀ held, currentLease s.log id = some held → held.1 = k ∨ held.2 ≤ nextRetryAt
  | _ => True

theorem leaseAfter_mark {k : Nat} {id eventID : Int} {lease : Option (Nat × Time)} {held : Nat × Time}
    {e : Effect} (he : e = .markedPublished k eventID ∨ e = .markedFailed k eventID)
    (h : leaseAfter id lease e = some held) : lease = some held ∧ (eventID = id → held.1 ≠ k) := by
  rcases he with rfl | rfl
  all_goals
    simp only [leaseAfter] at h
    split at h
    · cases h
    · rename_i hnone
      subst h
      refine ⟨rfl, fun hid hk => hnone ?_⟩
      simp [Effect.marks, hid, hk]

theorem leased_frame {s t : Store} (h : Leased s)
    (hlease : ∀ id, currentLease t.log id = currentLease s.log id)
    (hrows : ∀ row ∈ s.db.outbox.rows, row ∈ t.db.outbox.rows) : Leased t := by
  intro id held hheld
  rw [hlease] at hheld
  obtain ⟨row, hrow, hid, hlater⟩ := h id held hheld
  exact ⟨row, hrows row hrow, hid, hlater⟩

theorem leased_fetch {s : Store} (h : Leased s) (k : Nat) (limit : Int) (lockedBy : String)
    (lockedUntil now : Time) (skip : Int → Bool) :
    Leased (s.act (.fetch k limit lockedBy lockedUntil now skip)) := by
  intro id held hheld
  rw [act_log, currentLease_append, Action.effects, foldl_fetched] at hheld
  have hids : ((s.db.outbox.fetchPending limit lockedBy lockedUntil now skip).2.map (·.id)) =
      (s.db.outbox.pendingRows limit now skip).map (·.id) := by
    simp [OutboxTable.fetchPending, OutboxTable.lease]
  rw [hids] at hheld
  split_ifs at hheld with hmem
  · obtain ⟨row, hrow, hid⟩ := List.mem_map.mp hmem
    have hstored := (OutboxTable.mem_pendingRows hrow).1
    refine ⟨_, OutboxTable.mem_fetchPending.mpr ⟨row, hstored, rfl⟩, ?_, ?_⟩
    · rw [OutboxTable.fetchRow_id]
      exact hid
    · intro clock hclock
      cases hheld
      rw [OutboxTable.fetchRow, if_pos (hid ▸ hmem)]
      simpa [OutboxTable.selectable, OutboxTable.lease] using hclock
  · obtain ⟨row, hrow, hid, hlater⟩ := h id held hheld
    exact ⟨row, OutboxTable.mem_fetchPending.mpr ⟨row, hrow, if_neg (hid ▸ hmem)⟩, hid, hlater⟩

theorem leased_markPublished {s : Store} (h : Leased s) (k : Nat) (eventID : Int) (now : Time) :
    Leased (s.act (.markPublished k eventID now)) := by
  intro id held hheld
  rw [act_log, currentLease_append] at hheld
  obtain ⟨hbefore, _⟩ := leaseAfter_mark (Or.inl rfl) hheld
  obtain ⟨row, hrow, hid, hlater⟩ := h id held hbefore
  by_cases he : row.id = eventID
  · refine ⟨_, OutboxTable.mem_markPublished.mpr (Or.inr ⟨row, hrow, he, rfl⟩), hid, fun _ _ => ?_⟩
    simp [OutboxTable.selectable, OutboxTable.publishedRow]
  · exact ⟨row, OutboxTable.mem_markPublished.mpr (Or.inl ⟨hrow, he⟩), hid, hlater⟩

theorem leased_markFailed {s : Store} (h : Leased s) {k : Nat} {eventID : Int} {status : OutboxStatus}
    {nextRetryAt now : Time} {cause : String}
    (ha : Respects s (.markFailed k eventID status nextRetryAt now cause)) :
    Leased (s.act (.markFailed k eventID status nextRetryAt now cause)) := by
  intro id held hheld
  rw [act_log, currentLease_append] at hheld
  obtain ⟨hbefore, hother⟩ := leaseAfter_mark (Or.inr rfl) hheld
  obtain ⟨row, hrow, hid, hlater⟩ := h id held hbefore
  by_cases he : row.id = eventID
  · refine ⟨_, OutboxTable.mem_markFailed.mpr (Or.inr ⟨row, hrow, he, rfl⟩), hid, fun clock hclock => ?_⟩
    cases status with
    | pending =>
      -- another worker's failure: its retry time does not come before the lease ends
      have heq : eventID = id := he.symm.trans hid
      have hretry : held.2 ≤ nextRetryAt :=
        (ha rfl held (heq ▸ hbefore)).resolve_left (hother heq)
      have hwait : clock < nextRetryAt := lt_of_lt_of_le hclock hretry
      simpa [OutboxTable.selectable, OutboxTable.failedRow] using hwait
    | processing | published | failed => simp [OutboxTable.selectable, OutboxTable.failedRow]
  · exact ⟨row, OutboxTable.mem_markFailed.mpr (Or.inl ⟨hrow, he⟩), hid, hlater⟩

theorem leased_act {s : Store} (h : Leased s) {a : Action} (ha : Respects s a) : Leased (s.act a) := by
  cases a with
  | create rows =>
    refine leased_frame h (fun id => ?_) fun row hrow => mem_act_create hrow
    rw [act_log, Action.effects, List.append_nil]
  | fetch k limit lockedBy lockedUntil now skip => exact leased_fetch h k limit lockedBy lockedUntil now skip
  | write w | accept k id event =>
    refine leased_frame h (fun id => ?_) fun row hrow => hrow
    rw [act_log, currentLease_append]
    simp [Action.effects, leaseAfter, Effect.marks]
  | markPublished k id now => exact leased_markPublished h k id now
  | markFailed k id status nextRetryAt now cause => exact leased_markFailed h ha

theorem fetchesOk_fetch {s : Store} (h : FetchesOk s.log) (hleased : Leased s) {k : Nat} {limit : Int}
    {lockedBy : String} {lockedUntil now : Time} {skip : Int → Bool}
    (ha : Respects s (.fetch k limit lockedBy lockedUntil now skip)) :
    FetchesOk (s.act (.fetch k limit lockedBy lockedUntil now skip)).log := by
  rw [act_log]
  apply fetchesOk_append h
  intro before e after hnew k' id' now' until' he
  subst he
  rw [Action.effects, OutboxTable.fetchPending, List.map_map] at hnew
  obtain ⟨as, rest, hrows, rfl, hrest⟩ := List.map_eq_append_iff.mp hnew
  obtain ⟨row, bs, rfl, hrow, rfl⟩ := List.map_eq_cons_iff.mp hrest
  cases hrow
  have hmem : row ∈ s.db.outbox.pendingRows limit now skip := by simp [hrows]
  obtain ⟨hstored, hsel⟩ := OutboxTable.mem_pendingRows hmem
  -- one fetch returns an event once, so the lease before it is the one in the log
  have hfirst : row.id ∉ as.map (·.id) := by
    have hnodup := s.db.outbox.pendingRows_nodup limit now skip
    rw [hrows, List.map_append, List.map_cons] at hnodup
    exact fun hin => List.disjoint_of_nodup_append hnodup hin List.mem_cons_self
  constructor
  · intro held hheld
    have hlease : currentLease (s.log ++ as.map fun row => Effect.fetched k row.id now lockedUntil)
        row.id = currentLease s.log row.id := by
      rw [currentLease_append, foldl_fetched, if_neg hfirst]
    obtain ⟨stored, hrow, hid, hlater⟩ := hleased row.id held (hlease ▸ hheld)
    rw [s.db.outbox.row_unique hrow hstored hid] at hlater
    by_contra hnow
    rw [hlater now (not_le.mp hnow)] at hsel
    cases hsel
  · intro e he
    rcases List.mem_append.mp he with he | he
    · exact ha row hmem e he
    · obtain ⟨other, hother, rfl⟩ := List.mem_map.mp he
      simp [Effect.fetchedAfter]

theorem fetchesOk_act {s : Store} (h : FetchesOk s.log) (hleased : Leased s) {a : Action}
    (ha : Respects s a) : FetchesOk (s.act a).log := by
  cases a with
  | fetch k limit lockedBy lockedUntil now skip => exact fetchesOk_fetch h hleased ha
  | create rows | write w | accept k id event | markPublished k id now
  | markFailed k id status nextRetryAt now cause =>
    rw [act_log]
    apply fetchesOk_append h
    intro before e after hnew k' id' now' until' he
    subst he
    have hmem : Effect.fetched k' id' now' until' ∈ before ++ Effect.fetched k' id' now' until' :: after := by simp
    rw [← hnew] at hmem
    simp [Action.effects] at hmem

end Store

section Runs

variable {sha256 : PublishPayload → String} {config : Nat → Config}

theorem step_respects {w w' : World} {l : Label} (hreopen : reopensLeased w l = false)
    (hclock : clockBehind w l = false) (h : step sha256 config w l = some w') :
    w'.store = w.store ∨ ∃ a, Respects w.store a ∧ w'.store = w.store.act a := by
  -- a call that has not executed leaves the store as it is, so only executed calls are constrained
  rcases step_store h with hs | ⟨a, hi, hs⟩
  · exact Or.inl hs
  cases hi with
  | @fetch k limit workerNow now skip outcome hk =>
    cases hex : outcome.executed with
    | false =>
      cases outcome with
      | failed err =>
        simp only [step, hk] at h
        exact Or.inl (Option.some.inj h ▸ rfl)
      | ok | lost => cases hex
    | true =>
      refine Or.inr ⟨_, ?_, hs⟩
      intro row hrow e he
      simp only [clockBehind, hex, Bool.true_and, List.any_eq_false] at hclock
      simpa using List.any_eq_false.mp (by simpa using hclock row hrow) e he
  | @markFailed k now outcome event status nextRetryAt started cause rest hk hex =>
    refine Or.inr ⟨_, ?_, hs⟩
    intro hpending held hheld
    simp only [reopensLeased, hk, hex, hpending, hheld, Option.any_some] at hreopen
    simp only [decide_true, Bool.and_self, Bool.true_and, Bool.and_eq_false_iff] at hreopen
    rcases hreopen with hsame | hlate
    · exact Or.inl (by simpa using hsame)
    · exact Or.inr (by simpa using hlate)
  | create | setMail | addIndexes | advance | accept | markPublished =>
    refine Or.inr ⟨_, ?_, hs⟩
    trivial

theorem leases_step {w w' : World} {l : Label} (hlog : FetchesOk w.store.log) (hleased : Leased w.store)
    (hreopen : reopensLeased w l = false) (hclock : clockBehind w l = false)
    (h : step sha256 config w l = some w') : FetchesOk w'.store.log ∧ Leased w'.store := by
  rcases step_respects hreopen hclock h with hs | ⟨a, ha, hs⟩
  · rw [hs]
    exact ⟨hlog, hleased⟩
  · rw [hs]
    exact ⟨fetchesOk_act hlog hleased ha, leased_act hleased ha⟩

theorem fetchesOk_init : FetchesOk init.store.log := by
  intro before e after h
  simp [init] at h

theorem leased_init : Leased init.store := by
  intro id held h
  cases h

end Runs

theorem leases_exclusive (sha256 : PublishPayload → String) (config : Nat → Config) (ls : List Label)
    (w : World)
    (hg : Guarded (step sha256 config)
      (fun w l => reopensLeased w l = false ∧ clockBehind w l = false) init ls)
    (h : run (step sha256 config) init ls = some w) : LeasesExclusive w.store.log := by
  have hall : FetchesOk w.store.log ∧ Leased w.store := by
    apply guarded_invariant (I := fun w : World => FetchesOk w.store.log ∧ Leased w.store) ?_
      ⟨fetchesOk_init, leased_init⟩ hg h
    rintro s l t ⟨hlog, hleased⟩ ⟨hreopen, hclock⟩ hl
    exact leases_step hlog hleased hreopen hclock hl
  exact leasesExclusive_of_fetchesOk hall.1

theorem takeover_exclusive :
    run (step (fun _ => "") twoWorkers) init takeover = some afterTakeover ∧
      LeasesExclusive afterTakeover.store.log := by
  have htakeover : run (step (fun _ => "") twoWorkers) init takeover = some afterTakeover :=
    (Option.some_get _).symm
  exact ⟨htakeover, leases_exclusive _ _ takeover _ (by decide) htakeover⟩

def lateReopen : List Label :=
  ([.publishBegin 0 ⟨noticeMail, [], "", ""⟩ 0 100 7 none, .publishCreate 0 .first .ok,
    .fetch 0 10 0 0 (fun _ => false) .ok] : List Label) ++
  List.replicate 5 (Label.work 0 0 .ok) ++
  ([.work 0 0 (.failed "kafka"), .work 0 0 .ok] : List Label) ++
  ([.fetch 1 10 (6 * minute) (6 * minute) (fun _ => false) .ok, .work 0 (7 * minute) .ok,
    .fetch 2 10 (8 * minute) (8 * minute) (fun _ => false) .ok] : List Label)

def afterLateReopen : World :=
  (run (step (fun _ => "") twoWorkers) init lateReopen).get (by decide)

theorem lateReopen_not_exclusive :
    run (step (fun _ => "") twoWorkers) init lateReopen = some afterLateReopen ∧
      ¬ LeasesExclusive afterLateReopen.store.log := by
  refine ⟨(Option.some_get _).symm, fun h => ?_⟩
  have hmarked := h [_, _, _, _] [.markedFailed 0 7] [] 1 2 7 (6 * minute) (11 * minute) (8 * minute)
    (13 * minute) rfl (by decide)
  cases hmarked

end GlobalMailSystem.Relay
