import GlobalMailSystem.RelayInvariants

namespace GlobalMailSystem.Relay

open Publisher Transition

def Store.Published (s : Store) (id : Int) : Prop :=
  ∃ row ∈ s.db.outbox.rows, row.id = id ∧ row.status = .published

def Effect.fetches (id : Int) : Effect → Prop
  | .fetched _ eventID _ _ => eventID = id
  | _ => False

def Effect.delivers (id : Int) : Effect → Prop
  | .accepted _ eventID _ => eventID = id
  | _ => False

def Effect.fails (id : Int) : Effect → Prop
  | .markedFailed _ eventID => eventID = id
  | _ => False

theorem published_not_fetched {s : Store} {id : Int} (h : s.Published id) (limit : Int)
    (now : Time) (skip : Int → Bool) :
    id ∉ (s.db.outbox.pendingRows limit now skip).map (·.id) := by
  intro hid
  obtain ⟨other, hother, he⟩ := List.mem_map.mp hid
  obtain ⟨row, hrow, hrid, hstatus⟩ := h
  obtain ⟨hmem, hsel⟩ := OutboxTable.mem_pendingRows hother
  have hsame : other = row := s.db.outbox.row_unique hmem hrow (he.trans hrid.symm)
  exact OutboxTable.selectable_not_published hsel (hsame ▸ hstatus)

theorem act_published {s : Store} {id : Int} (h : s.Published id) (a : Action)
    (ha : ∀ e ∈ a.effects s, ¬ e.fails id) : (s.act a).Published id := by
  obtain ⟨row, hrow, hid, hstatus⟩ := h
  cases a with
  | create auto rows =>
    simp only [Store.act]
    split
    · exact ⟨row, hrow, hid, hstatus⟩
    · rename_i db hcreate
      refine ⟨row, ?_, hid, hstatus⟩
      change row ∈ db.outbox.rows
      rw [(create_rows hcreate).outbox]
      exact List.mem_append_left _ hrow
  | fetch k limit lockedBy lockedUntil now skip =>
    refine ⟨row, ?_, hid, hstatus⟩
    have hn := published_not_fetched ⟨row, hrow, rfl, hstatus⟩ limit now skip
    exact OutboxTable.mem_fetchPending.mpr ⟨row, hrow, if_neg hn⟩
  | write w => exact ⟨row, hrow, hid, hstatus⟩
  | accept k id' event => exact ⟨row, hrow, hid, hstatus⟩
  | markPublished k id' now =>
    by_cases he : row.id = id'
    · exact ⟨_, OutboxTable.mem_markPublished.mpr (Or.inr ⟨row, hrow, he, rfl⟩), hid, rfl⟩
    · exact ⟨row, OutboxTable.mem_markPublished.mpr (Or.inl ⟨hrow, he⟩), hid, hstatus⟩
  | markFailed k id' status nextRetryAt now cause =>
    have he : row.id ≠ id' := by
      intro he
      exact ha _ (List.mem_singleton.mpr rfl) (he.symm.trans hid)
    exact ⟨row, OutboxTable.mem_markFailed.mpr (Or.inl ⟨hrow, he⟩), hid, hstatus⟩

theorem act_not_fetches {s : Store} {id : Int} (h : s.Published id) (a : Action) :
    ∀ e ∈ a.effects s, ¬ e.fetches id := by
  intro e he
  cases a with
  | create rows => simp [Action.effects] at he
  | fetch k limit lockedBy lockedUntil now skip =>
    obtain ⟨event, hevent, rfl⟩ := List.mem_map.mp he
    obtain ⟨row, hrow, rfl⟩ := List.mem_map.mp hevent
    intro hid
    apply published_not_fetched h limit now skip
    exact List.mem_map.mpr ⟨row, hrow, hid⟩
  | write w | accept k id' event | markPublished k id' now
  | markFailed k id' status nextRetryAt now cause =>
    simp only [Action.effects, List.mem_singleton] at he
    subst he
    exact not_false

def FailsPublished (w : World) : Label → Prop
  | .work k _ outcome => outcome.executed = true ∧
      ∃ event status nextRetryAt started cause rest,
        w.workers k = .markFailed event status nextRetryAt started cause rest ∧
          w.store.Published event.id
  | _ => False

def RedeliversPublished (w : World) : Label → Prop
  | .work k _ outcome => outcome.executed = true ∧
      ∃ t, w.workers k = .publish t ∧ w.store.Published t.event.id
  | _ => False

def Stays (s t : Store) (id : Int) : Prop :=
  t.Published id ∧ ∃ later, t.log = s.log ++ later ∧ ∀ e ∈ later, ¬ e.fetches id

def NotRedelivered (s t : Store) (id : Int) : Prop :=
  ∃ later, t.log = s.log ++ later ∧ ∀ e ∈ later, ¬ e.delivers id

section Runs

variable (sha256 : PublishPayload → String) (config : Nat → Config)

def OncePublished (P : Store → Store → Int → Prop) (ls : List Label) : Prop :=
  ∀ as bs cs s t id, ls = as ++ (bs ++ cs) → run (step sha256 config) init as = some s →
    run (step sha256 config) s bs = some t → s.store.Published id → P s.store t.store id

variable {sha256 config}

theorem issues_fails {w : World} {l : Label} {a : Action} (hi : Issues config w l a)
    (hok : ¬ FailsPublished w l) {id : Int} (hp : w.store.Published id) :
    ∀ e ∈ a.effects w.store, ¬ e.fails id := by
  intro e he hfail
  cases hi with
  | create hp => simp [Action.effects] at he
  | fetch hk =>
    obtain ⟨event, _, rfl⟩ := List.mem_map.mp he
    exact hfail
  | markFailed hk hex =>
    simp only [Action.effects, List.mem_singleton] at he
    subst he
    exact hok ⟨hex, _, _, _, _, _, _, hk, hfail ▸ hp⟩
  | setMail hk | addIndexes hk | advance hk | accept hk hex | markPublished hk =>
    simp only [Action.effects, List.mem_singleton] at he
    subst he
    exact hfail

theorem issues_delivers {w : World} {l : Label} {a : Action} (hi : Issues config w l a)
    (hok : ¬ RedeliversPublished w l) {id : Int} (hp : w.store.Published id) :
    ∀ e ∈ a.effects w.store, ¬ e.delivers id := by
  intro e he hdeliver
  cases hi with
  | create hp => simp [Action.effects] at he
  | fetch hk =>
    obtain ⟨event, _, rfl⟩ := List.mem_map.mp he
    exact hdeliver
  | accept hk hex =>
    simp only [Action.effects, List.mem_singleton] at he
    subst he
    exact hok ⟨hex, _, hk, hdeliver ▸ hp⟩
  | setMail hk | addIndexes hk | advance hk | markFailed hk hex | markPublished hk =>
    simp only [Action.effects, List.mem_singleton] at he
    subst he
    exact hdeliver

theorem stays_step {w w' : World} {l : Label} (hok : ¬ FailsPublished w l)
    (h : step sha256 config w l = some w') {id : Int} (hp : w.store.Published id) :
    Stays w.store w'.store id := by
  rcases step_store h with hs | ⟨a, hi, hs⟩
  · rw [hs]
    exact ⟨hp, [], by simp, by simp⟩
  · rw [hs]
    exact ⟨act_published hp a (issues_fails hi hok hp), a.effects w.store, act_log _ _,
      act_not_fetches hp a⟩

theorem notRedelivered_step {w w' : World} {l : Label} (hok : ¬ RedeliversPublished w l)
    (h : step sha256 config w l = some w') {id : Int} (hp : w.store.Published id) :
    NotRedelivered w.store w'.store id := by
  rcases step_store h with hs | ⟨a, hi, hs⟩
  · exact ⟨[], by rw [hs]; simp, by simp⟩
  · exact ⟨a.effects w.store, by rw [hs]; exact act_log _ _, issues_delivers hi hok hp⟩

theorem later_append {s t u : Store} {P : Effect → Prop} {a b : List Effect}
    (hst : t.log = s.log ++ a) (htu : u.log = t.log ++ b) (ha : ∀ e ∈ a, P e) (hb : ∀ e ∈ b, P e) :
    ∃ later, u.log = s.log ++ later ∧ ∀ e ∈ later, P e := by
  refine ⟨a ++ b, by rw [htu, hst, List.append_assoc], ?_⟩
  intro e he
  rcases List.mem_append.mp he with he | he
  · exact ha e he
  · exact hb e he

theorem stays_run {s t : World} {ls : List Label}
    (hg : Guarded (step sha256 config) (fun w l => ¬ FailsPublished w l) s ls)
    (h : run (step sha256 config) s ls = some t) :
    ∀ id, s.store.Published id → Stays s.store t.store id := by
  apply guarded_relation (R := fun s t : World => ∀ id, s.store.Published id → Stays s.store t.store id)
    ?_ ?_ ?_ hg h
  · intro s id hp
    exact ⟨hp, [], by simp, by simp⟩
  · intro s t u hst htu id hp
    obtain ⟨ht, a, hla, ha⟩ := hst id hp
    obtain ⟨hu, b, hlb, hb⟩ := htu id ht
    exact ⟨hu, later_append hla hlb ha hb⟩
  · intro s l t hok hstep id hp
    exact stays_step hok hstep hp

theorem notRedelivered_run {s t : World} {ls : List Label}
    (hg : Guarded (step sha256 config)
      (fun w l => ¬ FailsPublished w l ∧ ¬ RedeliversPublished w l) s ls)
    (h : run (step sha256 config) s ls = some t) :
    ∀ id, s.store.Published id → t.store.Published id ∧ NotRedelivered s.store t.store id := by
  apply guarded_relation (R := fun s t : World => ∀ id, s.store.Published id →
    t.store.Published id ∧ NotRedelivered s.store t.store id) ?_ ?_ ?_ hg h
  · intro s id hp
    exact ⟨hp, [], by simp, by simp⟩
  · intro s t u hst htu id hp
    obtain ⟨ht, a, hla, ha⟩ := hst id hp
    obtain ⟨hu, b, hlb, hb⟩ := htu id ht
    exact ⟨hu, later_append hla hlb ha hb⟩
  · intro s l t hok hstep id hp
    exact ⟨(stays_step hok.1 hstep hp).1, notRedelivered_step hok.2 hstep hp⟩

theorem markFailed_unpublishes {s : Store} {k : Nat} {id : Int} {status : OutboxStatus}
    {nextRetryAt now : Time} {cause : String} (hstatus : status ≠ .published) :
    ¬ (s.act (.markFailed k id status nextRetryAt now cause)).Published id := by
  rintro ⟨row, hrow, hid, hpub⟩
  rcases OutboxTable.mem_markFailed.mp hrow with ⟨_, hne⟩ | ⟨old, _, _, rfl⟩
  · exact hne hid
  · exact hstatus hpub

theorem failsPublished_unpublishes {w : World} {l : Label} (hw : Inv w)
    (hf : FailsPublished w l) :
    ∃ w' id, step sha256 config w l = some w' ∧ w.store.Published id ∧ ¬ w'.store.Published id := by
  cases l with
  | work k now outcome =>
    obtain ⟨hex, event, status, nextRetryAt, started, cause, rest, hk, hp⟩ := hf
    have hstatus : status ≠ .published := (hk ▸ hw.workers k : PCOk w.store (.markFailed ..)).1
    refine ⟨_, event.id, by rw [step, hk]; rfl, hp, ?_⟩
    simp only [World.setWorker, attempt_store, hex, if_true]
    exact markFailed_unpublishes hstatus
  | publishBegin | publishCreate | publishCrash | fetch | crash => exact hf.elim

theorem redeliversPublished_delivers {w : World} {l : Label} (hr : RedeliversPublished w l) :
    ∃ w' id, step sha256 config w l = some w' ∧ w.store.Published id ∧
      ¬ NotRedelivered w.store w'.store id := by
  cases l with
  | work k now outcome =>
    obtain ⟨hex, t, hk, hp⟩ := hr
    refine ⟨_, t.event.id, by rw [step, hk]; rfl, hp, ?_⟩
    rintro ⟨later, hlog, hnone⟩
    simp only [World.setWorker, attempt_store, hex, if_true] at hlog
    have hlater : later = [.accepted k t.event.id t.changed] :=
      (List.append_cancel_left hlog).symm
    exact hnone (.accepted k t.event.id t.changed) (hlater ▸ List.mem_singleton.mpr rfl) rfl
  | publishBegin | publishCreate | publishCrash | fetch | crash => exact hr.elim

theorem oncePublished_step {P : Store → Store → Int → Prop} {as bs : List Label} {l : Label}
    (h : OncePublished sha256 config P (as ++ l :: bs)) {s t : World} {id : Int}
    (hs : run (step sha256 config) init as = some s) (hl : step sha256 config s l = some t)
    (hp : s.store.Published id) : P s.store t.store id :=
  h as [l] bs s t id rfl hs (run_cons.mpr ⟨t, hl, rfl⟩) hp

theorem oncePublished_of_guarded {P : Store → Store → Int → Prop} {ok : World → Label → Prop}
    {ls : List Label} (hg : Guarded (step sha256 config) ok init ls)
    (hok : ∀ s t bs, Guarded (step sha256 config) ok s bs → run (step sha256 config) s bs = some t →
      ∀ id, s.store.Published id → P s.store t.store id) : OncePublished sha256 config P ls := by
  intro as bs cs s t id he has hbs hp
  subst he
  have hrest := (guarded_append hg has).2
  exact hok s t bs (guarded_append hrest hbs).1 hbs id hp

end Runs

theorem published_absorbing_iff (sha256 : PublishPayload → String) (config : Nat → Config)
    (ls : List Label) :
    (OncePublished sha256 config Stays ls ↔
      Guarded (step sha256 config) (fun w l => ¬ FailsPublished w l) init ls) ∧
    (OncePublished sha256 config (fun s t id => Stays s t id ∧ NotRedelivered s t id) ls ↔
      Guarded (step sha256 config)
        (fun w l => ¬ FailsPublished w l ∧ ¬ RedeliversPublished w l) init ls) := by
  refine ⟨⟨fun h => ?_, fun hg => ?_⟩, ⟨fun h => ?_, fun hg => ?_⟩⟩
  · apply guarded_of_forall
    intro as l bs s he hs hf
    obtain ⟨t, id, hl, hp, hn⟩ := failsPublished_unpublishes (inv_run hs) hf
    exact hn (oncePublished_step (he ▸ h) hs hl hp).1
  · exact oncePublished_of_guarded hg fun s t bs hbs hrun => stays_run hbs hrun
  · apply guarded_of_forall
    intro as l bs s he hs
    constructor
    · intro hf
      obtain ⟨t, id, hl, hp, hn⟩ := failsPublished_unpublishes (inv_run hs) hf
      exact hn (oncePublished_step (he ▸ h) hs hl hp).1.1
    · intro hr
      obtain ⟨t, id, hl, hp, hn⟩ := redeliversPublished_delivers hr
      exact hn (oncePublished_step (he ▸ h) hs hl hp).2
  · refine oncePublished_of_guarded hg fun s t bs hbs hrun id hp => ?_
    have hstays := guarded_mono (fun _ _ hok => hok.1) hbs
    exact ⟨stays_run hstays hrun id hp, (notRedelivered_run hbs hrun id hp).2⟩

section StaleWorker

def noticeMail : GlobalMail :=
  { (default : GlobalMail) with title := "notice", content := "hello", startTime := 0, expireTime := 90 * minute }

def twoWorkers (k : Nat) : Config := ⟨"relay-" ++ toString k, 5 * minute, 5⟩

/-- Worker 0 fails to reach Kafka and stalls before its `MarkFailed` update until after the lease;
worker 1 takes the row over and publishes it. -/
def takeover : List Label :=
  [.publishBegin 0 ⟨noticeMail, [], "", ""⟩ 0 100 7 none, .publishCreate 0 .first .ok,
    .fetch 0 10 0 0 (fun _ => false) .ok] ++
  List.replicate 5 (.work 0 0 .ok) ++ [.work 0 0 (.failed "kafka"), .work 0 0 .ok] ++
  [.fetch 1 10 (6 * minute) (6 * minute) (fun _ => false) .ok] ++
  List.replicate 7 (.work 1 (6 * minute) .ok)

def lateFailure : Label := .work 0 (7 * minute) .ok

instance (s : Store) (id : Int) : Decidable (s.Published id) :=
  inferInstanceAs (Decidable (∃ row ∈ s.db.outbox.rows, _))

def afterTakeover : World :=
  (run (step (fun _ => "") twoWorkers) init takeover).get (by decide)

def afterLateFailure : World :=
  (step (fun _ => "") twoWorkers afterTakeover lateFailure).get (by decide)

theorem takeover_not_absorbing :
    ¬ OncePublished (fun _ => "") twoWorkers Stays (takeover ++ [lateFailure]) := by
  intro h
  have htakeover : run (step (fun _ => "") twoWorkers) init takeover = some afterTakeover :=
    (Option.some_get _).symm
  have hlate : step (fun _ => "") twoWorkers afterTakeover lateFailure = some afterLateFailure :=
    (Option.some_get _).symm
  have hpublished : afterTakeover.store.Published 7 := by decide
  have hreturned : ¬ afterLateFailure.store.Published 7 := by decide
  exact hreturned (oncePublished_step h htakeover hlate hpublished).1

end StaleWorker

end GlobalMailSystem.Relay
