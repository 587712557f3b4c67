import GlobalMailSystem.VisibilityMachine

namespace GlobalMailSystem.Visibility

open Transition Relay

variable {n : Nat} {sha256 : PublishPayload → String} {config : Nat → Config}

/-- A server's snapshot already has the version of an event that is about to be marked published,
and lacks its mail. -/
def outrun (w : World n) : Label n → Bool
  | .relay (.work j _ _) =>
    match w.relay.workers j with
    | .markPublished t =>
      decide (∃ k, t.event.version ≤ (w.snapshots k).version ∧
        (w.snapshots k).mailsByID t.mail.id = none)
    | _ => false
  | _ => false

structure Inv (w : World n) : Prop where
  relay : Relay.Inv w.relay
  sound : LocalCache.Sound w.mails w.cache
  stored : ∀ k id mail, (w.snapshots k).mailsByID id = some mail → mail ∈ w.mails.rows ∧ mail.id = id
  time : ∀ k, (w.snapshots k).lastRefreshTime ≤ w.clock
  published : ∀ row ∈ w.outbox.rows, row.status = .published →
    ∃ mail ∈ w.mails.rows, mail.id = row.aggregateID ∧ w.cache.Indexed mail ∧
      row.version ≤ w.cache.version
  shown : ∀ k, ∀ row ∈ w.outbox.rows, row.status = .published → ∀ mail ∈ w.mails.rows,
    mail.id = row.aggregateID → row.version ≤ (w.snapshots k).version →
      (w.snapshots k).lastRefreshTime < mail.expireTime → (w.snapshots k).mailsByID mail.id = some mail

theorem sound_step {w w' : Relay.World} {l : Relay.Label} (hw : Relay.Inv w)
    (hs : LocalCache.Sound w.store.db.mails w.store.cache)
    (h : Relay.step sha256 config w l = some w') :
    LocalCache.Sound w'.store.db.mails w'.store.cache := by
  rcases step_store h with he | ⟨a, hi, he⟩
  · rw [he]
    exact hs
  · rw [he]
    cases hi with
    | create hp =>
      simp only [Store.act]
      split
      · exact hs
      · rename_i db hcreate
        refine hs.mono fun mail hm => ?_
        rw [(Publisher.create_rows hcreate).mails]
        exact List.mem_append_left _ hm
    | fetch hk => exact hs
    | @setMail k now outcome t hk =>
      have hpc : PCOk w.store (.setMail t) := hk ▸ hw.workers k
      exact hs.setGlobalMail hpc.mail now
    | @addIndexes k now outcome t hk =>
      have hpc : PCOk w.store (.addIndexes t) := hk ▸ hw.workers k
      exact hs.addGlobalMailToIndexes hpc.1.mail hpc.2
    | advance hk => exact ⟨hs.details, hs.index⟩
    | accept hk hex => exact hs
    | markPublished hk => exact hs
    | markFailed hk hex => exact hs

theorem published_step {w w' : Relay.World} {l : Relay.Label} {row : OutboxEvent} (hw : Relay.Inv w)
    (h : Relay.step sha256 config w l = some w') (hrow : row ∈ w'.store.db.outbox.rows)
    (hstatus : row.status = .published) :
    (∃ old ∈ w.store.db.outbox.rows, old.status = .published ∧ SameEvent row old) ∨
      ∃ j now outcome t, l = .work j now outcome ∧ w.workers j = .markPublished t ∧
        SameEvent row t.event := by
  have hg := (inv_step hw h).2
  have same {event : OutboxEvent} (hhas : w.store.Has event) (hid : event.id = row.id) :
      SameEvent row event := by
    obtain ⟨held, hheld, hsame⟩ := hg.events event hhas
    obtain rfl : held = row := w'.store.db.outbox.row_unique hheld hrow (hsame.id.trans hid)
    exact hsame
  by_cases hbefore : w.store.Published row.id
  · obtain ⟨old, hold, hid, hp⟩ := hbefore
    exact Or.inl ⟨old, hold, hp, same ⟨old, hold, SameEvent.refl old⟩ hid⟩
  · obtain ⟨j, now, outcome, t, rfl, hj, hid⟩ :=
      publishing_step hw h hbefore ⟨row, hrow, rfl, hstatus⟩
    have hpc : PCOk w.store (.markPublished t) := hj ▸ hw.workers j
    exact Or.inr ⟨j, now, outcome, t, rfl, hj, same hpc.1.stored hid⟩

theorem inv_relay {w : World n} {relay : Relay.World} {l : Relay.Label} (hw : Inv w)
    (hok : outrun w (.relay l) = false) (h : Relay.step sha256 config w.relay l = some relay) :
    Inv { w with relay } := by
  obtain ⟨hrelay, hg⟩ := inv_step hw.relay h
  refine ⟨hrelay, sound_step hw.relay hw.sound h, fun k id mail hm => ?_, hw.time,
    fun row hrow hstatus => ?_, fun k row hrow hstatus mail hmail hid hversion htime => ?_⟩
  · obtain ⟨hrow, hid⟩ := hw.stored k id mail hm
    exact ⟨hg.mails mail hrow, hid⟩
  · rcases published_step hw.relay h hrow hstatus with
      ⟨old, hold, hp, hsame⟩ | ⟨j, now, outcome, t, rfl, hj, hsame⟩
    · obtain ⟨mail, hm, hid, hi, hv⟩ := hw.published old hold hp
      refine ⟨mail, hg.mails mail hm, hid.trans hsame.aggregateID.symm, hg.cache.indexes mail hm hi, ?_⟩
      rw [hsame.version]
      exact hv.trans hg.cache.version
    · have hpc : PCOk w.relay.store (.markPublished t) := hj ▸ hw.relay.workers j
      obtain ⟨ht, _, hi, hv, _⟩ := hpc
      refine ⟨t.mail, hg.mails _ ht.mail, ht.aggregate.trans hsame.aggregateID.symm,
        hg.cache.indexes _ ht.mail hi, ?_⟩
      rw [hsame.version]
      exact hv.trans hg.cache.version
  · have unique {m : GlobalMail} (hm : m ∈ w.mails.rows) (he : m.id = row.aggregateID) : m = mail :=
      relay.store.db.mails.row_unique (hg.mails m hm) hmail (he.trans hid.symm)
    rcases published_step hw.relay h hrow hstatus with
      ⟨old, hold, hp, hsame⟩ | ⟨j, now, outcome, t, rfl, hj, hsame⟩
    · obtain ⟨m, hm, he, _⟩ := hw.published old hold hp
      obtain rfl := unique hm (he.trans hsame.aggregateID.symm)
      exact hw.shown k old hold hp m hm he (hsame.version ▸ hversion) htime
    · have hpc : PCOk w.relay.store (.markPublished t) := hj ▸ hw.relay.workers j
      obtain rfl := unique hpc.1.mail (hpc.1.aggregate.trans hsame.aggregateID.symm)
      rw [hsame.version] at hversion
      simp only [outrun, hj, decide_eq_false_iff_not, not_exists, not_and] at hok
      obtain ⟨m, hm⟩ := Option.ne_none_iff_exists'.mp (hok k hversion)
      obtain ⟨hrow', hid'⟩ := hw.stored k _ m hm
      rw [hm, w.mails.row_unique hrow' hpc.1.mail hid']

theorem grows_serve (w : World n) (k : Fin n) {r : SharedCache × CacheSnapshot}
    (h : SharedCache.Grows w.mails w.cache r.1) :
    Relay.Grows w.relay.store (w.serve k r).relay.store where
  mails _ hm := hm
  events _ he := he
  cache := h
  log _ he := he

theorem inv_refreshed {w : World n} {k : Fin n} {r : SharedCache × CacheSnapshot} (hw : Inv w)
    (hr : LocalCache.Refreshed w.mails w.cache w.clock r) : Inv (w.serve k r) := by
  have hg := grows_serve w k hr.grows
  have hindexed : ∀ row ∈ w.outbox.rows, row.status = .published → ∀ mail ∈ w.mails.rows,
      mail.id = row.aggregateID → w.cache.Indexed mail := by
    intro row hrow hstatus mail hm hid
    obtain ⟨m, hm', hid', hi, _⟩ := hw.published row hrow hstatus
    rw [w.mails.row_unique hm hm' (hid.trans hid'.symm)]
    exact hi
  have hsnapshot (P : CacheSnapshot → Prop) (hold : ∀ j, P (w.snapshots j)) (hnew : P r.2) (j : Fin n) :
      P ((w.serve k r).snapshots j) := by
    simp only [World.serve, Function.update_apply]
    split_ifs
    · exact hnew
    · exact hold j
  refine ⟨⟨hw.relay.announced, fun j => (hw.relay.workers j).mono hg, hw.relay.publishers⟩, hr.sound,
    ?_, ?_, ?_, ?_⟩
  · exact hsnapshot (fun snapshot => ∀ id mail, snapshot.mailsByID id = some mail →
      mail ∈ w.mails.rows ∧ mail.id = id) hw.stored hr.stored
  · exact hsnapshot (fun snapshot => snapshot.lastRefreshTime ≤ w.clock) hw.time (le_of_eq hr.time)
  · intro row hrow hstatus
    obtain ⟨mail, hm, hid, hi, hv⟩ := hw.published row hrow hstatus
    exact ⟨mail, hm, hid, hg.cache.indexes mail hm hi, hv.trans hg.cache.version⟩
  · apply hsnapshot (fun snapshot => ∀ row ∈ w.outbox.rows, row.status = .published →
      ∀ mail ∈ w.mails.rows, mail.id = row.aggregateID → row.version ≤ snapshot.version →
        snapshot.lastRefreshTime < mail.expireTime → snapshot.mailsByID mail.id = some mail) hw.shown
    intro row hrow hstatus mail hm hid _ htime
    rw [hr.time] at htime
    exact hr.shows mail hm (hindexed row hrow hstatus mail hm hid) htime

theorem serve_unchanged (w : World n) (k : Fin n) : w.serve k (w.cache, w.snapshots k) = w := by
  simp only [World.serve, World.cache, Function.update_eq_self]

theorem inv_step {w w' : World n} {l : Label n} (hw : Inv w) (hok : outrun w l = false)
    (h : step sha256 config w l = some w') : Inv w' := by
  cases l with
  | relay l =>
    obtain ⟨relay, hl, rfl⟩ := Option.map_eq_some_iff.mp h
    exact inv_relay hw hok hl
  | tick elapsed =>
    cases h
    refine ⟨hw.relay, hw.sound, hw.stored, fun k => ?_, hw.published, hw.shown⟩
    have htime := hw.time k
    have helapsed : (0 : Time) ≤ elapsed := Int.natCast_nonneg elapsed
    show (w.snapshots k).lastRefreshTime ≤ w.clock + elapsed
    linarith
  | poll k token =>
    cases h
    rcases LocalCache.refreshIfStale_cases hw.sound (w.snapshots k) w.clock token with ⟨_, he⟩ | hr
    · rw [he, serve_unchanged]
      exact hw
    · exact inv_refreshed hw hr
  | handle k event token =>
    simp only [step] at h
    split_ifs at h
    cases h
    rcases LocalCache.handle_cases hw.sound (w.snapshots k) event w.clock token with ⟨_, he⟩ | hr
    · rw [he, serve_unchanged]
      exact hw
    · exact inv_refreshed hw hr

theorem inv_init (n start : Nat) : Inv (init n start) where
  relay := Relay.inv_init
  sound := ⟨(fun id cached hd => by cases hd), fun e he => absurd he List.not_mem_nil⟩
  stored k id mail hm := by cases hm
  time k := by
    have hstart : (0 : Time) ≤ start := Int.natCast_nonneg start
    have hzero : zeroTime ≤ 0 := by decide
    exact hzero.trans hstart
  published row hrow := absurd hrow List.not_mem_nil
  shown k row hrow := absurd hrow List.not_mem_nil

inductive Serves : Label n → Fin n → OutboxEvent → Prop
  | poll {k : Fin n} {token : Int} {row : OutboxEvent} : Serves (.poll k token) k row
  | handle {k : Fin n} {event : GlobalMailChangedEvent} {token : Int} {row : OutboxEvent}
      (h : Announces row event) : Serves (.handle k event token) k row

def Visible (w : World n) (l : Label n) (w' : World n) : Prop :=
  ∀ k, ∀ row ∈ w.outbox.rows, row.status = .published → Serves l k row → ∀ mail ∈ w.mails.rows,
    mail.id = row.aggregateID → mail.inWindow w.clock →
      (w'.snapshots k).mailsByID mail.id = some mail

theorem visible_step {w w' : World n} {l : Label n} (hw : Inv w)
    (h : step sha256 config w l = some w') : Visible w l w' := by
  intro k row hrow hstatus hserves mail hm hid hwindow
  obtain ⟨m, hm', hid', hi, hv⟩ := hw.published row hrow hstatus
  obtain rfl : m = mail := w.mails.row_unique hm' hm (hid'.trans hid.symm)
  have hshown : row.version ≤ (w.snapshots k).version → (w.snapshots k).mailsByID m.id = some m :=
    fun hversion => hw.shown k row hrow hstatus m hm hid hversion
      (lt_of_le_of_lt (hw.time k) hwindow.2)
  cases hserves with
  | poll =>
    cases h
    simp only [World.serve, Function.update_self]
    rcases LocalCache.refreshIfStale_cases hw.sound (w.snapshots k) w.clock _ with ⟨hfresh, he⟩ | hr
    · rw [he]
      exact hshown (hv.trans hfresh)
    · exact hr.shows m hm hi hwindow.2
  | handle hann =>
    simp only [step] at h
    split_ifs at h
    cases h
    simp only [World.serve, Function.update_self]
    rcases LocalCache.handle_cases hw.sound (w.snapshots k) _ w.clock _ with ⟨hfresh, he⟩ | hr
    · rw [he]
      exact hshown (hann.version ▸ hfresh)
    · exact hr.shows m hm hi hwindow.2

theorem relayed_visible (sha256 : PublishPayload → String) (config : Nat → Config) (n start : Nat)
    (ls : List (Label n)) (l : Label n) (w w' : World n)
    (hg : Guarded (step sha256 config) (fun w l => outrun w l = false) (init n start) ls)
    (h : run (step sha256 config) (init n start) ls = some w) (hl : step sha256 config w l = some w') :
    Visible w l w' := by
  have hw : Inv w := guarded_invariant (fun s l t hs hok hl => inv_step hs hok hl)
    (inv_init n start) hg h
  exact visible_step hw hl

def publishAndFlush (p : Nat) (mailID eventID : Int) : List Relay.Label :=
  [.publishBegin p ⟨noticeMail, [], "", ""⟩ 0 mailID eventID none, .publishCreate p .first .ok,
    .fetch 0 10 0 0 (fun _ => false) .ok] ++ List.replicate 8 (.work 0 0 .ok)

def relayed (p : Nat) (mailID eventID : Int) : List (Label 1) :=
  (publishAndFlush p mailID eventID).map .relay

def firstRelayed : World 1 :=
  (run (step (fun _ => "") twoWorkers) (init 1 0) (relayed 0 100 7)).get (by decide)

theorem firstRelayed_visible :
    (∃ row ∈ firstRelayed.outbox.rows, row.status = .published ∧ row.aggregateID = 100) ∧
      ∃ w', step (fun _ => "") twoWorkers firstRelayed (.poll 0 5) = some w' ∧
        Visible firstRelayed (.poll 0 5) w' := by
  have hrun : run (step (fun _ => "") twoWorkers) (init 1 0) (relayed 0 100 7) = some firstRelayed :=
    (Option.some_get _).symm
  refine ⟨by decide, _, rfl, ?_⟩
  exact relayed_visible (fun _ => "") twoWorkers 1 0 (relayed 0 100 7) (.poll 0 5) firstRelayed _
    (by decide) hrun rfl

def secondRelayed : World 1 :=
  (run (step (fun _ => "") twoWorkers) (init 1 0)
    (relayed 0 100 7 ++ .poll 0 5 :: relayed 1 101 8)).get (by decide)

def secondEvent : GlobalMailChangedEvent := ⟨8, 101, 1, "publish", 0⟩

theorem secondRelayed_invisible :
    run (step (fun _ => "") twoWorkers) (init 1 0) (relayed 0 100 7 ++ .poll 0 5 :: relayed 1 101 8) =
        some secondRelayed ∧
      ∀ l ∈ [Label.poll 0 6, Label.handle 0 secondEvent 6], ∃ w',
        step (fun _ => "") twoWorkers secondRelayed l = some w' ∧ ¬ Visible secondRelayed l w' := by
  have hrow : ∃ row ∈ secondRelayed.outbox.rows, row.status = .published ∧ row.aggregateID = 101 ∧
      row.payload = .encoded secondEvent ∧ row.id = 8 ∧ row.version = 1 := by decide
  have hmail : ∃ mail ∈ secondRelayed.mails.rows, mail.id = 101 ∧ mail.inWindow secondRelayed.clock := by
    decide
  obtain ⟨row, hrow, hstatus, haggregate, hpayload, hid, hversion⟩ := hrow
  obtain ⟨mail, hmem, hmailID, hwindow⟩ := hmail
  have hann : Announces row secondEvent := ⟨hpayload, fun _ => hid.symm, haggregate.symm, hversion.symm⟩
  have invisible {l : Label 1} {w' : World 1} (hserves : Serves l 0 row)
      (hnone : (w'.snapshots 0).mailsByID 101 = none) : ¬ Visible secondRelayed l w' := by
    intro hvisible
    have hsome := hvisible 0 row hrow hstatus hserves mail hmem (hmailID.trans haggregate.symm) hwindow
    rw [hmailID, hnone] at hsome
    cases hsome
  refine ⟨(Option.some_get _).symm, fun l hl => ?_⟩
  rcases List.mem_cons.mp hl with rfl | hl
  · exact ⟨_, rfl, invisible .poll (by decide)⟩
  · rw [List.mem_singleton.mp hl]
    exact ⟨(step (fun _ => "") twoWorkers secondRelayed (.handle 0 secondEvent 6)).get (by decide),
      (Option.some_get _).symm, invisible (.handle hann) (by decide)⟩

end GlobalMailSystem.Visibility
