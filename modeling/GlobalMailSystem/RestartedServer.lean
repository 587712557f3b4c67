import GlobalMailSystem.RelayedVisible

namespace GlobalMailSystem

namespace LocalCache

theorem refill_version (now : Time) (found : List GlobalMail) (cache : SharedCache) :
    (found.foldl (refillMail now) cache).version = cache.version := by
  induction found generalizing cache with
  | nil => rfl
  | cons mail found ih =>
    rw [List.foldl_cons, ih]
    rfl

theorem rebuildSharedCache_version (mails : Table GlobalMail.id) (cache : SharedCache) (version : Int) (now : Time)
    (token : Int) : (rebuildSharedCache mails cache version now token).1.version = cache.version := by
  obtain ⟨locks, hlocks⟩ := cache.tryAcquire_locks version token Refresh.globalMailRebuildLockTTL now
  simp only [rebuildSharedCache, hlocks]
  split_ifs
  · obtain ⟨released, hreleased⟩ := SharedCache.release_locks
      (loadPublishedFromMySQLAndRefill mails { cache with locks } now).1 version token now
    rw [hreleased]
    exact refill_version now _ _
  · split
    · rfl
    · exact refill_version now _ _

theorem refresh_version (mails : Table GlobalMail.id) (cache : SharedCache) (version : Int) (now : Time) (token : Int) :
    (refresh mails cache version now token).1.version = cache.version := by
  simp only [refresh, loadMails]
  split
  · rfl
  · exact rebuildSharedCache_version mails cache version now token

end LocalCache

namespace Visibility

open Transition Relay

variable {n : Nat} {sha256 : PublishPayload → String} {config : Nat → Config}

inductive ServerLabel (n : Nat)
  | machine (l : Label n)
  | restart (k : Fin n) (refreshed : Bool) (token : Int)

def World.restart (w : World n) (k : Fin n) (refreshed : Bool) (token : Int) : World n :=
  if refreshed then w.serve k (LocalCache.forceRefresh w.mails w.cache w.clock token)
  else w.serve k (w.cache, .new 0 zeroTime)

def serverStep (sha256 : PublishPayload → String) (config : Nat → Config) (w : World n) :
    ServerLabel n → Option (World n)
  | .machine l => step sha256 config w l
  | .restart k refreshed token => some (w.restart k refreshed token)

/-- `Publish` gives every mail version 1, and nothing in Redis or Kafka goes beyond it. -/
structure Unversioned (w : Relay.World) : Prop where
  relay : Relay.Inv w
  sound : LocalCache.Sound w.store.db.mails w.store.cache
  rows : ∀ row ∈ w.store.db.outbox.rows, row.version = 1
  version : w.store.cache.version ≤ 1
  events : ∀ event, accepted w.store.log event = true → event.version = 1

section Relaying

variable {w w' : Relay.World} {l : Relay.Label}

theorem accepted_append {log extra : List Effect} {event : GlobalMailChangedEvent} :
    accepted (log ++ extra) event = true ↔ accepted log event = true ∨ accepted extra event = true := by
  simp [accepted, List.any_append]

theorem Unversioned.event_version (hw : Unversioned w) {event : OutboxEvent} (h : w.store.Has event) :
    event.version = 1 := by
  obtain ⟨row, hrow, hsame⟩ := h
  exact hsame.version.symm.trans (hw.rows row hrow)

theorem rows_relay (hw : Unversioned w) (h : Relay.step sha256 config w l = some w') :
    ∀ row ∈ w'.store.db.outbox.rows, row.version = 1 := by
  rcases step_store h with hs | ⟨a, hi, hs⟩
  · rw [hs]
    exact hw.rows
  · intro row hrow
    rw [hs] at hrow
    cases act_row hrow with
    | kept hold => exact hw.rows row hold
    | created =>
      cases hi with
      | create hp =>
        have hrows := hw.relay.publishers _ _ hp
        exact hrows.version.trans hrows.mailVersion
    | @fetched _ _ _ _ _ _ old hold => exact hw.rows old hold
    | published hold => exact (sameEvent_publishedRow _ _).version.trans (hw.rows _ hold)
    | failed hold => exact (sameEvent_failedRow _ _ _ _ _).version.trans (hw.rows _ hold)

theorem version_act (hw : Unversioned w) {a : Action} (hi : Issues config w l a) :
    (w.store.act a).cache.version ≤ 1 ∧
      ∀ event, accepted (a.effects w.store) event = true → event.version = 1 := by
  -- the version moves, and an event is accepted, only with the version of a stored event
  have hversion : w.store.cache.version ≤ 1 := hw.version
  cases hi with
  | create hp =>
    refine ⟨?_, fun event hevent => by cases hevent⟩
    simp only [Store.act]
    split <;> exact hversion
  | fetch hk =>
    refine ⟨hversion, fun event hevent => ?_⟩
    obtain ⟨effect, heffect, hmatch⟩ := List.any_eq_true.mp hevent
    obtain ⟨_, _, rfl⟩ := List.mem_map.mp heffect
    cases hmatch
  | setMail hk => exact ⟨hversion, fun event hevent => by cases hevent⟩
  | addIndexes hk => exact ⟨hversion, fun event hevent => by cases hevent⟩
  | @advance k _ _ t hk =>
    refine ⟨?_, fun event hevent => by cases hevent⟩
    have hpc : PCOk w.store (.advance t) := hk ▸ hw.relay.workers k
    have htarget := hw.event_version hpc.1.stored
    simp only [Store.act, SharedCache.apply, SharedCache.advanceGlobalMailVersion, htarget]
    split_ifs <;> omega
  | @accept k _ _ t hk _ =>
    refine ⟨hversion, fun event hevent => ?_⟩
    have hpc : PCOk w.store (.publish t) := hk ▸ hw.relay.workers k
    have hsame : t.changed = event := by simpa [accepted, Action.effects] using hevent
    rw [← hsame, hpc.1.announced.version]
    exact hw.event_version hpc.1.stored
  | markPublished hk => exact ⟨hversion, fun event hevent => by cases hevent⟩
  | markFailed hk _ => exact ⟨hversion, fun event hevent => by cases hevent⟩

theorem unversioned_relay (hw : Unversioned w) (h : Relay.step sha256 config w l = some w') : Unversioned w' := by
  refine ⟨(Relay.inv_step hw.relay h).1, sound_step hw.relay hw.sound h, rows_relay hw h, ?_, ?_⟩
  · rcases step_store h with hs | ⟨a, hi, hs⟩
    · rw [hs]
      exact hw.version
    · rw [hs]
      exact (version_act hw hi).1
  · intro event hevent
    rcases step_store h with hs | ⟨a, hi, hs⟩
    · rw [show w'.store.log = w.store.log by rw [hs]] at hevent
      exact hw.events event hevent
    · rw [show w'.store.log = w.store.log ++ a.effects w.store by rw [hs, act_log], accepted_append] at hevent
      exact hevent.elim (hw.events event) ((version_act hw hi).2 event)

theorem Unversioned.setCache (hw : Unversioned w) {cache : SharedCache}
    (hgrows : SharedCache.Grows w.store.db.mails w.store.cache cache)
    (hsound : LocalCache.Sound w.store.db.mails cache) (hversion : cache.version = w.store.cache.version) :
    Unversioned { w with store := { w.store with cache } } := by
  have hg : Relay.Grows w.store { w.store with cache } := ⟨fun _ hm => hm, fun _ he => he, hgrows, fun _ he => he⟩
  exact ⟨⟨hw.relay.announced, fun j => (hw.relay.workers j).mono hg, hw.relay.publishers⟩, hsound, hw.rows,
    hversion.le.trans hw.version, hw.events⟩

theorem unversioned_start : Unversioned Relay.init :=
  have hinit := inv_init 0 0
  ⟨hinit.relay, hinit.sound, fun _ hrow => absurd hrow List.not_mem_nil, Int.zero_le_ofNat 1,
    fun _ hevent => by cases hevent⟩

end Relaying

structure Served (w : World n) : Prop where
  relay : Unversioned w.relay
  stored : ∀ k id mail, (w.snapshots k).mailsByID id = some mail → mail ∈ w.mails.rows ∧ mail.id = id
  projected : ∀ row ∈ w.outbox.rows, row.status = .published →
    ∃ mail ∈ w.mails.rows, mail.id = row.aggregateID ∧ w.cache.Indexed mail

section Serving

variable {w w' : World n} {k : Fin n} {relay : Relay.World} {l : Relay.Label}

theorem projected_relay (hw : Served w) (h : Relay.step sha256 config w.relay l = some relay) :
    ∀ row ∈ relay.store.db.outbox.rows, row.status = .published →
      ∃ mail ∈ relay.store.db.mails.rows, mail.id = row.aggregateID ∧ relay.store.cache.Indexed mail := by
  have hinv := hw.relay.relay
  have hg := (Relay.inv_step hinv h).2
  intro row hrow hstatus
  rcases published_step hinv h hrow hstatus with ⟨old, hold, hp, hsame⟩ | ⟨j, now, outcome, t, rfl, hj, hsame⟩
  · obtain ⟨mail, hm, hid, hi⟩ := hw.projected old hold hp
    exact ⟨mail, hg.mails mail hm, hid.trans hsame.aggregateID.symm, hg.cache.indexes mail hm hi⟩
  · have hpc : PCOk w.relay.store (.markPublished t) := hj ▸ hinv.workers j
    obtain ⟨ht, _, hi, _⟩ := hpc
    exact ⟨t.mail, hg.mails _ ht.mail, ht.aggregate.trans hsame.aggregateID.symm, hg.cache.indexes _ ht.mail hi⟩

theorem served_relay (hw : Served w) (h : Relay.step sha256 config w.relay l = some relay) :
    Served { w with relay } := by
  have hg := (Relay.inv_step hw.relay.relay h).2
  refine ⟨unversioned_relay hw.relay h, fun k id mail hm => ?_, projected_relay hw h⟩
  obtain ⟨hrow, hid⟩ := hw.stored k id mail hm
  exact ⟨hg.mails mail hrow, hid⟩

theorem serve_self (r : SharedCache × CacheSnapshot) : (w.serve k r).snapshots k = r.2 := by
  simp [World.serve]

theorem serve_other {j : Fin n} (h : k ≠ j) (r : SharedCache × CacheSnapshot) :
    (w.serve j r).snapshots k = w.snapshots k := by
  simp [World.serve, h]

theorem Served.serve {r : SharedCache × CacheSnapshot} (hw : Served w)
    (hsound : LocalCache.Sound w.mails r.1) (hgrows : SharedCache.Grows w.mails w.cache r.1)
    (hversion : r.1.version = w.cache.version)
    (hstored : ∀ id mail, r.2.mailsByID id = some mail → mail ∈ w.mails.rows ∧ mail.id = id) :
    Served (w.serve k r) := by
  refine ⟨hw.relay.setCache hgrows hsound hversion, fun j id mail hmail => ?_, fun row hrow hstatus => ?_⟩
  · by_cases hj : j = k
    · rw [hj, serve_self] at hmail
      exact hstored id mail hmail
    · rw [serve_other hj] at hmail
      exact hw.stored j id mail hmail
  · obtain ⟨mail, hm, hid, hi⟩ := hw.projected row hrow hstatus
    exact ⟨mail, hm, hid, hgrows.indexes mail hm hi⟩

theorem Served.refresh (hw : Served w) (version token : Int) :
    Served (w.serve k (LocalCache.refresh w.mails w.cache version w.clock token)) := by
  have hr := LocalCache.refresh_refreshed hw.relay.sound version w.clock token
  exact hw.serve hr.sound hr.grows (LocalCache.refresh_version _ _ _ _ _) hr.stored

theorem served_step {l : ServerLabel n} (hw : Served w) (h : serverStep sha256 config w l = some w') : Served w' := by
  cases l with
  | machine l =>
    cases l with
    | relay l =>
      obtain ⟨relay, hl, rfl⟩ := Option.map_eq_some_iff.mp h
      exact served_relay hw hl
    | tick elapsed =>
      cases h
      exact ⟨hw.relay, hw.stored, hw.projected⟩
    | poll k token =>
      cases h
      simp only [LocalCache.refreshIfStale]
      split_ifs
      · rw [serve_unchanged]
        exact hw
      · exact hw.refresh _ token
    | handle k event token =>
      simp only [serverStep, step] at h
      split_ifs at h
      cases h
      simp only [EventConsumer.handle]
      split_ifs
      · rw [serve_unchanged]
        exact hw
      · exact hw.refresh _ token
  | restart k refreshed token =>
    cases h
    simp only [World.restart]
    split_ifs
    · exact hw.refresh _ token
    · exact hw.serve hw.relay.sound (.refl _ _) rfl fun id mail hmail => by cases hmail

theorem served_run {start : Nat} {ls : List (ServerLabel n)}
    (h : run (serverStep sha256 config) (init n start) ls = some w) : Served w := by
  have hinit : Served (init n start) :=
    ⟨unversioned_start, (fun _ _ _ hmail => by cases hmail), fun _ hrow => absurd hrow List.not_mem_nil⟩
  exact run_invariant (fun _ _ _ hs hl => served_step hs hl) hinit h

end Serving

theorem restart_shows_relayed (sha256 : PublishPayload → String) (config : Nat → Config) {start : Nat}
    {ls : List (ServerLabel n)} {w w' : World n} {k : Fin n} {token : Int}
    (h : run (serverStep sha256 config) (init n start) ls = some w)
    (h' : serverStep sha256 config w (.restart k true token) = some w') :
    (∀ row ∈ w.outbox.rows, row.status = .published → ∃ mail ∈ w.mails.rows, mail.id = row.aggregateID ∧
      (w.clock < mail.expireTime → (w'.snapshots k).mailsByID mail.id = some mail)) ∧
    ∀ id mail, (w'.snapshots k).mailsByID id = some mail → mail ∈ w.mails.rows ∧ mail.id = id := by
  have hw := served_run h
  have hr := LocalCache.refresh_refreshed hw.relay.sound w.cache.version w.clock token
  cases h'
  simp only [World.restart, if_true, serve_self]
  refine ⟨fun row hrow hstatus => ?_, hr.stored⟩
  obtain ⟨mail, hm, hid, hi⟩ := hw.projected row hrow hstatus
  exact ⟨mail, hm, hid, hr.shows mail hm hi⟩

def soleServer : Fin 1 := ⟨0, Nat.one_pos⟩

def frozenLabels : List (ServerLabel 1) := (relayed 0 100 7 ++ [Label.poll soleServer 5]).map .machine

def frozenWorld : World 1 := (run (serverStep (fun _ => "") twoWorkers) (init 1 0) frozenLabels).get (by decide)

def laterLabels : List (ServerLabel 1) :=
  (relayed 1 101 8 ++ [Label.poll soleServer 6, Label.handle soleServer secondEvent 7]).map .machine

def laterWorld : World 1 := (run (serverStep (fun _ => "") twoWorkers) frozenWorld laterLabels).get (by decide)

theorem laterWorld_restarted : ∃ w, serverStep (fun _ => "") twoWorkers laterWorld (.restart 0 true 9) = some w ∧
    ∀ row ∈ laterWorld.outbox.rows, row.status = .published → ∃ mail ∈ laterWorld.mails.rows,
      mail.id = row.aggregateID ∧ (laterWorld.clock < mail.expireTime → (w.snapshots 0).mailsByID mail.id = some mail) := by
  have hrun : run (serverStep (fun _ => "") twoWorkers) (init 1 0) (frozenLabels ++ laterLabels) = some laterWorld :=
    run_append.mpr ⟨frozenWorld, (Option.some_get _).symm, (Option.some_get _).symm⟩
  exact ⟨_, rfl, (restart_shows_relayed (fun _ => "") twoWorkers hrun rfl).1⟩

end Visibility

end GlobalMailSystem
