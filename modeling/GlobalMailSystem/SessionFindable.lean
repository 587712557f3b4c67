import GlobalMailSystem.HeartbeatPutBack

namespace GlobalMailSystem.Connections

open Transition

structure Clocked where
  now : Time
  manager : Manager
  calls : Nat

inductive Event
  | tick (t : Time)
  | bind (req : BindSessionRequest)
  | heartbeat (uid : Int) (connID : String)

def Clocked.init (now : Time) : Clocked := ⟨now, ⟨.new, fun _ => none⟩, 0⟩

variable (config : Config)

def clockedStep (s : Clocked) : Event → Option Clocked
  | .tick t => if s.now ≤ t then some { s with now := t } else none
  | .bind req =>
    some ⟨s.now, (s.manager.bind config s.calls s.now s.now .ok req).1, s.calls + 1⟩
  | .heartbeat uid connID =>
    some ⟨s.now, (s.manager.heartbeat config s.now s.now .ok uid connID).1, s.calls + 1⟩

/-- The clock passes the time a heartbeat without renewal is good for, or such a heartbeat brings an
expired session back. -/
def outlives (uid : Int) (s : Clocked) : Event → Bool
  | .tick t =>
    match s.manager.pool.get uid with
    | none => false
    | some session =>
      session.lastRenewAt ≠ session.lastHeartbeatAt && t < session.expireAt &&
        session.lastHeartbeatAt + config.ttl - config.renewEvery < t
  | .bind _ => false
  | .heartbeat u connID =>
    match checkSession (s.manager.pool.get u) connID with
    | .error _ => false
    | .ok session => u = uid && !decide (renewDue config s.now session) && session.expireAt ≤ s.now

structure Tracked (session : Session) (now : Time) (record : Option (Stored GateConn)) : Prop where
  expire : session.expireAt = session.lastHeartbeatAt + config.ttl
  gap : session.lastHeartbeatAt - session.lastRenewAt < config.renewEvery
  record : ∃ stored, record = some stored ∧ stored.keyExpireAt = session.lastRenewAt + config.ttl
  live : now < session.expireAt → now < session.lastRenewAt + config.ttl

structure Findable (uid : Int) (s : Clocked) : Prop where
  keyed : Keyed s.manager.pool
  tracked : ∀ session, s.manager.pool.get uid = some session →
    Tracked config session s.now (s.manager.store uid)

variable {config} {uid : Int} {s s' : Clocked}

theorem before_lapse {now renewed beaten ttl every : Int} (hgap : beaten - renewed < every)
    (hsoon : now ≤ beaten + ttl - every) : now < renewed + ttl := by
  -- a heartbeat that did not renew the record leaves it alive for the TTL less the renewal interval
  omega

theorem findable_tick (h : Findable config uid s) {t : Time}
    (hok : outlives config uid s (.tick t) = false) : Findable config uid { s with now := t } := by
  refine ⟨h.keyed, fun session hget => ?_⟩
  have hsession := h.tracked session hget
  refine ⟨hsession.expire, hsession.gap, hsession.record, fun hlt => ?_⟩
  simp only [outlives, show s.manager.pool.get uid = some session from hget] at hok
  by_cases hfresh : session.lastRenewAt = session.lastHeartbeatAt
  · rw [hfresh, ← hsession.expire]
    exact hlt
  · have hsoon : t ≤ session.lastHeartbeatAt + config.ttl - config.renewEvery := by
      simpa [hfresh, hlt] using hok
    exact before_lapse hsession.gap hsoon

theorem findable_written (h : Findable config uid s) {session : Session} (calls : Nat)
    (hexpire : session.expireAt = s.now + config.ttl) (hbeat : session.lastHeartbeatAt = s.now)
    (hrenew : session.lastRenewAt = s.now) :
    Findable config uid ⟨s.now, (s.manager.writeAndSet config session s.now .ok).1, calls⟩ := by
  refine ⟨keyed_set h.keyed session, fun found hget => ?_⟩
  have hget : (s.manager.pool.set session).get uid = some found := hget
  have hstore : (s.manager.writeAndSet config session s.now .ok).1.store =
      setGateConn s.manager.store (toGateConn session) config.ttl s.now := rfl
  rw [hstore]
  simp only [setGateConn, RoutingKeys.set, toGateConn, Function.update_apply,
    RoutingKeys.keyTTL_of_pos config.ttl_pos]
  rw [ConnectionPool.get_set] at hget
  split_ifs at hget with hu
  · have he : session = found := Option.some.inj hget
    subst he
    rw [if_pos hu]
    refine ⟨by rw [hexpire, hbeat], ?_, ⟨_, rfl, by rw [hrenew]⟩, fun hlt => ?_⟩
    · rw [hbeat, hrenew, Int.sub_self]
      exact config.renewEvery_pos
    · rw [hrenew, ← hexpire]
      exact hlt
  · rw [if_neg hu]
    exact h.tracked found hget

theorem findable_beat (h : Findable config uid s) {u : Int} {connID : String} {session : Session}
    (hcheck : checkSession (s.manager.pool.get u) connID = .ok session)
    (hdue : ¬ renewDue config s.now session)
    (hok : outlives config uid s (.heartbeat u connID) = false) (calls : Nat) :
    Findable config uid
      ⟨s.now, { s.manager with pool := s.manager.pool.set (beat config s.now session) }, calls⟩ := by
  have hslot := checkSession_ok hcheck
  have hkey : session.uid = u := h.keyed u session hslot
  refine ⟨keyed_set h.keyed _, fun found hget => ?_⟩
  simp only [ConnectionPool.get_set] at hget
  split_ifs at hget with hu
  · have he : beat config s.now session = found := Option.some.inj hget
    subst he
    have huid : uid = u := hu.trans hkey
    subst huid
    have hsession := h.tracked session hslot
    have hnow : s.now < session.expireAt := by
      simpa [outlives, hcheck, hdue] using hok
    refine ⟨rfl, not_le.mp hdue, hsession.record, fun _ => hsession.live hnow⟩
  · exact h.tracked found hget

theorem findable_step (h : Findable config uid s) {e : Event} (hok : outlives config uid s e = false)
    (hstep : clockedStep config s e = some s') : Findable config uid s' := by
  cases e with
  | tick t =>
    simp only [clockedStep] at hstep
    split_ifs at hstep
    cases hstep
    exact findable_tick h hok
  | bind req =>
    cases hstep
    exact findable_written h _ rfl rfl rfl
  | heartbeat u connID =>
    cases hstep
    unfold Manager.heartbeat
    cases hcheck : checkSession (s.manager.pool.get u) connID with
    | error err => exact ⟨h.keyed, h.tracked⟩
    | ok session =>
      simp only
      split_ifs with hdue
      · exact findable_written h _ rfl rfl rfl
      · exact findable_beat h hcheck hdue hok _

theorem findable_init (now : Time) : Findable config uid (.init now) where
  keyed _ _ h := by cases h
  tracked session h := by cases h

theorem live_session_findable (config : Config) (uid : Int) (start : Time) (events : List Event) (s : Clocked)
    (hguard : Guarded (clockedStep config) (fun s e => outlives config uid s e = false) (.init start) events)
    (h : run (clockedStep config) (.init start) events = some s) (session : Session)
    (hsession : s.manager.pool.get uid = some session) (hlive : s.now < session.expireAt) :
    ∃ conn, getGateConn s.manager.store uid s.now = some conn := by
  have hs : Findable config uid s :=
    guarded_invariant (fun _ _ _ hs hok hl => findable_step hs hok hl) (findable_init start) hguard h
  have htracked := hs.tracked session hsession
  obtain ⟨stored, hstored, hexpire⟩ := htracked.record
  refine ⟨stored.value, ?_⟩
  simp only [getGateConn, RoutingKeys.get, hstored]
  rw [if_pos]
  rw [hexpire]
  exact htracked.live hlive

def config90 : Config := ⟨"gateway-0", 90 * second, 30 * second⟩

def regular : List Event :=
  [.bind (request "first" 1), .tick (20 * second), .heartbeat 7 "first", .tick (80 * second),
    .heartbeat 7 "first", .tick (169 * second)]

def afterRegular : Clocked := (run (clockedStep config90) (.init 0) regular).get (by decide +kernel)

def regularSession : Session := (afterRegular.manager.pool.get 7).get (by decide +kernel)

theorem regular_findable :
    afterRegular.now < regularSession.expireAt ∧
      ∃ conn, getGateConn afterRegular.manager.store 7 afterRegular.now = some conn :=
  ⟨by decide +kernel, live_session_findable config90 7 0 regular afterRegular (by decide +kernel)
    (Option.some_get _).symm regularSession (Option.some_get _).symm (by decide +kernel)⟩

def sparse : List Event :=
  [.bind (request "first" 1), .tick (20 * second), .heartbeat 7 "first", .tick (100 * second)]

def afterSparse : Clocked := (run (clockedStep config90) (.init 0) sparse).get (by decide +kernel)

theorem sparse_not_findable :
    run (clockedStep config90) (.init 0) sparse = some afterSparse ∧ afterSparse.now = 100 * second ∧
      (afterSparse.manager.pool.get 7).map (·.expireAt) = some (110 * second) ∧
      (getGateConn afterSparse.manager.store 7 (100 * second)).isNone = true :=
  ⟨(Option.some_get _).symm, by decide +kernel, by decide +kernel, by decide +kernel⟩

theorem clocked_reached {start : Time} {events : List Event}
    (h : run (clockedStep config) (.init start) events = some s) :
    ∃ w : World 1, Reaches (step fun _ => config) (fun _ => True) init w ∧
      w.pools = (fun _ => s.manager.pool) ∧ w.store = s.manager.store ∧ w.calls.length = s.calls := by
  apply run_invariant (I := fun s => ∃ w : World 1, Reaches (step fun _ => config) (fun _ => True) init w ∧
    w.pools = (fun _ => s.manager.pool) ∧ w.store = s.manager.store ∧ w.calls.length = s.calls) _ _ h
  · rintro s e s' ⟨w, hreach, hpools, hstore, hcalls⟩ hstep
    have hmanager : (⟨w.pools 0, w.store⟩ : Manager) = s.manager := by rw [hpools, hstore]
    have hafter : ∀ r : Manager × Except ConnectionError Session,
        (w.after 0 r).pools = (fun _ => r.1.pool) ∧ (w.after 0 r).store = r.1.store ∧
          (w.after 0 r).calls.length = s.calls + 1 := by
      intro r
      refine ⟨?_, rfl, by simp [World.after, hcalls]⟩
      funext g
      rw [Subsingleton.elim g 0]
      exact Function.update_self 0 r.1.pool w.pools
    cases e with
    | tick t =>
      simp only [clockedStep] at hstep
      split_ifs at hstep
      cases hstep
      exact ⟨w, hreach, hpools, hstore, hcalls⟩
    | bind req =>
      cases hstep
      have hbind := @bind_reached 1 (fun _ => config) w 0 s.now s.now .ok req
      rw [hmanager, hcalls] at hbind
      exact ⟨_, hreach.trans hbind, hafter _⟩
    | heartbeat uid connID =>
      cases hstep
      have hbeat := @heartbeat_reached 1 (fun _ => config) w 0 s.now s.now .ok uid connID
      rw [hmanager] at hbeat
      exact ⟨_, hreach.trans hbeat, hafter _⟩
  · exact ⟨init, .refl _, rfl, rfl, rfl⟩

end GlobalMailSystem.Connections
