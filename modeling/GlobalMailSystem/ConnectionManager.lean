import GlobalMailSystem.ConnectionPool
import GlobalMailSystem.RoutingStore
import GlobalMailSystem.Transition

namespace GlobalMailSystem.Connections

structure Config where
  gatewayAddr : String
  sessionTTL : Time
  renewInterval : Time

/-- `NewConnectionManager` replaces durations that are not positive. -/
def Config.ttl (config : Config) : Time :=
  if config.sessionTTL ≤ 0 then 90 * second else config.sessionTTL

def Config.renewEvery (config : Config) : Time :=
  if config.renewInterval ≤ 0 then 30 * second else config.renewInterval

theorem Config.ttl_pos (config : Config) : 0 < config.ttl := by
  unfold Config.ttl
  split_ifs with h
  · decide
  · exact not_le.mp h

theorem Config.renewEvery_pos (config : Config) : 0 < config.renewEvery := by
  unfold Config.renewEvery
  split_ifs with h
  · decide
  · exact not_le.mp h

structure BindSessionRequest where
  uid : Int
  roleID : Int
  serverID : Int
  connID : String
  gatewayAddr : String
  clientIP : String
  deviceID : String
  conn : Option Conn

inductive ConnectionError
  | sessionNotFound
  | sessionMismatch
  | store (err : String)
  deriving DecidableEq

def bindSession (config : Config) (bind : Nat) (now : Time) (req : BindSessionRequest) : Session where
  uid := req.uid
  roleID := req.roleID
  serverID := req.serverID
  connID := req.connID
  gatewayAddr := if req.gatewayAddr = "" then config.gatewayAddr else req.gatewayAddr
  clientIP := req.clientIP
  deviceID := req.deviceID
  connectedAt := now
  lastHeartbeatAt := now
  lastRenewAt := now
  expireAt := now + config.ttl
  conn := req.conn
  bind := bind

def toGateConn (session : Session) : GateConn where
  uid := session.uid
  gatewayAddr := session.gatewayAddr
  clientIP := session.clientIP
  connID := session.connID
  connTime := session.connectedAt
  lastActiveTime := session.lastHeartbeatAt
  deviceID := session.deviceID
  expireAt := session.expireAt

def checkSession (slot : Option Session) (connID : String) : Except ConnectionError Session :=
  match slot with
  | none => .error .sessionNotFound
  | some session =>
    if connID ≠ "" ∧ session.connID ≠ "" ∧ connID ≠ session.connID then .error .sessionMismatch
    else .ok session

def beat (config : Config) (now : Time) (session : Session) : Session :=
  { session with lastHeartbeatAt := now, expireAt := now + config.ttl }

def renew (now : Time) (session : Session) : Session := { session with lastRenewAt := now }

def renewDue (config : Config) (now : Time) (session : Session) : Prop :=
  config.renewEvery ≤ now - session.lastRenewAt

instance (config : Config) (now : Time) (session : Session) : Decidable (renewDue config now session) :=
  inferInstanceAs (Decidable (_ ≤ _))

abbrev Pool := ConnectionPool 32

instance shards_ne_zero : NeZero 32 := ⟨by decide⟩

abbrev GateConns := RoutingKeys GateConn

def storeError : Outcome → Option ConnectionError
  | .ok => none
  | .failed err => some (.store err)
  | .lost err => some (.store err)

def writeGateConn (config : Config) (session : Session) (redisNow : Time) (outcome : Outcome)
    (store : GateConns) : GateConns :=
  if outcome.executed then setGateConn store (toGateConn session) config.ttl redisNow else store

def dropGateConn (uid : Int) (outcome : Outcome) (store : GateConns) : GateConns :=
  if outcome.executed then deleteGateConn store uid else store

structure Manager where
  pool : Pool
  store : GateConns

def Manager.writeAndSet (config : Config) (m : Manager) (session : Session) (redisNow : Time)
    (outcome : Outcome) : Manager × Except ConnectionError Session :=
  let store := writeGateConn config session redisNow outcome m.store
  match storeError outcome with
  | some err => ({ m with store }, .error err)
  | none => ({ pool := m.pool.set session, store }, .ok session)

def Manager.bind (config : Config) (m : Manager) (bind : Nat) (now redisNow : Time) (outcome : Outcome)
    (req : BindSessionRequest) : Manager × Except ConnectionError Session :=
  m.writeAndSet config (bindSession config bind now req) redisNow outcome

def Manager.heartbeat (config : Config) (m : Manager) (now redisNow : Time) (outcome : Outcome) (uid : Int)
    (connID : String) : Manager × Except ConnectionError Session :=
  match checkSession (m.pool.get uid) connID with
  | .error err => (m, .error err)
  | .ok session =>
    if renewDue config now session then
      m.writeAndSet config (renew now (beat config now session)) redisNow outcome
    else ({ m with pool := m.pool.set (beat config now session) }, .ok (beat config now session))

def identity (session : Session) : Session :=
  { session with lastHeartbeatAt := 0, lastRenewAt := 0, expireAt := 0 }

section Identity

variable {s t : Session} (h : identity s = identity t)
include h

theorem uid_of_identity : s.uid = t.uid := by
  have hf := congrArg Session.uid h
  exact hf

theorem conn_of_identity : s.conn = t.conn := by
  have hf := congrArg Session.conn h
  exact hf

theorem connID_of_identity : s.connID = t.connID := by
  have hf := congrArg Session.connID h
  exact hf

theorem gatewayAddr_of_identity : s.gatewayAddr = t.gatewayAddr := by
  have hf := congrArg Session.gatewayAddr h
  exact hf

theorem replaced_of_identity : ConnectionPool.replaced (some s) t = [] :=
  if_neg (not_not.mpr (conn_of_identity h))

end Identity

theorem checkSession_ok {slot : Option Session} {connID : String} {session : Session}
    (h : checkSession slot connID = .ok session) : slot = some session := by
  cases slot with
  | none => cases h
  | some found =>
    simp only [checkSession] at h
    split_ifs at h
    rw [Except.ok.inj h]

theorem writeGateConn_apply (config : Config) (session : Session) (redisNow : Time) (outcome : Outcome)
    (store : GateConns) (uid : Int) :
    writeGateConn config session redisNow outcome store uid = store uid ∨
      uid = session.uid ∧ ∃ stored, writeGateConn config session redisNow outcome store uid = some stored ∧
        stored.value = toGateConn session := by
  unfold writeGateConn
  split_ifs with hexecuted
  · simp only [setGateConn, RoutingKeys.set, toGateConn, Function.update_apply]
    split_ifs with hu
    · exact Or.inr ⟨hu, _, rfl, rfl⟩
    · exact Or.inl rfl
  · exact Or.inl rfl

theorem dropGateConn_apply_ne {uid u : Int} (hu : u ≠ uid) (outcome : Outcome) (store : GateConns) :
    dropGateConn uid outcome store u = store u := by
  unfold dropGateConn
  split_ifs
  · exact Function.update_of_ne hu _ _
  · rfl

end GlobalMailSystem.Connections
