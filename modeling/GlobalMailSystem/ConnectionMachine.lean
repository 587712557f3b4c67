import GlobalMailSystem.ConnectionManager

/-!
`Bind`, `Heartbeat`, `Disconnect` and `SweepExpired` calls on any number of gateways over one
`DBGateConn` store. A step is one call to the pool or to the store; a sweep takes the shards in turn.
-/

namespace GlobalMailSystem.Connections

open Transition

inductive Result
  | session (session : Session)
  | disconnected
  | expired (sessions : List Session)
  | error (err : ConnectionError)

inductive CallPC
  | bindStore (session : Session)
  | bindPool (session : Session)
  | heartbeatGet (uid : Int) (connID : String)
  | heartbeatStore (session : Session)
  | heartbeatPool (session : Session)
  | disconnectPool (uid : Int)
  | disconnectStore (uid : Int)
  | sweep (now : Time) (shard : Nat) (expired : List Session)
  | returned (result : Result)

inductive Request
  | bind (now : Time) (req : BindSessionRequest)
  | heartbeat (uid : Int) (connID : String)
  | disconnect (uid : Int)
  | sweepExpired (now : Time)

structure Call (m : Nat) where
  gateway : Fin m
  pc : CallPC

structure World (m : Nat) where
  pools : Fin m → Pool
  store : GateConns
  calls : List (Call m)

inductive Label (m : Nat)
  | begin (g : Fin m) (request : Request)
  | work (c : Nat) (now redisNow : Time) (outcome : Outcome)

def start (config : Config) (bind : Nat) : Request → CallPC
  | .bind now req => .bindStore (bindSession config bind now req)
  | .heartbeat uid connID => .heartbeatGet uid connID
  | .disconnect uid => .disconnectPool uid
  | .sweepExpired now => .sweep now 0 []

def afterStore (next : CallPC) (outcome : Outcome) : CallPC :=
  match storeError outcome with
  | some err => .returned (.error err)
  | none => next

def afterGet (config : Config) (now : Time) : Except ConnectionError Session → CallPC
  | .error err => .returned (.error err)
  | .ok session =>
    if renewDue config now session then .heartbeatStore (renew now (beat config now session))
    else .heartbeatPool (beat config now session)

def advance (config : Config) (m : Manager) (now redisNow : Time) (outcome : Outcome) :
    CallPC → Option (Manager × CallPC)
  | .bindStore session =>
    some ({ m with store := writeGateConn config session redisNow outcome m.store },
      afterStore (.bindPool session) outcome)
  | .bindPool session => some ({ m with pool := m.pool.set session }, .returned (.session session))
  | .heartbeatGet uid connID => some (m, afterGet config now (checkSession (m.pool.get uid) connID))
  | .heartbeatStore session =>
    some ({ m with store := writeGateConn config session redisNow outcome m.store },
      afterStore (.heartbeatPool session) outcome)
  | .heartbeatPool session => some ({ m with pool := m.pool.set session }, .returned (.session session))
  | .disconnectPool uid => some ({ m with pool := m.pool.delete uid }, .disconnectStore uid)
  | .disconnectStore uid =>
    some ({ m with store := dropGateConn uid outcome m.store }, afterStore (.returned .disconnected) outcome)
  | .sweep now shard expired =>
    if h : shard < 32 then
      some ({ m with pool := m.pool.sweepShard now ⟨shard, h⟩ },
        .sweep now (shard + 1) (expired ++ ((m.pool.shards ⟨shard, h⟩).expired now).map Prod.snd))
    else some (m, .returned (.expired expired))
  | .returned _ => none

variable {m : Nat} (config : Fin m → Config)

def step (w : World m) : Label m → Option (World m)
  | .begin g request => some { w with calls := w.calls ++ [⟨g, start (config g) w.calls.length request⟩] }
  | .work c now redisNow outcome =>
    match w.calls[c]? with
    | none => none
    | some call =>
      (advance (config call.gateway) ⟨w.pools call.gateway, w.store⟩ now redisNow outcome call.pc).map
        fun next =>
          { pools := Function.update w.pools call.gateway next.1.pool
            store := next.1.store
            calls := w.calls.set c ⟨call.gateway, next.2⟩ }

def init : World m := ⟨fun _ => .new, fun _ => none, []⟩

def CallPC.beating : CallPC → Option Session
  | .heartbeatStore session => some session
  | .heartbeatPool session => some session
  | _ => none

def CallPC.ofHeartbeat : CallPC → Bool
  | .heartbeatGet _ _ => true
  | .heartbeatStore _ => true
  | .heartbeatPool _ => true
  | _ => false

def CallPC.ofDisconnect : CallPC → Bool
  | .disconnectPool _ => true
  | .disconnectStore _ => true
  | _ => false

inductive Moves (config : Config) (pool : Pool) (store : GateConns) : CallPC → Pool → GateConns → CallPC → Prop
  | bindStored (session : Session) (redisNow : Time) (outcome : Outcome) :
      Moves config pool store (.bindStore session) pool (writeGateConn config session redisNow outcome store)
        (afterStore (.bindPool session) outcome)
  | bound (session : Session) :
      Moves config pool store (.bindPool session) (pool.set session) store (.returned (.session session))
  | refused (uid : Int) (connID : String) (err : ConnectionError) :
      Moves config pool store (.heartbeatGet uid connID) pool store (.returned (.error err))
  | read (uid : Int) (connID : String) (session read : Session) (pc : CallPC) (hget : pool.get uid = some session)
      (hpc : pc.beating = some read) (hread : identity read = identity session) :
      Moves config pool store (.heartbeatGet uid connID) pool store pc
  | renewed (session : Session) (redisNow : Time) (outcome : Outcome) :
      Moves config pool store (.heartbeatStore session) pool (writeGateConn config session redisNow outcome store)
        (afterStore (.heartbeatPool session) outcome)
  | beaten (session : Session) :
      Moves config pool store (.heartbeatPool session) (pool.set session) store (.returned (.session session))
  | removed (uid : Int) :
      Moves config pool store (.disconnectPool uid) (pool.delete uid) store (.disconnectStore uid)
  | dropped (uid : Int) (outcome : Outcome) :
      Moves config pool store (.disconnectStore uid) pool (dropGateConn uid outcome store)
        (afterStore (.returned .disconnected) outcome)
  | swept (now : Time) (i : Fin 32) (expired expired' : List Session) :
      Moves config pool store (.sweep now i expired) (pool.sweepShard now i) store (.sweep now (i + 1) expired')
  | sweptAll (now : Time) (shard : Nat) (expired : List Session) :
      Moves config pool store (.sweep now shard expired) pool store (.returned (.expired expired))

theorem advance_moves {config : Config} {m m' : Manager} {now redisNow : Time} {outcome : Outcome} {pc pc' : CallPC}
    (h : advance config m now redisNow outcome pc = some (m', pc')) :
    Moves config m.pool m.store pc m'.pool m'.store pc' := by
  cases pc with
  | bindStore session => cases h; exact .bindStored session redisNow outcome
  | bindPool session => cases h; exact .bound session
  | heartbeatGet uid connID =>
    cases h
    cases hcheck : checkSession (m.pool.get uid) connID with
    | error err => exact .refused uid connID err
    | ok session =>
      have hget := checkSession_ok hcheck
      simp only [afterGet]
      split_ifs
      · exact .read uid connID session _ _ hget rfl rfl
      · exact .read uid connID session _ _ hget rfl rfl
  | heartbeatStore session => cases h; exact .renewed session redisNow outcome
  | heartbeatPool session => cases h; exact .beaten session
  | disconnectPool uid => cases h; exact .removed uid
  | disconnectStore uid => cases h; exact .dropped uid outcome
  | sweep t shard expired =>
    simp only [advance] at h
    split_ifs at h with hlt
    · cases h
      exact .swept t ⟨shard, hlt⟩ expired _
    · cases h
      exact .sweptAll t shard expired
  | returned result => cases h

inductive Step (w : World m) : Label m → World m → Prop
  | begin (g : Fin m) (request : Request) :
      Step w (.begin g request) { w with calls := w.calls ++ [⟨g, start (config g) w.calls.length request⟩] }
  | work (c : Nat) (now redisNow : Time) (outcome : Outcome) (g : Fin m) (pc pc' : CallPC) (pool : Pool)
      (store : GateConns) (hcall : w.calls[c]? = some ⟨g, pc⟩)
      (hmoves : Moves (config g) (w.pools g) w.store pc pool store pc') :
      Step w (.work c now redisNow outcome) ⟨Function.update w.pools g pool, store, w.calls.set c ⟨g, pc'⟩⟩

variable {config} {w w' : World m} {l : Label m}

theorem step_inv (h : step config w l = some w') : Step config w l w' := by
  cases l with
  | begin g request => cases h; exact .begin g request
  | work c now redisNow outcome =>
    simp only [step] at h
    split at h
    · cases h
    · rename_i call hcall
      obtain ⟨⟨next, pc'⟩, hadvance, rfl⟩ := Option.map_eq_some_iff.mp h
      exact .work c now redisNow outcome call.gateway call.pc pc' next.pool next.store hcall
        (advance_moves hadvance)

/-! A call whose steps are taken together does what the function of the source does. -/

def Result.ofSession : Except ConnectionError Session → Result
  | .ok s => .session s
  | .error e => .error e

def World.after (w : World m) (g : Fin m) (returned : Manager × Except ConnectionError Session) : World m where
  pools := Function.update w.pools g returned.1.pool
  store := returned.1.store
  calls := w.calls ++ [⟨g, .returned (.ofSession returned.2)⟩]

section Alone

variable {g : Fin m} (now redisNow : Time) (outcome : Outcome) {pools : Fin m → Pool} {store : GateConns}
  {calls : List (Call m)} {pc pc' : CallPC} {next : Manager} {t : World m}

theorem advance_head
    (hadvance : advance (config g) ⟨pools g, store⟩ now redisNow outcome pc = some (next, pc'))
    (h : Reaches (step config) (fun _ => True)
      ⟨Function.update pools g next.pool, next.store, calls ++ [⟨g, pc'⟩]⟩ t) :
    Reaches (step config) (fun _ => True) ⟨pools, store, calls ++ [⟨g, pc⟩]⟩ t := by
  apply Reaches.head (l := .work calls.length now redisNow outcome) trivial _ h
  simp [step, hadvance]

theorem writeAndSet_reached {storePC poolPC : CallPC} {session : Session}
    (hstore : ∀ m, advance (config g) m now redisNow outcome storePC =
      some ({ m with store := writeGateConn (config g) session redisNow outcome m.store },
        afterStore poolPC outcome))
    (hpool : ∀ m, advance (config g) m now redisNow outcome poolPC =
      some ({ m with pool := m.pool.set session }, .returned (.session session))) :
    Reaches (step config) (fun _ => True) ⟨w.pools, w.store, w.calls ++ [⟨g, storePC⟩]⟩
      (w.after g (Manager.writeAndSet (config g) ⟨w.pools g, w.store⟩ session redisNow outcome)) := by
  apply advance_head now redisNow outcome (hstore _)
  simp only [Function.update_eq_self, afterStore, Manager.writeAndSet, World.after]
  cases storeError outcome with
  | some err =>
    simp only [Function.update_eq_self]
    exact .refl _
  | none =>
    apply advance_head now redisNow outcome (hpool _)
    exact .refl _

theorem bind_reached (w : World m) (g : Fin m) (now redisNow : Time) (outcome : Outcome)
    (req : BindSessionRequest) :
    Reaches (step config) (fun _ => True) w
      (w.after g (Manager.bind (config g) ⟨w.pools g, w.store⟩ w.calls.length now redisNow outcome req)) := by
  apply Reaches.head (l := .begin g (.bind now req)) trivial rfl
  exact writeAndSet_reached now redisNow outcome (fun m => rfl) (fun m => rfl)

theorem heartbeat_reached (w : World m) (g : Fin m) (now redisNow : Time) (outcome : Outcome) (uid : Int)
    (connID : String) :
    Reaches (step config) (fun _ => True) w
      (w.after g (Manager.heartbeat (config g) ⟨w.pools g, w.store⟩ now redisNow outcome uid connID)) := by
  apply Reaches.head (l := .begin g (.heartbeat uid connID)) trivial rfl
  apply advance_head now redisNow outcome rfl
  simp only [Function.update_eq_self, Manager.heartbeat]
  cases checkSession ((w.pools g).get uid) connID with
  | error err =>
    simp only [afterGet, World.after, Function.update_eq_self]
    exact .refl _
  | ok session =>
    simp only [afterGet]
    split_ifs
    · exact writeAndSet_reached now redisNow outcome (fun m => rfl) (fun m => rfl)
    · apply advance_head now redisNow outcome rfl
      exact .refl _

end Alone

end GlobalMailSystem.Connections
