import GlobalMailSystem.MailTypes
import Mathlib.Logic.Function.Basic

namespace GlobalMailSystem

/-- A Redis key; `keyExpireAt` is when its TTL has run out. -/
structure Stored (α : Type) where
  value : α
  keyExpireAt : Time

abbrev RoutingKeys (α : Type) := Int → Option (Stored α)

namespace RoutingKeys

variable {α : Type}

def keyTTL (ttl expireAt redisNow : Time) : Time :=
  let ttl := if ttl ≤ 0 then expireAt - redisNow else ttl
  if ttl ≤ 0 then minute else ttl

def get (keys : RoutingKeys α) (uid : Int) (redisNow : Time) : Option α :=
  match keys uid with
  | none => none
  | some stored => if redisNow < stored.keyExpireAt then some stored.value else none

def set (keys : RoutingKeys α) (uid : Int) (value : α) (expireAt ttl redisNow : Time) : RoutingKeys α :=
  Function.update keys uid (some ⟨value, redisNow + keyTTL ttl expireAt redisNow⟩)

def delete (keys : RoutingKeys α) (uid : Int) : RoutingKeys α := Function.update keys uid none

theorem get_eq_some {keys : RoutingKeys α} {uid : Int} {redisNow : Time} {value : α}
    (h : keys.get uid redisNow = some value) : ∃ stored, keys uid = some stored ∧ stored.value = value := by
  unfold get at h
  split at h
  · cases h
  · rename_i stored hstored
    split_ifs at h
    exact ⟨stored, hstored, Option.some.inj h⟩

theorem keyTTL_of_pos {ttl : Time} (h : 0 < ttl) (expireAt redisNow : Time) :
    keyTTL ttl expireAt redisNow = ttl := by
  simp only [keyTTL, if_neg (not_le.mpr h)]

end RoutingKeys

structure SrvRouter where
  uid : Int
  srvName : String
  instanceID : String
  frpcAddr : String
  grpcAddr : String
  version : Int
  expireAt : Time

def getSrvRouter (keys : RoutingKeys SrvRouter) (uid : Int) (redisNow : Time) : Option SrvRouter :=
  keys.get uid redisNow

def setSrvRouter (keys : RoutingKeys SrvRouter) (route : SrvRouter) (ttl redisNow : Time) :
    RoutingKeys SrvRouter :=
  keys.set route.uid route route.expireAt ttl redisNow

def deleteSrvRouter (keys : RoutingKeys SrvRouter) (uid : Int) : RoutingKeys SrvRouter := keys.delete uid

structure GateConn where
  uid : Int
  gatewayAddr : String
  clientIP : String
  connID : String
  connTime : Time
  lastActiveTime : Time
  deviceID : String
  expireAt : Time

def getGateConn (keys : RoutingKeys GateConn) (uid : Int) (redisNow : Time) : Option GateConn :=
  keys.get uid redisNow

def setGateConn (keys : RoutingKeys GateConn) (conn : GateConn) (ttl redisNow : Time) :
    RoutingKeys GateConn :=
  keys.set conn.uid conn conn.expireAt ttl redisNow

def deleteGateConn (keys : RoutingKeys GateConn) (uid : Int) : RoutingKeys GateConn := keys.delete uid

end GlobalMailSystem
