import GlobalMailSystem.MailTypes
import GlobalMailSystem.Table
import Mathlib.Logic.Function.Basic

namespace GlobalMailSystem

abbrev Conn := Nat

/-- `bind` is the number of the `Bind` that made the session; nothing reads it. -/
structure Session where
  uid : Int
  roleID : Int
  serverID : Int
  connID : String
  gatewayAddr : String
  clientIP : String
  deviceID : String
  connectedAt : Time
  lastHeartbeatAt : Time
  lastRenewAt : Time
  expireAt : Time
  conn : Option Conn
  bind : Nat
  deriving DecidableEq

structure SessionShard where
  sessions : Table (Prod.fst : Int × Session → Int)
  connIndex : String → Option Int

namespace SessionShard

def empty : SessionShard := ⟨.empty, fun _ => none⟩

def find (shard : SessionShard) (uid : Int) : Option Session := (shard.sessions.find? uid).map Prod.snd

def unindexOld (shard : SessionShard) (session : Session) : String → Option Int :=
  match shard.find session.uid with
  | none => shard.connIndex
  | some old =>
    if old.connID ≠ "" ∧ old.connID ≠ session.connID then Function.update shard.connIndex old.connID none
    else shard.connIndex

def set (shard : SessionShard) (session : Session) : SessionShard where
  sessions := shard.sessions.upsert (session.uid, session)
  connIndex :=
    if session.connID ≠ "" then
      Function.update (shard.unindexOld session) session.connID (some session.uid)
    else shard.unindexOld session

def evict (shard : SessionShard) (row : Int × Session) : SessionShard where
  sessions := shard.sessions.filterRows fun r => r.1 ≠ row.1
  connIndex := if row.2.connID ≠ "" then Function.update shard.connIndex row.2.connID none
    else shard.connIndex

def delete (shard : SessionShard) (uid : Int) : SessionShard :=
  match shard.find uid with
  | none => shard
  | some old => shard.evict (uid, old)

def expired (shard : SessionShard) (now : Time) : List (Int × Session) :=
  shard.sessions.rows.filter fun row => row.2.expireAt < now

def sweep (shard : SessionShard) (now : Time) : SessionShard := (shard.expired now).foldl evict shard

theorem find_eq_some {shard : SessionShard} {uid : Int} {session : Session} :
    shard.find uid = some session ↔ (uid, session) ∈ shard.sessions.rows := by
  simp only [find, Option.map_eq_some_iff, Table.find?_eq_some]
  constructor
  · rintro ⟨⟨u, s⟩, ⟨hmem, rfl⟩, rfl⟩
    exact hmem
  · exact fun h => ⟨(uid, session), ⟨h, rfl⟩, rfl⟩

theorem find_set (shard : SessionShard) (session : Session) (uid : Int) :
    (shard.set session).find uid = if uid = session.uid then some session else shard.find uid := by
  unfold find set
  rw [Table.find?_upsert]
  split_ifs <;> rfl

theorem find_evict (shard : SessionShard) (row : Int × Session) (uid : Int) :
    (shard.evict row).find uid = if uid = row.1 then none else shard.find uid := by
  apply Option.ext
  intro session
  split_ifs with h
  · simp [find_eq_some, evict, Table.mem_filterRows, h]
  · simp [find_eq_some, evict, Table.mem_filterRows, h]

theorem find_delete (shard : SessionShard) (u uid : Int) :
    (shard.delete u).find uid = if uid = u then none else shard.find uid := by
  unfold delete
  split
  · rename_i h
    split_ifs with hu
    · rw [hu, h]
    · rfl
  · exact find_evict shard _ uid

theorem find_evicted (rows : List (Int × Session)) (shard : SessionShard) (uid : Int) :
    (rows.foldl evict shard).find uid = if uid ∈ rows.map Prod.fst then none else shard.find uid := by
  induction rows generalizing shard with
  | nil => rfl
  | cons row rows ih =>
    rw [List.foldl_cons, ih, find_evict]
    simp only [List.map_cons, List.mem_cons]
    by_cases hrest : uid ∈ rows.map Prod.fst
    · rw [if_pos hrest, if_pos (Or.inr hrest)]
    · simp only [hrest, or_false, if_false]

theorem mem_expired_iff {shard : SessionShard} {now : Time} {uid : Int} :
    uid ∈ (shard.expired now).map Prod.fst ↔ ∃ session, shard.find uid = some session ∧ session.expireAt < now := by
  simp [expired, find_eq_some]

theorem find_sweep (shard : SessionShard) (now : Time) (uid : Int) :
    (shard.sweep now).find uid = (shard.find uid).filter fun session => now ≤ session.expireAt := by
  rw [sweep, find_evicted]
  split_ifs with h
  · obtain ⟨session, hfind, hlt⟩ := mem_expired_iff.mp h
    rw [hfind, Option.filter_some_neg (by simpa using hlt)]
  · cases hfind : shard.find uid with
    | none => rfl
    | some session =>
      have hle : now ≤ session.expireAt := not_lt.mp fun hlt => h (mem_expired_iff.mpr ⟨session, hfind, hlt⟩)
      rw [Option.filter_some_pos (by simpa using hle)]

end SessionShard

def fnv32a (text : String) : Nat :=
  text.toUTF8.toList.foldl (fun hash byte => ((hash ^^^ byte.toNat) * 16777619) % 2 ^ 32) 2166136261

example : fnv32a "a" = 0xE40C292C := by decide +kernel

/-- `closed` is the history of the calls to `Close`. -/
structure ConnectionPool (n : Nat) where
  shards : Fin n → SessionShard
  closed : List Conn

def poolShards (shardCount : Int) : Nat := if shardCount ≤ 0 then 32 else shardCount.toNat

instance poolShards_ne_zero (shardCount : Int) : NeZero (poolShards shardCount) where
  out := by
    unfold poolShards
    split_ifs <;> omega

namespace ConnectionPool

variable {n : Nat} [NeZero n]

def new : ConnectionPool n := ⟨fun _ => .empty, []⟩

def shardOf (uid : Int) : Fin n := Fin.ofNat n (fnv32a (toString uid))

def get (p : ConnectionPool n) (uid : Int) : Option Session := (p.shards (shardOf uid)).find uid

def replaced (old : Option Session) (session : Session) : List Conn :=
  match old with
  | none => []
  | some old => if old.conn ≠ session.conn then old.conn.toList else []

def set (p : ConnectionPool n) (session : Session) : ConnectionPool n where
  shards := Function.update p.shards (shardOf session.uid) ((p.shards (shardOf session.uid)).set session)
  closed := p.closed ++ replaced (p.get session.uid) session

def delete (p : ConnectionPool n) (uid : Int) : ConnectionPool n where
  shards := Function.update p.shards (shardOf uid) ((p.shards (shardOf uid)).delete uid)
  closed := p.closed ++ (p.get uid).toList.flatMap fun old => old.conn.toList

def sweepShard (p : ConnectionPool n) (now : Time) (i : Fin n) : ConnectionPool n where
  shards := Function.update p.shards i ((p.shards i).sweep now)
  closed := p.closed ++ ((p.shards i).expired now).flatMap fun row => row.2.conn.toList

def sweepExpired (p : ConnectionPool n) (now : Time) : ConnectionPool n × List Session :=
  (List.finRange n).foldl
    (fun acc i => (acc.1.sweepShard now i, acc.2 ++ ((acc.1.shards i).expired now).map Prod.snd)) (p, [])

def closeShard (p : ConnectionPool n) (i : Fin n) : ConnectionPool n where
  shards := Function.update p.shards i .empty
  closed := p.closed ++ (p.shards i).sessions.rows.flatMap fun row => row.2.conn.toList

def closeAll (p : ConnectionPool n) : ConnectionPool n := (List.finRange n).foldl closeShard p

def getByConnID (p : ConnectionPool n) (connID : String) : Option Session :=
  if connID = "" then none
  else ((List.finRange n).findSome? fun i => ((p.shards i).connIndex connID).map (p.shards i).find).join

theorem get_update (p : ConnectionPool n) (i : Fin n) (shard : SessionShard) (closed : List Conn) (uid : Int) :
    get ⟨Function.update p.shards i shard, closed⟩ uid =
      if shardOf uid = i then shard.find uid else p.get uid := by
  simp only [get, Function.update_apply]
  split_ifs <;> rfl

theorem get_update_slot {p : ConnectionPool n} {u : Int} {shard : SessionShard} {slot : Option Session}
    (h : ∀ uid, shard.find uid = if uid = u then slot else (p.shards (shardOf u)).find uid)
    (closed : List Conn) (uid : Int) :
    get ⟨Function.update p.shards (shardOf u) shard, closed⟩ uid = if uid = u then slot else p.get uid := by
  rw [get_update, h]
  by_cases hu : uid = u
  · simp only [hu, if_true]
  · rw [if_neg hu, if_neg hu]
    split_ifs with hi
    · rw [get, hi]
    · rfl

theorem get_set (p : ConnectionPool n) (session : Session) (uid : Int) :
    (p.set session).get uid = if uid = session.uid then some session else p.get uid :=
  get_update_slot (SessionShard.find_set _ session) _ uid

theorem get_delete (p : ConnectionPool n) (u uid : Int) :
    (p.delete u).get uid = if uid = u then none else p.get uid :=
  get_update_slot (SessionShard.find_delete _ u) _ uid

theorem get_sweepShard (p : ConnectionPool n) (now : Time) (i : Fin n) (uid : Int) :
    (p.sweepShard now i).get uid =
      if shardOf uid = i then (p.get uid).filter fun session => now ≤ session.expireAt else p.get uid := by
  rw [sweepShard, get_update, SessionShard.find_sweep]
  split_ifs with hi
  · rw [get, hi]
  · rfl

theorem get_of_sweepShard {p : ConnectionPool n} {now : Time} {i : Fin n} {uid : Int} {session : Session}
    (h : (p.sweepShard now i).get uid = some session) : p.get uid = some session := by
  rw [get_sweepShard] at h
  split_ifs at h
  · exact (Option.filter_eq_some_iff.mp h).1
  · exact h

theorem get_closeShard (p : ConnectionPool n) (i : Fin n) (uid : Int) :
    (p.closeShard i).get uid = if shardOf uid = i then none else p.get uid :=
  get_update p i .empty _ uid

end ConnectionPool

def newConnectionPool (shardCount : Int) : ConnectionPool (poolShards shardCount) := .new

end GlobalMailSystem
