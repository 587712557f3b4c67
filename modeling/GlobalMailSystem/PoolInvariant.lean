import GlobalMailSystem.ConnectionPool
import Mathlib.Data.List.Induction

namespace GlobalMailSystem

namespace SessionShard

structure Consistent (shard : SessionShard) : Prop where
  own : ∀ uid session, shard.find uid = some session → session.uid = uid
  index : ∀ connID uid, shard.connIndex connID = some uid →
    connID ≠ "" ∧ ∃ session, shard.find uid = some session ∧ session.connID = connID

theorem consistent_empty : empty.Consistent where
  own uid session h := by cases h
  index connID uid h := by cases h

variable {shard : SessionShard}

theorem unindexOld_eq_some {session : Session} {connID : String} {uid : Int}
    (h : shard.unindexOld session connID = some uid) :
    shard.connIndex connID = some uid ∧ ∀ old, shard.find session.uid = some old → old.connID = connID →
      connID = "" ∨ connID = session.connID := by
  unfold unindexOld at h
  cases hold : shard.find session.uid with
  | none =>
    simp only [hold] at h
    exact ⟨h, fun old he => by cases he⟩
  | some old =>
    simp only [hold] at h
    split_ifs at h with hrename
    · rw [Function.update_apply] at h
      split_ifs at h with hc
      refine ⟨h, fun other he hid => absurd ?_ hc⟩
      rw [Option.some.inj he, hid]
    · refine ⟨h, fun other he hid => ?_⟩
      by_contra hother
      apply hrename
      rw [Option.some.inj he, hid]
      exact not_or.mp hother

theorem unindexOld_uid_ne (h : shard.Consistent) {session : Session} {connID : String} {uid : Int}
    (hne : connID ≠ session.connID) (hindex : shard.unindexOld session connID = some uid) :
    uid ≠ session.uid := by
  -- the entries that stay when a session is replaced are those of the other uids
  intro hu
  obtain ⟨hentry, hold⟩ := unindexOld_eq_some hindex
  obtain ⟨hnonempty, found, hfound, hid⟩ := h.index connID uid hentry
  rw [hu] at hfound
  apply (hold found hfound hid).elim
  · exact hnonempty
  · exact hne

theorem connIndex_set (session : Session) (connID : String) (hid : session.connID ≠ "") :
    (shard.set session).connIndex connID =
      if connID = session.connID then some session.uid else shard.unindexOld session connID := by
  simp only [set, if_pos hid, Function.update_apply]

theorem consistent_set (h : shard.Consistent) (session : Session) : (shard.set session).Consistent where
  own uid found hfound := by
    rw [find_set] at hfound
    split_ifs at hfound with hu
    · rw [← Option.some.inj hfound, hu]
    · exact h.own uid found hfound
  index connID uid hindex := by
    have hkeep (hold : shard.unindexOld session connID = some uid) (hne : connID ≠ session.connID) :
        connID ≠ "" ∧ ∃ found, (shard.set session).find uid = some found ∧ found.connID = connID := by
      rw [find_set, if_neg (unindexOld_uid_ne h hne hold)]
      exact h.index connID uid (unindexOld_eq_some hold).1
    by_cases hid : session.connID = ""
    · have hold : shard.unindexOld session connID = some uid := by simpa [set, hid] using hindex
      have hnonempty := (h.index connID uid (unindexOld_eq_some hold).1).1
      exact hkeep hold fun he => hnonempty (he.trans hid)
    · rw [connIndex_set session connID hid] at hindex
      split_ifs at hindex with hc
      · exact ⟨hc ▸ hid, session, by rw [find_set, if_pos (Option.some.inj hindex).symm], hc.symm⟩
      · exact hkeep hindex hc

theorem connIndex_evict (row : Int × Session) (connID : String) (hid : connID ≠ "") :
    (shard.evict row).connIndex connID =
      if connID = row.2.connID then none else shard.connIndex connID := by
  by_cases hrow : row.2.connID = ""
  · simp [evict, hrow, hid]
  · simp [evict, hrow, Function.update_apply]

theorem connIndex_of_evict {row : Int × Session} {connID : String} {uid : Int}
    (h : (shard.evict row).connIndex connID = some uid) : shard.connIndex connID = some uid := by
  unfold evict at h
  by_cases hrow : row.2.connID = ""
  · simpa [hrow] using h
  · simp only [ne_eq, hrow, not_false_eq_true, if_true, Function.update_apply] at h
    split_ifs at h
    exact h

theorem consistent_evict (h : shard.Consistent) {row : Int × Session}
    (hrow : ∀ session, shard.find row.1 = some session → session = row.2) :
    (shard.evict row).Consistent where
  own uid found hfound := by
    rw [find_evict] at hfound
    split_ifs at hfound
    exact h.own uid found hfound
  index connID uid hindex := by
    obtain ⟨hnonempty, found, hfound, hid⟩ := h.index connID uid (connIndex_of_evict hindex)
    refine ⟨hnonempty, found, ?_, hid⟩
    rw [connIndex_evict row connID hnonempty] at hindex
    split_ifs at hindex with hc
    rw [find_evict, if_neg, hfound]
    intro hu
    rw [hu] at hfound
    exact hc (by rw [← hrow found hfound, hid])

theorem consistent_delete (h : shard.Consistent) (uid : Int) : (shard.delete uid).Consistent := by
  unfold delete
  cases hold : shard.find uid with
  | none => exact h
  | some old =>
    apply consistent_evict h
    intro session hsession
    exact Option.some.inj (hsession.symm.trans hold)

theorem consistent_evicted (rows : List (Int × Session)) (h : shard.Consistent)
    (hrows : ∀ row ∈ rows, ∀ session, shard.find row.1 = some session → session = row.2) :
    (rows.foldl evict shard).Consistent := by
  induction rows generalizing shard with
  | nil => exact h
  | cons row rows ih =>
    apply ih (consistent_evict h (hrows row List.mem_cons_self))
    intro other hother session hsession
    rw [find_evict] at hsession
    split_ifs at hsession
    exact hrows other (List.mem_cons_of_mem row hother) session hsession

theorem consistent_sweep (h : shard.Consistent) (now : Time) : (shard.sweep now).Consistent := by
  apply consistent_evicted _ h
  intro row hrow session hsession
  have hfound : shard.find row.1 = some row.2 := find_eq_some.mpr (List.mem_filter.mp hrow).1
  exact Option.some.inj (hsession.symm.trans hfound)

end SessionShard

namespace ConnectionPool

variable {n : Nat} [NeZero n]

structure Represented (p : ConnectionPool n) : Prop where
  consistent : ∀ i, (p.shards i).Consistent
  placed : ∀ i uid session, (p.shards i).find uid = some session → shardOf uid = i

theorem represented_new : (new : ConnectionPool n).Represented where
  consistent _ := SessionShard.consistent_empty
  placed i uid session h := by cases h

variable {p : ConnectionPool n}

theorem represented_update (h : p.Represented) {i : Fin n} {shard : SessionShard} (closed : List Conn)
    (hshard : shard.Consistent) (hplaced : ∀ uid session, shard.find uid = some session → shardOf uid = i) :
    Represented ⟨Function.update p.shards i shard, closed⟩ where
  consistent j := by
    by_cases hj : j = i
    · subst hj
      simpa only [Function.update_self] using hshard
    · simpa only [Function.update_of_ne hj] using h.consistent j
  placed j uid session hfound := by
    by_cases hj : j = i
    · subst hj
      simp only [Function.update_self] at hfound
      exact hplaced uid session hfound
    · simp only [Function.update_of_ne hj] at hfound
      exact h.placed j uid session hfound

theorem represented_set (h : p.Represented) (session : Session) : (p.set session).Represented := by
  apply represented_update h _ (SessionShard.consistent_set (h.consistent _) session)
  intro uid found hfound
  rw [SessionShard.find_set] at hfound
  split_ifs at hfound with hu
  · rw [hu]
  · exact h.placed _ uid found hfound

theorem represented_delete (h : p.Represented) (u : Int) : (p.delete u).Represented := by
  apply represented_update h _ (SessionShard.consistent_delete (h.consistent _) u)
  intro uid found hfound
  rw [SessionShard.find_delete] at hfound
  split_ifs at hfound
  exact h.placed _ uid found hfound

theorem represented_sweepShard (h : p.Represented) (now : Time) (i : Fin n) :
    (p.sweepShard now i).Represented := by
  apply represented_update h _ (SessionShard.consistent_sweep (h.consistent i) now)
  intro uid found hfound
  rw [SessionShard.find_sweep, Option.filter_eq_some_iff] at hfound
  exact h.placed i uid found hfound.1

theorem represented_closeShard (h : p.Represented) (i : Fin n) : (p.closeShard i).Represented := by
  apply represented_update h _ SessionShard.consistent_empty
  intro uid found hfound
  cases hfound

omit [NeZero n] in
theorem getByConnID_eq_some {connID : String} {session : Session} (h : p.getByConnID connID = some session) :
    ∃ i uid, (p.shards i).connIndex connID = some uid ∧ (p.shards i).find uid = some session := by
  unfold getByConnID at h
  split_ifs at h
  rw [Option.join_eq_some_iff] at h
  obtain ⟨i, -, hi⟩ := List.exists_of_findSome?_eq_some h
  obtain ⟨uid, hindex, hfound⟩ := Option.map_eq_some_iff.mp hi
  exact ⟨i, uid, hindex, hfound⟩

theorem connID_of_getByConnID (h : p.Represented) {connID : String} {session : Session}
    (hfound : p.getByConnID connID = some session) : session.connID = connID := by
  obtain ⟨i, uid, hindex, hsession⟩ := getByConnID_eq_some hfound
  obtain ⟨-, found, hfind, hid⟩ := (h.consistent i).index connID uid hindex
  rw [hsession] at hfind
  rw [Option.some.inj hfind, hid]

def Held (p : ConnectionPool n) (conn : Conn) : Prop :=
  ∃ uid session, p.get uid = some session ∧ session.conn = some conn

def Accounted (conn : Conn) (p : ConnectionPool n) : Prop := p.Held conn ∨ conn ∈ p.closed

theorem accounted_of_get {p' : ConnectionPool n} {conn : Conn} (h : p.Accounted conn)
    (hclosed : conn ∈ p.closed → conn ∈ p'.closed)
    (hget : ∀ uid session, p.get uid = some session → session.conn = some conn → p'.Accounted conn) :
    p'.Accounted conn := by
  rcases h with ⟨uid, session, hfound, hconn⟩ | hmem
  · exact hget uid session hfound hconn
  · exact Or.inr (hclosed hmem)

theorem held_set {session : Session} {conn : Conn} (h : session.conn = some conn) : (p.set session).Held conn :=
  ⟨session.uid, session, by rw [get_set, if_pos rfl], h⟩

theorem mem_replaced {old session : Session} {conn : Conn} (h : old.conn = some conn)
    (hne : session.conn ≠ some conn) : conn ∈ replaced (some old) session := by
  simp [replaced, h, hne.symm]

theorem accounted_set {conn : Conn} (h : p.Accounted conn) (session : Session) :
    (p.set session).Accounted conn := by
  apply accounted_of_get h
  · exact List.mem_append_left _
  · intro uid found hfound hconn
    by_cases hu : uid = session.uid
    · by_cases hsame : session.conn = some conn
      · exact Or.inl (held_set hsame)
      · rw [hu] at hfound
        exact Or.inr (List.mem_append_right _ (hfound ▸ mem_replaced hconn hsame))
    · exact Or.inl ⟨uid, found, by rw [get_set, if_neg hu, hfound], hconn⟩

theorem accounted_delete {conn : Conn} (h : p.Accounted conn) (u : Int) : (p.delete u).Accounted conn := by
  apply accounted_of_get h
  · exact List.mem_append_left _
  · intro uid found hfound hconn
    by_cases hu : uid = u
    · rw [hu] at hfound
      exact Or.inr (List.mem_append_right _ (by simp [hfound, hconn]))
    · exact Or.inl ⟨uid, found, by rw [get_delete, if_neg hu, hfound], hconn⟩

theorem accounted_sweepShard {conn : Conn} (h : p.Accounted conn) (now : Time) (i : Fin n) :
    (p.sweepShard now i).Accounted conn := by
  apply accounted_of_get h
  · exact List.mem_append_left _
  · intro uid found hfound hconn
    by_cases hswept : shardOf uid = i ∧ found.expireAt < now
    · have hrow : (uid, found) ∈ (p.shards i).expired now := by
        rw [SessionShard.expired, List.mem_filter]
        exact ⟨SessionShard.find_eq_some.mp (hswept.1 ▸ hfound), by simpa using hswept.2⟩
      apply Or.inr
      apply List.mem_append_right
      exact List.mem_flatMap.mpr ⟨(uid, found), hrow, by simp [hconn]⟩
    · refine Or.inl ⟨uid, found, ?_, hconn⟩
      rw [get_sweepShard, hfound]
      split_ifs with hi
      · exact Option.filter_some_pos (by simpa using not_lt.mp fun hlt => hswept ⟨hi, hlt⟩)
      · rfl

theorem accounted_closeShard {conn : Conn} (h : p.Accounted conn) (i : Fin n) :
    (p.closeShard i).Accounted conn := by
  apply accounted_of_get h
  · exact List.mem_append_left _
  · intro uid found hfound hconn
    by_cases hi : shardOf uid = i
    · have hrow : (uid, found) ∈ (p.shards i).sessions.rows := SessionShard.find_eq_some.mp (hi ▸ hfound)
      apply Or.inr
      apply List.mem_append_right
      exact List.mem_flatMap.mpr ⟨(uid, found), hrow, by simp [hconn]⟩
    · exact Or.inl ⟨uid, found, by rw [get_closeShard, if_neg hi, hfound], hconn⟩

omit [NeZero n] in
theorem sweepExpired_fst (p : ConnectionPool n) (now : Time) :
    (p.sweepExpired now).1 = (List.finRange n).foldl (fun p i => p.sweepShard now i) p := by
  change _ = (List.finRange n).foldl (fun p i => p.sweepShard now i) (p, ([] : List Session)).1
  rw [sweepExpired, List.foldl_hom Prod.fst]
  exact fun _ _ => rfl

end ConnectionPool

inductive PoolOp
  | set (session : Session)
  | delete (uid : Int)
  | sweepExpired (now : Time)
  | closeAll

namespace PoolOp

variable {n : Nat} [NeZero n] {p : ConnectionPool n}

def apply (p : ConnectionPool n) : PoolOp → ConnectionPool n
  | set session => p.set session
  | delete uid => p.delete uid
  | sweepExpired now => (p.sweepExpired now).1
  | closeAll => p.closeAll

def applyAll (p : ConnectionPool n) (ops : List PoolOp) : ConnectionPool n := ops.foldl apply p

theorem apply_rule {P : ConnectionPool n → Prop} (hset : ∀ p session, P p → P (p.set session))
    (hdelete : ∀ p uid, P p → P (p.delete uid)) (hsweep : ∀ p now i, P p → P (p.sweepShard now i))
    (hclose : ∀ p i, P p → P (p.closeShard i)) (h : P p) (op : PoolOp) : P (op.apply p) := by
  cases op with
  | set session => exact hset p session h
  | delete uid => exact hdelete p uid h
  | sweepExpired now =>
    rw [apply, ConnectionPool.sweepExpired_fst]
    exact List.foldlRecOn _ _ h fun p hp i _ => hsweep p now i hp
  | closeAll => exact List.foldlRecOn _ _ h fun p hp i _ => hclose p i hp

theorem represented_apply (h : p.Represented) (op : PoolOp) : (op.apply p).Represented := by
  apply apply_rule _ _ _ _ h op
  · exact fun _ session hp => ConnectionPool.represented_set hp session
  · exact fun _ uid hp => ConnectionPool.represented_delete hp uid
  · exact fun _ now i hp => ConnectionPool.represented_sweepShard hp now i
  · exact fun _ i hp => ConnectionPool.represented_closeShard hp i

theorem accounted_apply {conn : Conn} (h : p.Accounted conn) (op : PoolOp) : (op.apply p).Accounted conn := by
  apply apply_rule _ _ _ _ h op
  · exact fun _ session hp => ConnectionPool.accounted_set hp session
  · exact fun _ uid hp => ConnectionPool.accounted_delete hp uid
  · exact fun _ now i hp => ConnectionPool.accounted_sweepShard hp now i
  · exact fun _ i hp => ConnectionPool.accounted_closeShard hp i

theorem represented_applyAll (h : p.Represented) (ops : List PoolOp) : (applyAll p ops).Represented :=
  List.foldlRecOn _ _ h fun _ hp op _ => represented_apply hp op

theorem accounted_applyAll {ops : List PoolOp} {session : Session} {conn : Conn} (h : set session ∈ ops)
    (hconn : session.conn = some conn) (p : ConnectionPool n) : (applyAll p ops).Accounted conn := by
  obtain ⟨before, after, rfl⟩ := List.append_of_mem h
  rw [applyAll, List.foldl_append, List.foldl_cons]
  have hset : (apply (before.foldl apply p) (set session)).Accounted conn := Or.inl (ConnectionPool.held_set hconn)
  exact List.foldlRecOn after _ hset fun _ hp op _ => accounted_apply hp op

end PoolOp

theorem pool_invariant (shardCount : Int) (ops : List PoolOp) :
    let p := PoolOp.applyAll (newConnectionPool shardCount) ops
    (∀ i uid session, (p.shards i).find uid = some session →
      session.uid = uid ∧ ConnectionPool.shardOf uid = i) ∧
    (∀ i connID uid, (p.shards i).connIndex connID = some uid →
      ∃ session, (p.shards i).find uid = some session ∧ session.uid = uid ∧ session.connID = connID) ∧
    (∀ connID session, p.getByConnID connID = some session → session.connID = connID) ∧
    ∀ session conn, PoolOp.set session ∈ ops → session.conn = some conn →
      (∃ uid held, p.get uid = some held ∧ held.conn = some conn) ∨ conn ∈ p.closed := by
  intro p
  have hp : p.Represented := PoolOp.represented_applyAll ConnectionPool.represented_new ops
  refine ⟨?_, ?_, ?_, ?_⟩
  · exact fun i uid session hfound => ⟨(hp.consistent i).own uid session hfound, hp.placed i uid session hfound⟩
  · intro i connID uid hindex
    obtain ⟨-, session, hfound, hid⟩ := (hp.consistent i).index connID uid hindex
    exact ⟨session, hfound, (hp.consistent i).own uid session hfound, hid⟩
  · exact fun connID session hfound => ConnectionPool.connID_of_getByConnID hp hfound
  · exact fun session conn hmem hconn => PoolOp.accounted_applyAll hmem hconn _

end GlobalMailSystem
