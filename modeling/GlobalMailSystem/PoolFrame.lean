import GlobalMailSystem.PoolInvariant

namespace GlobalMailSystem

namespace SessionShard

variable {shard : SessionShard}

theorem unindexOld_isSome {session : Session} {connID : String} (hne : connID ≠ session.connID) (hid : connID ≠ "") :
    (shard.unindexOld session connID).isSome ↔
      (shard.connIndex connID).isSome ∧ ∀ old, shard.find session.uid = some old → old.connID ≠ connID := by
  unfold unindexOld
  cases shard.find session.uid with
  | none => simp
  | some old =>
    by_cases hold : old.connID = connID
    · have hrename : old.connID ≠ "" ∧ old.connID ≠ session.connID := by
        rw [hold]
        exact ⟨hid, hne⟩
      simp [hold ▸ hrename, hold]
    · have hother : connID ≠ old.connID := Ne.symm hold
      by_cases hrename : old.connID ≠ "" ∧ old.connID ≠ session.connID
      · simp [if_pos hrename, Function.update_of_ne hother, hold]
      · simp [if_neg hrename, hold]

theorem connIndex_set_isSome {session : Session} {connID : String} (hid : connID ≠ "") :
    ((shard.set session).connIndex connID).isSome ↔
      session.connID = connID ∨ (shard.connIndex connID).isSome ∧
        ∀ old, shard.find session.uid = some old → old.connID ≠ connID := by
  by_cases hnew : connID = session.connID
  · subst hnew
    simp [connIndex_set session _ hid]
  · have hsame : (shard.set session).connIndex connID = shard.unindexOld session connID := by
      by_cases hs : session.connID = ""
      · simp [set, hs]
      · rw [connIndex_set session connID hs, if_neg hnew]
    rw [hsame, unindexOld_isSome hnew hid, or_iff_right (Ne.symm hnew)]

theorem connIndex_delete_isSome {uid : Int} {connID : String} (hid : connID ≠ "") :
    ((shard.delete uid).connIndex connID).isSome ↔
      (shard.connIndex connID).isSome ∧ ∀ old, shard.find uid = some old → old.connID ≠ connID := by
  unfold delete
  cases shard.find uid with
  | none => simp
  | some old =>
    simp only [connIndex_evict (uid, old) connID hid, Option.some.injEq, forall_eq']
    by_cases hold : connID = old.connID
    · simp [hold]
    · simp [hold, Ne.symm hold]

theorem connIndex_evicted_isSome {rows : List (Int × Session)} {connID : String} (hid : connID ≠ "") :
    ((rows.foldl evict shard).connIndex connID).isSome ↔
      (shard.connIndex connID).isSome ∧ ∀ row ∈ rows, row.2.connID ≠ connID := by
  induction rows generalizing shard with
  | nil => simp
  | cons row rows ih =>
    rw [List.foldl_cons, ih, connIndex_evict row connID hid, List.forall_mem_cons]
    by_cases hrow : connID = row.2.connID
    · simp [hrow]
    · simp [hrow, Ne.symm hrow]

end SessionShard

namespace ConnectionPool

variable {n : Nat}

def sessions (p : ConnectionPool n) : List Session :=
  (List.finRange n).flatMap fun i => (p.shards i).sessions.rows.map Prod.snd

theorem sweepShards_spec (now : Time) (l : List (Fin n)) (hl : l.Nodup) (p : ConnectionPool n) :
    (∀ i, (l.foldl (fun p i => p.sweepShard now i) p).shards i =
      if i ∈ l then (p.shards i).sweep now else p.shards i) ∧
    (l.foldl (fun p i => p.sweepShard now i) p).closed =
      p.closed ++ l.flatMap fun i => ((p.shards i).expired now).flatMap fun row => row.2.conn.toList := by
  -- the sections of a sweep are independent: each finds its shard as the sweep found it
  induction l generalizing p with
  | nil => simp
  | cons j l ih =>
    obtain ⟨hj, hl⟩ := List.nodup_cons.mp hl
    obtain ⟨hshards, hclosed⟩ := ih hl (p.sweepShard now j)
    have hother {i : Fin n} (hi : i ≠ j) : (p.sweepShard now j).shards i = p.shards i :=
      Function.update_of_ne hi _ _
    constructor
    · intro i
      rw [List.foldl_cons, hshards]
      by_cases hi : i = j
      · subst hi
        rw [if_neg hj, if_pos List.mem_cons_self]
        exact Function.update_self _ _ _
      · simp only [hother hi, List.mem_cons, hi, false_or]
    · rw [List.foldl_cons, hclosed, List.flatMap_cons, ← List.append_assoc]
      congr 1
      apply List.flatMap_congr
      intro i hi
      rw [hother fun he => hj (he ▸ hi)]

theorem shards_sweepExpired (p : ConnectionPool n) (now : Time) (i : Fin n) :
    (p.sweepExpired now).1.shards i = (p.shards i).sweep now := by
  rw [sweepExpired_fst, (sweepShards_spec now _ (List.nodup_finRange n) p).1, if_pos (List.mem_finRange i)]

theorem mem_closed_sweepExpired {p : ConnectionPool n} {now : Time} {conn : Conn} :
    conn ∈ (p.sweepExpired now).1.closed ↔
      conn ∈ p.closed ∨ ∃ session ∈ p.sessions, session.expireAt < now ∧ session.conn = some conn := by
  rw [sweepExpired_fst, (sweepShards_spec now _ (List.nodup_finRange n) p).2]
  simp only [List.mem_append, List.mem_flatMap, List.mem_finRange, true_and, SessionShard.expired,
    List.mem_filter, decide_eq_true_eq, Option.mem_toList, sessions, List.mem_map]
  apply or_congr_right
  constructor
  · rintro ⟨i, row, ⟨hrow, hlt⟩, hconn⟩
    exact ⟨row.2, ⟨i, row, hrow, rfl⟩, hlt, hconn⟩
  · rintro ⟨_, ⟨i, row, hrow, rfl⟩, hlt, hconn⟩
    exact ⟨i, row, ⟨hrow, hlt⟩, hconn⟩

variable [NeZero n] {p : ConnectionPool n}

theorem getByConnID_isSome (h : p.Represented) {connID : String} (hid : connID ≠ "") :
    (p.getByConnID connID).isSome ↔ ∃ i, ((p.shards i).connIndex connID).isSome := by
  constructor
  · intro hsome
    obtain ⟨session, hfound⟩ := Option.isSome_iff_exists.mp hsome
    obtain ⟨i, uid, hindex, -⟩ := getByConnID_eq_some hfound
    exact ⟨i, Option.isSome_of_eq_some hindex⟩
  · rintro ⟨i, hindexed⟩
    obtain ⟨uid, hindex⟩ := Option.isSome_iff_exists.mp hindexed
    have hfirst : ((List.finRange n).findSome? fun i =>
        ((p.shards i).connIndex connID).map (p.shards i).find).isSome := by
      rw [List.findSome?_isSome_iff]
      exact ⟨i, List.mem_finRange i, by simp [hindex]⟩
    obtain ⟨slot, hslot⟩ := Option.isSome_iff_exists.mp hfirst
    obtain ⟨j, -, hj⟩ := List.exists_of_findSome?_eq_some hslot
    obtain ⟨u, hentry, rfl⟩ := Option.map_eq_some_iff.mp hj
    obtain ⟨-, session, hfound, -⟩ := (h.consistent j).index connID u hentry
    rw [getByConnID, if_neg hid, hslot, Option.join_some, hfound]
    rfl

end ConnectionPool

namespace PoolOp

variable {n : Nat} [NeZero n] {p : ConnectionPool n}

def keeps (uid : Int) (session : Session) : PoolOp → Bool
  | set new => uid ≠ new.uid
  | delete u => uid ≠ u
  | sweepExpired now => now ≤ session.expireAt
  | closeAll => false

def drops (p : ConnectionPool n) (i : Fin n) (connID : String) : PoolOp → Prop
  | set new => i = ConnectionPool.shardOf new.uid ∧ ∃ old, p.get new.uid = some old ∧ old.connID = connID
  | delete uid => i = ConnectionPool.shardOf uid ∧ ∃ old, p.get uid = some old ∧ old.connID = connID
  | sweepExpired now => ∃ row ∈ (p.shards i).expired now, row.2.connID = connID
  | closeAll => True

def puts (connID : String) : PoolOp → Prop
  | set new => new.connID = connID
  | _ => False

def closes (p : ConnectionPool n) : PoolOp → List Conn
  | set new => ConnectionPool.replaced (p.get new.uid) new
  | delete uid => (p.get uid).toList.flatMap fun old => old.conn.toList
  | sweepExpired now => (p.sessions.filter fun session => session.expireAt < now).flatMap fun session => session.conn.toList
  | closeAll => p.sessions.flatMap fun session => session.conn.toList

/-- What spares a session, read off the pool before the operation: if some shard has its connection id, then one
of them keeps it or a `Set` brings it back, and if none has it none gets it; its connection is closed by now, or
is not one of those the operation closes. -/
structure Spares (p : ConnectionPool n) (session : Session) (op : PoolOp) : Prop where
  index : session.connID ≠ "" →
    ((∃ i, ((p.shards i).connIndex session.connID).isSome) ↔
      op.puts session.connID ∨
        ∃ i, ((p.shards i).connIndex session.connID).isSome ∧ ¬ op.drops p i session.connID)
  conn : ∀ conn, session.conn = some conn → conn ∈ p.closed ∨ conn ∉ op.closes p

theorem get_apply_of_keeps {op : PoolOp} {uid : Int} {session : Session} (hget : p.get uid = some session)
    (hkeeps : op.keeps uid session = true) : (op.apply p).get uid = some session := by
  cases op with
  | set new =>
    rw [apply, ConnectionPool.get_set, if_neg (by simpa [keeps] using hkeeps), hget]
  | delete u =>
    rw [apply, ConnectionPool.get_delete, if_neg (by simpa [keeps] using hkeeps), hget]
  | sweepExpired now =>
    rw [apply, ConnectionPool.get, ConnectionPool.shards_sweepExpired, SessionShard.find_sweep]
    rw [ConnectionPool.get] at hget
    rw [hget]
    exact Option.filter_some_pos hkeeps
  | closeAll => cases hkeeps

omit [NeZero n] in
theorem indexed_update {connID : String} {i : Fin n} {shard : SessionShard} :
    (∃ j, ((Function.update p.shards i shard j).connIndex connID).isSome) ↔
      (shard.connIndex connID).isSome ∨ ∃ j, j ≠ i ∧ ((p.shards j).connIndex connID).isSome := by
  constructor
  · rintro ⟨j, hj⟩
    by_cases hji : j = i
    · subst hji
      exact Or.inl (by simpa only [Function.update_self] using hj)
    · exact Or.inr ⟨j, hji, by simpa only [Function.update_of_ne hji] using hj⟩
  · rintro (hi | ⟨j, hji, hj⟩)
    · exact ⟨i, by simpa only [Function.update_self] using hi⟩
    · exact ⟨j, by simpa only [Function.update_of_ne hji] using hj⟩

omit [NeZero n] in
theorem exists_kept_iff {u : Fin n} {P : Fin n → Prop} {Q : Prop} :
    (∃ i, P i ∧ ¬ (i = u ∧ Q)) ↔ (P u ∧ ¬ Q) ∨ ∃ i, i ≠ u ∧ P i := by
  constructor
  · rintro ⟨i, hi, hkept⟩
    by_cases hu : i = u
    · subst hu
      exact Or.inl ⟨hi, fun hq => hkept ⟨rfl, hq⟩⟩
    · exact Or.inr ⟨i, hu, hi⟩
  · rintro (⟨hu, hq⟩ | ⟨i, hu, hi⟩)
    · exact ⟨u, hu, fun h => hq h.2⟩
    · exact ⟨i, hi, fun h => hu h.1⟩

theorem indexed_apply {op : PoolOp} {uid : Int} {session : Session} {connID : String}
    (hkeeps : op.keeps uid session = true) (hid : connID ≠ "") :
    (∃ i, (((op.apply p).shards i).connIndex connID).isSome) ↔
      op.puts connID ∨ ∃ i, ((p.shards i).connIndex connID).isSome ∧ ¬ op.drops p i connID := by
  cases op with
  | set new =>
    refine indexed_update.trans ?_
    simp only [puts, drops, exists_kept_iff]
    simp only [SessionShard.connIndex_set_isSome hid, not_exists, not_and, or_assoc]
    rfl
  | delete u =>
    refine indexed_update.trans ?_
    simp only [puts, drops, exists_kept_iff]
    simp only [SessionShard.connIndex_delete_isSome hid, not_exists, not_and, false_or]
    rfl
  | sweepExpired now =>
    simp only [puts, drops, apply, ConnectionPool.shards_sweepExpired, SessionShard.sweep,
      SessionShard.connIndex_evicted_isSome hid, not_exists, not_and, false_or]
  | closeAll => cases hkeeps

theorem mem_closed_apply {op : PoolOp} {uid : Int} {session : Session} {conn : Conn}
    (hkeeps : op.keeps uid session = true) :
    conn ∈ (op.apply p).closed ↔ conn ∈ p.closed ∨ conn ∈ op.closes p := by
  cases op with
  | set new => exact List.mem_append
  | delete u => exact List.mem_append
  | sweepExpired now =>
    rw [apply, ConnectionPool.mem_closed_sweepExpired]
    simp only [closes, List.mem_flatMap, List.mem_filter, decide_eq_true_eq, Option.mem_toList, and_assoc]
  | closeAll => cases hkeeps

end PoolOp

theorem other_session_undisturbed (shardCount : Int) (ops : List PoolOp) (op : PoolOp) (uid : Int)
    (session : Session) (hget : (PoolOp.applyAll (newConnectionPool shardCount) ops).get uid = some session)
    (hkeeps : op.keeps uid session = true) :
    let p := PoolOp.applyAll (newConnectionPool shardCount) ops
    (op.apply p).get uid = some session ∧
    (((session.connID ≠ "" →
        ((op.apply p).getByConnID session.connID).isSome = (p.getByConnID session.connID).isSome) ∧
      ∀ conn, session.conn = some conn → (conn ∈ (op.apply p).closed ↔ conn ∈ p.closed)) ↔
    op.Spares p session) := by
  intro p
  have hp : p.Represented := PoolOp.represented_applyAll ConnectionPool.represented_new ops
  refine ⟨PoolOp.get_apply_of_keeps hget hkeeps, ?_⟩
  have hindex (hid : session.connID ≠ "") :
      ((op.apply p).getByConnID session.connID).isSome = (p.getByConnID session.connID).isSome ↔
      ((∃ i, ((p.shards i).connIndex session.connID).isSome) ↔ op.puts session.connID ∨
        ∃ i, ((p.shards i).connIndex session.connID).isSome ∧ ¬ op.drops p i session.connID) := by
    rw [Bool.eq_iff_iff, ConnectionPool.getByConnID_isSome (PoolOp.represented_apply hp op) hid,
      ConnectionPool.getByConnID_isSome hp hid, PoolOp.indexed_apply hkeeps hid]
    exact Iff.comm
  have hconn (conn : Conn) : (conn ∈ (op.apply p).closed ↔ conn ∈ p.closed) ↔
      conn ∈ p.closed ∨ conn ∉ op.closes p := by
    rw [PoolOp.mem_closed_apply hkeeps]
    tauto
  constructor
  · rintro ⟨hsame, hopen⟩
    exact ⟨fun hid => (hindex hid).mp (hsame hid), fun conn h => (hconn conn).mp (hopen conn h)⟩
  · rintro ⟨hsame, hopen⟩
    exact ⟨fun hid => (hindex hid).mpr (hsame hid), fun conn h => (hconn conn).mpr (hopen conn h)⟩

def sessionOf (uid : Int) (connID : String) (conn : Option Conn) : Session where
  uid := uid
  roleID := uid
  serverID := 1
  connID := connID
  gatewayAddr := "127.0.0.1:8080"
  clientIP := ""
  deviceID := ""
  connectedAt := 0
  lastHeartbeatAt := 0
  lastRenewAt := 0
  expireAt := 90
  conn := conn
  bind := 0

def boundApart : List PoolOp := [.set (sessionOf 1 "a" (some 7)), .set (sessionOf 2 "a" (some 8))]

def boundTwice : ConnectionPool (poolShards 32) :=
  PoolOp.applyAll (newConnectionPool 32) [.set (sessionOf 1 "a" (some 7)), .set (sessionOf 36 "a" (some 7))]

theorem boundApart_spares :
    (PoolOp.delete 1).Spares (PoolOp.applyAll (newConnectionPool 32) boundApart) (sessionOf 2 "a" (some 8)) where
  index := by
    have hkept : (((PoolOp.applyAll (newConnectionPool 32) boundApart).shards
        (ConnectionPool.shardOf 2)).connIndex "a").isSome := by decide +kernel
    have hother : (ConnectionPool.shardOf 2 : Fin (poolShards 32)) ≠ ConnectionPool.shardOf 1 := by decide +kernel
    exact fun _ => iff_of_true ⟨_, hkept⟩ (Or.inr ⟨_, hkept, fun hdrops => hother hdrops.1⟩)
  conn := by
    intro conn hconn
    rw [← Option.some.inj hconn]
    exact Or.inr (by decide +kernel)

theorem apart_undisturbed :
    ((PoolOp.delete 1).apply (PoolOp.applyAll (newConnectionPool 32) boundApart)).get 2 =
        some (sessionOf 2 "a" (some 8)) ∧
      (((PoolOp.delete 1).apply (PoolOp.applyAll (newConnectionPool 32) boundApart)).getByConnID "a").isSome =
        ((PoolOp.applyAll (newConnectionPool 32) boundApart).getByConnID "a").isSome := by
  obtain ⟨hget, hspared⟩ := other_session_undisturbed 32 boundApart (.delete 1) 2 (sessionOf 2 "a" (some 8))
    (by decide +kernel) (by decide)
  exact ⟨hget, (hspared.mpr boundApart_spares).1 (by decide)⟩

theorem shared_connection_lost :
    boundTwice.get 36 = some (sessionOf 36 "a" (some 7)) ∧ (boundTwice.getByConnID "a").isSome ∧
    7 ∉ boundTwice.closed ∧ (PoolOp.delete 1).keeps 36 (sessionOf 36 "a" (some 7)) = true ∧
    ((PoolOp.delete 1).apply boundTwice).getByConnID "a" = none ∧
    7 ∈ ((PoolOp.delete 1).apply boundTwice).closed := by
  decide +kernel

end GlobalMailSystem
