import GlobalMailSystem.ConnectionMachine

namespace GlobalMailSystem.Connections

open Transition

variable {m : Nat}

def beatingOn (w : World m) (g : Fin m) (displaced : Int → Bool) : Bool :=
  w.calls.any fun call => call.gateway = g && call.pc.beating.any fun session => displaced session.uid

def sweeps (pool : Pool) (now : Time) (shard : Nat) (uid : Int) : Bool :=
  (ConnectionPool.shardOf uid : Fin 32).val = shard && (pool.get uid).any fun session => session.expireAt < now

/-- The step replaces or removes the session of a uid that a `Heartbeat` of its gateway has read and not
yet put back. -/
def displaces (w : World m) : Label m → Bool
  | .begin _ _ => false
  | .work c _ _ _ =>
    match w.calls[c]? with
    | some ⟨g, .bindPool session⟩ => beatingOn w g fun uid => uid = session.uid
    | some ⟨g, .disconnectPool u⟩ => beatingOn w g fun uid => uid = u
    | some ⟨g, .sweep now shard _⟩ => beatingOn w g (sweeps (w.pools g) now shard)
    | _ => false

theorem not_displaced {w : World m} {g : Fin m} {displaced : Int → Bool} (h : beatingOn w g displaced = false)
    {call : Call m} (hcall : call ∈ w.calls) (hg : call.gateway = g) {session : Session}
    (hsession : call.pc.beating = some session) : displaced session.uid = false := by
  have hcalls := List.any_eq_false.mp h call hcall
  simpa [hg, hsession] using hcalls

def Keyed (pool : Pool) : Prop := ∀ uid session, pool.get uid = some session → session.uid = uid

theorem keyed_set {pool : Pool} (h : Keyed pool) (session : Session) : Keyed (pool.set session) := by
  intro uid found hfound
  rw [ConnectionPool.get_set] at hfound
  split_ifs at hfound with hu
  · rw [← Option.some.inj hfound, hu]
  · exact h uid found hfound

theorem keyed_delete {pool : Pool} (h : Keyed pool) (u : Int) : Keyed (pool.delete u) := by
  intro uid found hfound
  rw [ConnectionPool.get_delete] at hfound
  split_ifs at hfound
  exact h uid found hfound

theorem keyed_moves {config : Config} {pool pool' : Pool} {store store' : GateConns} {pc pc' : CallPC}
    (h : Keyed pool) (hmoves : Moves config pool store pc pool' store' pc') : Keyed pool' := by
  cases hmoves with
  | bound session => exact keyed_set h session
  | beaten session => exact keyed_set h session
  | removed uid => exact keyed_delete h uid
  | swept now i => exact fun uid found hfound => h uid found (ConnectionPool.get_of_sweepShard hfound)
  | _ => exact h

def Holds (pool : Pool) (session : Session) : Prop :=
  ∃ slot, pool.get session.uid = some slot ∧ identity slot = identity session

theorem Holds.of_get {pool pool' : Pool} {session : Session} (h : Holds pool session)
    (hget : pool'.get session.uid = pool.get session.uid) : Holds pool' session := by
  obtain ⟨slot, hslot, hid⟩ := h
  exact ⟨slot, hget.trans hslot, hid⟩

theorem Holds.put_back {pool : Pool} {session other : Session} (h : Holds pool session)
    (hother : Holds pool other) : Holds (pool.set session) other := by
  by_cases hu : other.uid = session.uid
  · obtain ⟨slot, hslot, hid⟩ := h
    obtain ⟨slot', hslot', hid'⟩ := hother
    have he : slot' = slot := Option.some.inj (hslot'.symm.trans (hu ▸ hslot))
    refine ⟨session, ?_, ?_⟩
    · rw [ConnectionPool.get_set, if_pos hu]
    · rw [← hid, ← hid', he]
  · exact hother.of_get (by rw [ConnectionPool.get_set, if_neg hu])

theorem afterStore_beating {next : CallPC} {outcome : Outcome} {session : Session}
    (h : (afterStore next outcome).beating = some session) : next.beating = some session := by
  unfold afterStore at h
  split at h
  · cases h
  · exact h

structure PutsBack (w : World m) : Prop where
  keyed : ∀ g, Keyed (w.pools g)
  holds : ∀ call ∈ w.calls, ∀ session, call.pc.beating = some session → Holds (w.pools call.gateway) session

variable {config : Fin m → Config} {w w' : World m} {l : Label m}

theorem putsBack_work (hw : PutsBack w) {c : Nat} {g : Fin m} {pool : Pool} {store : GateConns} {pc : CallPC}
    (hkeyed : Keyed pool) (hself : ∀ session, pc.beating = some session → Holds pool session)
    (hothers : ∀ call ∈ w.calls, call.gateway = g → ∀ session, call.pc.beating = some session →
      Holds (w.pools g) session → Holds pool session) :
    PutsBack ⟨Function.update w.pools g pool, store, w.calls.set c ⟨g, pc⟩⟩ := by
  constructor
  · intro g'
    simp only [Function.update_apply]
    split_ifs
    · exact hkeyed
    · exact hw.keyed g'
  · intro call hcall session hsession
    simp only [Function.update_apply]
    rcases List.mem_or_eq_of_mem_set hcall with hcall | rfl
    · split_ifs with hg
      · exact hothers call hcall hg session hsession (hg ▸ hw.holds call hcall session hsession)
      · exact hw.holds call hcall session hsession
    · rw [if_pos rfl]
      exact hself session hsession

section Work

variable {g : Fin m} {pc pc' : CallPC} {pool : Pool} {store : GateConns}

theorem holds_own (hkeyed : Keyed (w.pools g))
    (hself : ∀ session, pc.beating = some session → Holds (w.pools g) session)
    (hmoves : Moves (config g) (w.pools g) w.store pc pool store pc') {session : Session}
    (hsession : pc'.beating = some session) : Holds pool session := by
  cases hmoves with
  | bindStored => cases afterStore_beating hsession
  | bound => cases hsession
  | refused => cases hsession
  | read uid connID slot read _ hget hpc hread =>
    have he : read = session := Option.some.inj (hpc.symm.trans hsession)
    have hu : session.uid = uid := by rw [← he, uid_of_identity hread, hkeyed uid slot hget]
    exact ⟨slot, hu ▸ hget, he ▸ hread.symm⟩
  | renewed read =>
    have hread : CallPC.beating (.heartbeatPool read) = some session := afterStore_beating hsession
    exact hself session hread
  | beaten => cases hsession
  | removed => cases hsession
  | dropped => cases afterStore_beating hsession
  | swept => cases hsession
  | sweptAll => cases hsession

theorem holds_other {c : Nat} {now redisNow : Time} {outcome : Outcome} (hcall : w.calls[c]? = some ⟨g, pc⟩)
    (hok : displaces w (.work c now redisNow outcome) = false)
    (hself : ∀ session, pc.beating = some session → Holds (w.pools g) session)
    (hmoves : Moves (config g) (w.pools g) w.store pc pool store pc') {call : Call m} (hother : call ∈ w.calls)
    (hg : call.gateway = g) {session : Session} (hsession : call.pc.beating = some session)
    (hholds : Holds (w.pools g) session) : Holds pool session := by
  -- a step that displaces nothing leaves the sessions other calls have in hand in the pool
  simp only [displaces, hcall] at hok
  cases hmoves with
  | bound bound =>
    have hu : session.uid ≠ bound.uid := by simpa using not_displaced hok hother hg hsession
    exact hholds.of_get (by rw [ConnectionPool.get_set, if_neg hu])
  | beaten read => exact (hself read rfl).put_back hholds
  | removed uid =>
    have hu : session.uid ≠ uid := by simpa using not_displaced hok hother hg hsession
    exact hholds.of_get (by rw [ConnectionPool.get_delete, if_neg hu])
  | swept now i =>
    have hkept := not_displaced hok hother hg hsession
    obtain ⟨slot, hslot, hid⟩ := hholds
    refine ⟨slot, ?_, hid⟩
    rw [ConnectionPool.get_sweepShard, hslot]
    split_ifs with hi
    · apply Option.filter_some_pos
      simpa [sweeps, hi, hslot] using hkept
    · rfl
  | _ => exact hholds

end Work

theorem putsBack_step (hw : PutsBack w) (hok : displaces w l = false) (h : step config w l = some w') :
    PutsBack w' := by
  cases step_inv h with
  | begin g request =>
    refine ⟨hw.keyed, fun call hcall session hsession => ?_⟩
    rcases List.mem_append.mp hcall with hcall | hcall
    · exact hw.holds call hcall session hsession
    · rw [List.mem_singleton.mp hcall] at hsession
      cases request <;> cases hsession
  | work c now redisNow outcome g pc pc' pool store hcall hmoves =>
    have hself := hw.holds _ (List.mem_of_getElem? hcall)
    apply putsBack_work hw (keyed_moves (hw.keyed g) hmoves)
    · exact fun session hsession => holds_own (hw.keyed g) hself hmoves hsession
    · exact fun call hother hg session hsession hholds =>
        holds_other hcall hok hself hmoves hother hg hsession hholds

theorem putsBack_init : PutsBack (init : World m) where
  keyed g uid session h := by cases h
  holds call h := absurd h List.not_mem_nil

theorem set_held {pool : Pool} {session : Session} (h : Holds pool session) :
    (pool.set session).closed = pool.closed ∧
      ∀ uid, ((pool.set session).get uid).map identity = (pool.get uid).map identity := by
  obtain ⟨slot, hslot, hid⟩ := h
  constructor
  · rw [ConnectionPool.set, hslot, replaced_of_identity hid, List.append_nil]
  · intro uid
    rw [ConnectionPool.get_set]
    split_ifs with hu
    · rw [hu, hslot, Option.map_some, Option.map_some, hid]
    · rfl

theorem heartbeat_undoes_nothing (config : Fin m → Config) (ls : List (Label m)) (w w' : World m)
    (hg : Guarded (step config) (fun w l => displaces w l = false) init ls)
    (h : run (step config) init ls = some w) (c : Nat) (now redisNow : Time) (outcome : Outcome)
    (call : Call m) (hcall : w.calls[c]? = some call) (hheartbeat : call.pc.ofHeartbeat = true)
    (hstep : step config w (.work c now redisNow outcome) = some w') (g : Fin m) :
    (w'.pools g).closed = (w.pools g).closed ∧
      ∀ uid, ((w'.pools g).get uid).map identity = ((w.pools g).get uid).map identity := by
  have hw : PutsBack w := guarded_invariant (fun _ _ _ hs hok hl => putsBack_step hs hok hl) putsBack_init hg h
  cases step_inv hstep with
  | work c now redisNow outcome g' pc pc' pool store hcall' hmoves =>
    have he : call = ⟨g', pc⟩ := Option.some.inj (hcall.symm.trans hcall')
    subst he
    simp only [Function.update_apply]
    split_ifs with hgateway
    · subst hgateway
      cases hmoves with
      | refused => exact ⟨rfl, fun uid => rfl⟩
      | read => exact ⟨rfl, fun uid => rfl⟩
      | renewed => exact ⟨rfl, fun uid => rfl⟩
      | beaten session => exact set_held (hw.holds _ (List.mem_of_getElem? hcall) session rfl)
      | _ => cases hheartbeat
    · exact ⟨rfl, fun uid => rfl⟩

def request (connID : String) (conn : Conn) : BindSessionRequest :=
  ⟨7, 1, 1, connID, "", "10.1.1.1", "phone", some conn⟩

def configs (m : Nat) : Fin m → Config := fun g => ⟨"gateway-" ++ toString g, 90 * second, 30 * second⟩

def worked (c k : Nat) (now : Time) : List (Label m) := List.replicate k (.work c now now .ok)

def theGateway : Fin 1 := Fin.last 0

def beatAgain : List (Label 1) :=
  .begin theGateway (.bind 0 (request "first" 1)) :: worked 0 2 0 ++
    .begin theGateway (.bind second (request "second" 2)) :: worked 1 2 second ++
    .begin theGateway (.heartbeat 7 "second") :: worked 2 1 (2 * second)

def afterBeatAgain : World 1 := (run (step (configs 1)) init beatAgain).get (by decide +kernel)

def afterPutBack : World 1 :=
  (step (configs 1) afterBeatAgain (.work 2 (2 * second) (2 * second) .ok)).get (by decide +kernel)

theorem beatAgain_undoes_nothing :
    ((afterPutBack.pools theGateway).get 7).map (fun session => (session.connID, session.lastHeartbeatAt)) =
        some ("second", 2 * second) ∧
      (afterPutBack.pools theGateway).closed = (afterBeatAgain.pools theGateway).closed ∧
      ∀ uid, ((afterPutBack.pools theGateway).get uid).map identity =
        ((afterBeatAgain.pools theGateway).get uid).map identity := by
  have hrun : run (step (configs 1)) init beatAgain = some afterBeatAgain := (Option.some_get _).symm
  have hstep : step (configs 1) afterBeatAgain (.work 2 (2 * second) (2 * second) .ok) = some afterPutBack :=
    (Option.some_get _).symm
  have hcall : afterBeatAgain.calls[2]? = some (afterBeatAgain.calls[2]?.get (by decide +kernel)) :=
    (Option.some_get _).symm
  exact ⟨by decide +kernel, heartbeat_undoes_nothing (configs 1) beatAgain afterBeatAgain afterPutBack
    (by decide +kernel) hrun 2 _ _ _ _ hcall (by decide +kernel) hstep theGateway⟩

def reconnected : List (Label 1) :=
  .begin theGateway (.bind 0 (request "first" 1)) :: worked 0 2 0 ++
    .begin theGateway (.heartbeat 7 "first") :: worked 1 1 second ++
    .begin theGateway (.bind second (request "second" 2)) :: worked 2 2 second

def afterReconnected : World 1 := (run (step (configs 1)) init reconnected).get (by decide +kernel)

def afterOldBeat : World 1 :=
  (step (configs 1) afterReconnected (.work 1 second second .ok)).get (by decide +kernel)

theorem oldBeat_undoes_bind :
    run (step (configs 1)) init reconnected = some afterReconnected ∧
      step (configs 1) afterReconnected (.work 1 second second .ok) = some afterOldBeat ∧
      ((afterReconnected.pools theGateway).get 7).map (·.connID) = some "second" ∧
      ((afterOldBeat.pools theGateway).get 7).map (·.connID) = some "first" ∧
      (afterReconnected.pools theGateway).closed = [1] ∧ (afterOldBeat.pools theGateway).closed = [1, 2] :=
  ⟨(Option.some_get _).symm, (Option.some_get _).symm, by decide +kernel, by decide +kernel,
    by decide +kernel, by decide +kernel⟩

end GlobalMailSystem.Connections
