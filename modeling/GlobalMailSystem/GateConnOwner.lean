import GlobalMailSystem.HeartbeatPutBack

namespace GlobalMailSystem.Connections

open Transition

variable {m : Nat}

def heldElsewhere (w : World m) (g : Fin m) (uid : Int) : Bool :=
  decide (∃ g', g' ≠ g ∧ ((w.pools g').get uid).isSome = true)

def beatingAnywhere (w : World m) (uid : Int) : Bool :=
  w.calls.any fun call => call.pc.beating.any fun session => session.uid = uid

def CallPC.dropping : CallPC → Option Int
  | .disconnectStore uid => some uid
  | _ => none

def droppingAnywhere (w : World m) (uid : Int) : Bool := w.calls.any fun call => call.pc.dropping = some uid

/-- A `Bind` installs, or a `Disconnect` removes, the session of a uid that another gateway still holds or
that another call is about to put back or to drop from the store. -/
def overlaps (w : World m) : Label m → Bool
  | .begin _ _ => false
  | .work c _ _ _ =>
    match w.calls[c]? with
    | some ⟨g, .bindPool session⟩ =>
      heldElsewhere w g session.uid || beatingAnywhere w session.uid || droppingAnywhere w session.uid
    | some ⟨g, .disconnectPool uid⟩ => heldElsewhere w g uid || beatingAnywhere w uid
    | _ => false

inductive Holder (w : World m) (g : Fin m) (session : Session) : Prop
  | pool (h : (w.pools g).get session.uid = some session)
  | beating (pc : CallPC) (hcall : ⟨g, pc⟩ ∈ w.calls) (h : pc.beating = some session)

def HeldAs (w : World m) (g : Fin m) (session : Session) : Prop :=
  ∃ held, Holder w g held ∧ identity held = identity session

theorem Holder.heldAs {w : World m} {g : Fin m} {session : Session} (h : Holder w g session) :
    HeldAs w g session := ⟨session, h, rfl⟩

structure Owned (w : World m) : Prop where
  keyed : ∀ g, Keyed (w.pools g)
  agree : ∀ g g' s s', Holder w g s → Holder w g' s' → s.uid = s'.uid → g = g' ∧ identity s = identity s'
  dropped : ∀ call ∈ w.calls, ∀ uid, call.pc.dropping = some uid → ∀ g s, Holder w g s → s.uid ≠ uid

variable {config : Fin m → Config} {w w' : World m} {l : Label m}

theorem Owned.of_heldAs (hw : Owned w) (hkeyed : ∀ g, Keyed (w'.pools g))
    (hheld : ∀ g s, Holder w' g s → HeldAs w g s)
    (hdropped : ∀ call ∈ w'.calls, ∀ uid, call.pc.dropping = some uid →
      (∃ call' ∈ w.calls, call'.pc.dropping = some uid) ∨ ∀ g s, Holder w' g s → s.uid ≠ uid) : Owned w' := by
  refine ⟨hkeyed, fun g g' s s' hs hs' hu => ?_, fun call hcall uid hpc g s hs => ?_⟩
  · obtain ⟨t, ht, hid⟩ := hheld g s hs
    obtain ⟨t', ht', hid'⟩ := hheld g' s' hs'
    obtain ⟨hg, he⟩ := hw.agree g g' t t' ht ht' (by rw [uid_of_identity hid, uid_of_identity hid', hu])
    exact ⟨hg, by rw [← hid, he, hid']⟩
  · rcases hdropped call hcall uid hpc with ⟨call', hcall', hpc'⟩ | hnone
    · obtain ⟨t, ht, hid⟩ := hheld g s hs
      rw [← uid_of_identity hid]
      exact hw.dropped call' hcall' uid hpc' g t ht
    · exact hnone g s hs

theorem holder_work {c : Nat} {g : Fin m} {pool : Pool} {store : GateConns} {pc : CallPC} {g' : Fin m} {s : Session}
    (h : Holder ⟨Function.update w.pools g pool, store, w.calls.set c ⟨g, pc⟩⟩ g' s) :
    (g' = g ∧ (pool.get s.uid = some s ∨ pc.beating = some s)) ∨
      (g' ≠ g ∧ (w.pools g').get s.uid = some s) ∨ ∃ pc', ⟨g', pc'⟩ ∈ w.calls ∧ pc'.beating = some s := by
  cases h with
  | pool h =>
    simp only [Function.update_apply] at h
    split_ifs at h with hg
    · exact Or.inl ⟨hg, Or.inl h⟩
    · exact Or.inr (Or.inl ⟨hg, h⟩)
  | beating pc' hcall h =>
    rcases List.mem_or_eq_of_mem_set hcall with hcall | he
    · exact Or.inr (Or.inr ⟨pc', hcall, h⟩)
    · cases he
      exact Or.inl ⟨rfl, Or.inr h⟩

theorem heldAs_work {c : Nat} {g : Fin m} {pool : Pool} {store : GateConns} {pc : CallPC}
    (hpool : ∀ s, pool.get s.uid = some s → HeldAs w g s) (hpc : ∀ s, pc.beating = some s → HeldAs w g s)
    (g' : Fin m) (s : Session)
    (h : Holder ⟨Function.update w.pools g pool, store, w.calls.set c ⟨g, pc⟩⟩ g' s) : HeldAs w g' s := by
  rcases holder_work h with ⟨rfl, h | h⟩ | ⟨-, h⟩ | ⟨pc', hcall, h⟩
  · exact hpool s h
  · exact hpc s h
  · exact (Holder.pool h).heldAs
  · exact (Holder.beating pc' hcall h).heldAs

theorem keyed_work (hw : Owned w) {g : Fin m} {pool : Pool} (hpool : Keyed pool) (g' : Fin m) :
    Keyed (Function.update w.pools g pool g') := by
  rw [Function.update_apply]
  split_ifs
  · exact hpool
  · exact hw.keyed g'

theorem owned_work (hw : Owned w) {c : Nat} {g : Fin m} {pool : Pool} {store : GateConns} {pc : CallPC}
    (hkeyed : Keyed pool) (hpool : ∀ s, pool.get s.uid = some s → HeldAs w g s)
    (hpc : ∀ s, pc.beating = some s → HeldAs w g s) (hdropping : pc.dropping = none) :
    Owned ⟨Function.update w.pools g pool, store, w.calls.set c ⟨g, pc⟩⟩ := by
  apply hw.of_heldAs (keyed_work hw hkeyed) (heldAs_work hpool hpc)
  intro call hcall uid huid
  rcases List.mem_or_eq_of_mem_set hcall with hcall | rfl
  · exact Or.inl ⟨call, hcall, huid⟩
  · cases hdropping.symm.trans huid

theorem not_heldElsewhere {g g' : Fin m} {uid : Int} {s : Session} (h : heldElsewhere w g uid = false)
    (hg : g' ≠ g) (hs : (w.pools g').get s.uid = some s) : s.uid ≠ uid := by
  rintro rfl
  exact of_decide_eq_false h ⟨g', hg, by rw [hs]; rfl⟩

theorem not_beatingAnywhere {uid : Int} {call : Call m} {s : Session} (h : beatingAnywhere w uid = false)
    (hcall : call ∈ w.calls) (hs : call.pc.beating = some s) : s.uid ≠ uid := by
  have hcalls := List.any_eq_false.mp h call hcall
  simpa [hs] using hcalls

theorem not_droppingAnywhere {uid u : Int} {call : Call m} (h : droppingAnywhere w uid = false)
    (hcall : call ∈ w.calls) (hu : call.pc.dropping = some u) : u ≠ uid := by
  have hcalls := List.any_eq_false.mp h call hcall
  simpa [hu] using hcalls

theorem owned_bound (hw : Owned w) {c : Nat} {g : Fin m} {session : Session} {store : GateConns} {result : Result}
    (helsewhere : heldElsewhere w g session.uid = false) (hbeating : beatingAnywhere w session.uid = false)
    (hdropping : droppingAnywhere w session.uid = false) :
    Owned ⟨Function.update w.pools g ((w.pools g).set session), store, w.calls.set c ⟨g, .returned result⟩⟩ := by
  -- the new session is the only one of its uid, every other one was there before
  have hnew : ∀ g' s, Holder ⟨Function.update w.pools g ((w.pools g).set session), store,
      w.calls.set c ⟨g, .returned result⟩⟩ g' s → (g' = g ∧ s = session) ∨ (Holder w g' s ∧ s.uid ≠ session.uid) := by
    intro g' s hs
    rcases holder_work hs with ⟨rfl, h | h⟩ | ⟨hg, h⟩ | ⟨pc, hcall, h⟩
    · rw [ConnectionPool.get_set] at h
      split_ifs at h with hu
      · exact Or.inl ⟨rfl, (Option.some.inj h).symm⟩
      · exact Or.inr ⟨.pool h, hu⟩
    · cases h
    · exact Or.inr ⟨.pool h, not_heldElsewhere helsewhere hg h⟩
    · exact Or.inr ⟨.beating pc hcall h, not_beatingAnywhere hbeating hcall h⟩
  refine ⟨keyed_work hw (keyed_set (hw.keyed g) session), fun g₁ g₂ s₁ s₂ h₁ h₂ hu => ?_,
    fun call hcall uid huid g' s hs => ?_⟩
  · rcases hnew g₁ s₁ h₁ with ⟨rfl, rfl⟩ | ⟨h₁, hne₁⟩
    · rcases hnew g₂ s₂ h₂ with ⟨rfl, rfl⟩ | ⟨-, hne₂⟩
      · exact ⟨rfl, rfl⟩
      · exact absurd hu.symm hne₂
    · rcases hnew g₂ s₂ h₂ with ⟨rfl, rfl⟩ | ⟨h₂, -⟩
      · exact absurd hu hne₁
      · exact hw.agree g₁ g₂ s₁ s₂ h₁ h₂ hu
  · rcases List.mem_or_eq_of_mem_set hcall with hbefore | rfl
    · rcases hnew g' s hs with ⟨-, rfl⟩ | ⟨hs, -⟩
      · exact (not_droppingAnywhere hdropping hbefore huid).symm
      · exact hw.dropped call hbefore uid huid g' s hs
    · cases huid

theorem heldAs_pool (hw : Owned w) {g : Fin m} {uid : Int} {s : Session} (h : (w.pools g).get uid = some s) :
    HeldAs w g s :=
  Holder.heldAs (.pool (hw.keyed g uid s h ▸ h))

theorem owned_removed (hw : Owned w) {c : Nat} {g : Fin m} {uid : Int} {store : GateConns}
    (helsewhere : heldElsewhere w g uid = false) (hbeating : beatingAnywhere w uid = false) :
    Owned ⟨Function.update w.pools g ((w.pools g).delete uid), store, w.calls.set c ⟨g, .disconnectStore uid⟩⟩ := by
  have hkept : ∀ s u, ((w.pools g).delete uid).get u = some s → u ≠ uid ∧ (w.pools g).get u = some s := by
    intro s u h
    rw [ConnectionPool.get_delete] at h
    split_ifs at h with hu
    exact ⟨hu, h⟩
  apply hw.of_heldAs (keyed_work hw (keyed_delete (hw.keyed g) uid))
  · exact heldAs_work (fun s h => heldAs_pool hw (hkept s s.uid h).2) (fun s h => by cases h)
  · intro call hcall u hu
    rcases List.mem_or_eq_of_mem_set hcall with hcall | rfl
    · exact Or.inl ⟨call, hcall, hu⟩
    · right
      intro g' s hs
      rw [← Option.some.inj hu]
      rcases holder_work hs with ⟨rfl, h | h⟩ | ⟨hg, h⟩ | ⟨pc, hcall, h⟩
      · exact (hkept s s.uid h).1
      · cases h
      · exact not_heldElsewhere helsewhere hg h
      · exact not_beatingAnywhere hbeating hcall h

theorem afterStore_dropping {next : CallPC} (h : next.dropping = none) (outcome : Outcome) :
    (afterStore next outcome).dropping = none := by
  unfold afterStore
  split
  · rfl
  · exact h

theorem owned_begin (hw : Owned w) (g : Fin m) (config : Config) (request : Request) :
    Owned { w with calls := w.calls ++ [⟨g, start config w.calls.length request⟩] } := by
  have hpc : (start config w.calls.length request).beating = none ∧
      (start config w.calls.length request).dropping = none := by
    cases request <;> exact ⟨rfl, rfl⟩
  refine hw.of_heldAs (fun g' => hw.keyed g') ?_ ?_
  · intro g' s hs
    cases hs with
    | pool h => exact heldAs_pool hw h
    | beating pc hcall h =>
      rcases List.mem_append.mp hcall with hcall | hcall
      · exact (Holder.beating pc hcall h).heldAs
      · cases List.mem_singleton.mp hcall
        cases hpc.1.symm.trans h
  · intro call hcall uid huid
    rcases List.mem_append.mp hcall with hcall | hcall
    · exact Or.inl ⟨call, hcall, huid⟩
    · cases List.mem_singleton.mp hcall
      cases hpc.2.symm.trans huid

theorem owned_step (hw : Owned w) (hok : overlaps w l = false) (h : step config w l = some w') : Owned w' := by
  cases step_inv h with
  | begin g request => exact owned_begin hw g (config g) request
  | work c now redisNow outcome g pc pc' pool store hcall hmoves =>
    have hmem := List.mem_of_getElem? hcall
    have hkeyed := keyed_moves (hw.keyed g) hmoves
    have hsame : ∀ s, (w.pools g).get s.uid = some s → HeldAs w g s := fun s h => (Holder.pool h).heldAs
    simp only [overlaps, hcall] at hok
    cases hmoves with
    | bindStored session =>
      exact owned_work hw hkeyed hsame (fun s h => by cases afterStore_beating h) (afterStore_dropping rfl _)
    | bound session =>
      simp only [Bool.or_eq_false_iff] at hok
      exact owned_bound hw hok.1.1 hok.1.2 hok.2
    | refused => exact owned_work hw hkeyed hsame (fun s h => by cases h) rfl
    | read uid connID session read _ hget hpc hread =>
      apply owned_work hw hkeyed hsame
      · intro s hs
        have he : read = s := Option.some.inj (hpc.symm.trans hs)
        obtain ⟨held, hheld, hid⟩ := heldAs_pool hw hget
        exact ⟨held, hheld, hid.trans (he ▸ hread.symm)⟩
      · cases pc' <;> first | rfl | cases hpc
    | renewed session =>
      apply owned_work hw hkeyed hsame _ (afterStore_dropping rfl _)
      intro s hs
      have hbeating : CallPC.beating (.heartbeatPool session) = some s := afterStore_beating hs
      exact (Holder.beating _ hmem hbeating).heldAs
    | beaten session =>
      apply owned_work hw hkeyed _ (fun s h => by cases h) rfl
      intro s hs
      rw [ConnectionPool.get_set] at hs
      split_ifs at hs with hu
      · rw [← Option.some.inj hs]
        exact (Holder.beating _ hmem rfl).heldAs
      · exact hsame s hs
    | removed uid =>
      simp only [Bool.or_eq_false_iff] at hok
      exact owned_removed hw hok.1 hok.2
    | dropped uid =>
      exact owned_work hw hkeyed hsame (fun s h => by cases afterStore_beating h) (afterStore_dropping rfl _)
    | swept now i =>
      exact owned_work hw hkeyed (fun s h => hsame s (ConnectionPool.get_of_sweepShard h)) (fun s h => by cases h) rfl
    | sweptAll => exact owned_work hw hkeyed hsame (fun s h => by cases h) rfl

theorem owned_init : Owned (init : World m) where
  keyed := putsBack_init.keyed
  agree g g' s s' h := by
    cases h with
    | pool h => cases h
    | beating pc hcall => cases hcall
  dropped call h := absurd h List.not_mem_nil

theorem latest_gateConn_kept (config : Fin m → Config) (ls : List (Label m)) (w w' : World m)
    (hguard : Guarded (step config) (fun w l => overlaps w l = false) init ls)
    (h : run (step config) init ls = some w) (g : Fin m) (uid : Int) (session : Session)
    (hbound : (w.pools g).get uid = some session) (c : Nat) (now redisNow : Time) (outcome : Outcome)
    (call : Call m) (hcall : w.calls[c]? = some call)
    (hpc : call.pc.ofHeartbeat = true ∨ call.pc.ofDisconnect = true)
    (hstep : step config w (.work c now redisNow outcome) = some w') :
    w'.store uid = w.store uid ∨ ∃ stored, w'.store uid = some stored ∧
      stored.value.gatewayAddr = session.gatewayAddr ∧ stored.value.connID = session.connID := by
  have hw : Owned w := guarded_invariant (fun _ _ _ hs hok hl => owned_step hs hok hl) owned_init hguard h
  have huid : session.uid = uid := hw.keyed g uid session hbound
  have hholder : Holder w g session := .pool (huid ▸ hbound)
  cases step_inv hstep with
  | work c now redisNow outcome g' pc pc' pool store hcall' hmoves =>
    have he : call = ⟨g', pc⟩ := Option.some.inj (hcall.symm.trans hcall')
    subst he
    have hmem := List.mem_of_getElem? hcall
    cases hmoves with
    | refused => exact Or.inl rfl
    | read => exact Or.inl rfl
    | renewed beating redisNow outcome =>
      rcases writeGateConn_apply (config g') beating redisNow outcome w.store uid with hsame | ⟨hu, stored, hs, hv⟩
      · exact Or.inl hsame
      · obtain ⟨-, hid⟩ := hw.agree g' g beating session (.beating _ hmem rfl) hholder (hu.symm.trans huid.symm)
        refine Or.inr ⟨stored, hs, ?_, ?_⟩
        · rw [hv, ← gatewayAddr_of_identity hid]
          rfl
        · rw [hv, ← connID_of_identity hid]
          rfl
    | beaten => exact Or.inl rfl
    | removed => exact Or.inl rfl
    | dropped u outcome =>
      have hne : session.uid ≠ u := hw.dropped _ hmem u rfl g session hholder
      exact Or.inl (dropGateConn_apply_ne (huid ▸ hne) outcome w.store)
    | _ => simp [CallPC.ofHeartbeat, CallPC.ofDisconnect] at hpc

def named (w : World m) (uid : Int) : Option (String × String) :=
  (w.store uid).map fun stored => (stored.value.gatewayAddr, stored.value.connID)

def moved : List (Label 2) :=
  .begin 0 (.bind 0 (request "first" 1)) :: worked 0 2 0 ++
    .begin 0 (.disconnect 7) :: worked 1 2 second ++
    .begin 1 (.bind second (request "second" 2)) :: worked 2 2 second ++
    .begin 1 (.heartbeat 7 "second") :: worked 3 1 (40 * second)

def afterMoved : World 2 := (run (step (configs 2)) init moved).get (by decide +kernel)

def afterRenewal : World 2 :=
  (step (configs 2) afterMoved (.work 3 (40 * second) (40 * second) .ok)).get (by decide +kernel)

def movedSession : Session := ((afterMoved.pools 1).get 7).get (by decide +kernel)

theorem moved_gateConn_kept :
    movedSession.connID = "second" ∧ (afterRenewal.store 7).map (·.keyExpireAt) = some (130 * second) ∧
      (afterRenewal.store 7 = afterMoved.store 7 ∨ ∃ stored, afterRenewal.store 7 = some stored ∧
        stored.value.gatewayAddr = movedSession.gatewayAddr ∧ stored.value.connID = movedSession.connID) := by
  have hrun : run (step (configs 2)) init moved = some afterMoved := (Option.some_get _).symm
  have hstep : step (configs 2) afterMoved (.work 3 (40 * second) (40 * second) .ok) = some afterRenewal :=
    (Option.some_get _).symm
  have hbound : (afterMoved.pools 1).get 7 = some movedSession := (Option.some_get _).symm
  have hcall : afterMoved.calls[3]? = some (afterMoved.calls[3]?.get (by decide +kernel)) :=
    (Option.some_get _).symm
  exact ⟨by decide +kernel, by decide +kernel, latest_gateConn_kept (configs 2) moved afterMoved afterRenewal
    (by decide +kernel) hrun 1 7 movedSession hbound 3 _ _ _ _ hcall (Or.inl (by decide +kernel)) hstep⟩

def stranded : List (Label 2) :=
  .begin 0 (.bind 0 (request "first" 1)) :: worked 0 2 0 ++
    .begin 1 (.bind (20 * second) (request "second" 2)) :: worked 1 2 (20 * second) ++
    .begin 0 (.heartbeat 7 "first") :: worked 2 1 (40 * second)

def afterStranded : World 2 := (run (step (configs 2)) init stranded).get (by decide +kernel)

def afterOldRenewal : World 2 :=
  (step (configs 2) afterStranded (.work 2 (40 * second) (40 * second) .ok)).get (by decide +kernel)

theorem oldRenewal_takes_gateConn :
    run (step (configs 2)) init stranded = some afterStranded ∧
      step (configs 2) afterStranded (.work 2 (40 * second) (40 * second) .ok) = some afterOldRenewal ∧
      named afterStranded 7 = some ("gateway-1", "second") ∧
      named afterOldRenewal 7 = some ("gateway-0", "first") ∧
      ((afterOldRenewal.pools 1).get 7).map (·.connID) = some "second" :=
  ⟨(Option.some_get _).symm, (Option.some_get _).symm, by decide +kernel, by decide +kernel, by decide +kernel⟩

end GlobalMailSystem.Connections
