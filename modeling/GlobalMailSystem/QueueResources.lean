import GlobalMailSystem.QueueInvariants

namespace GlobalMailSystem.CommandQueue

open Rpc.Wire Transition

def InsideHandle (w : World) (c : Nat) : Prop :=
  ∃ lane ∈ w.lanes.rows, ∃ req stage, lane.pc = .handle ⟨c, req⟩ stage

def Stage.hands : Stage → Bool
  | .releaseSlot _ | .send _ | .finish => true
  | _ => false

section Enabled

variable {o : CommandQueueOptions} {w : World}

theorem countP_pos_of_call {c : Nat} {call : Call} (hc : w.calls[c]? = some call) {p : Call → Bool}
    (hp : p call = true) : 0 < w.calls.countP p :=
  List.countP_pos_iff.mpr ⟨call, List.mem_of_getElem? hc, hp⟩

theorem releaseCapacity_enabled (hw : QueueInv o w) {c : Nat} {call : Call}
    (hc : w.calls[c]? = some call) (hadm : call.admitted = true) :
    ∃ r, releaseCapacity w.capacity call = some r := by
  unfold releaseCapacity
  by_cases hr : call.released = true
  · exact ⟨_, if_pos hr⟩
  · have hpos : 0 < w.capacity := by
      rw [hw.capacity.1]
      exact countP_pos_of_call hc (by simp [holdsCapacity, hadm, hr])
    obtain ⟨n, hn⟩ := Nat.exists_eq_succ_of_ne_zero hpos.ne'
    rw [if_neg hr, hn]
    exact ⟨_, rfl⟩

theorem releaseWorker_enabled (hw : QueueInv o w) {c : Nat} {call : Call}
    (hc : w.calls[c]? = some call) (hacq : call.acquired = true) :
    ∃ r, releaseWorker w.workerSlots call = some r := by
  unfold releaseWorker
  by_cases hr : call.slotReleased = true
  · exact ⟨_, if_pos hr⟩
  · have hpos : 0 < w.workerSlots := by
      rw [hw.slots.1]
      exact countP_pos_of_call hc (by simp [holdsSlot, hacq, hr])
    obtain ⟨n, hn⟩ := Nat.exists_eq_succ_of_ne_zero hpos.ne'
    rw [if_neg hr, hn]
    exact ⟨_, rfl⟩

theorem caller_release_enabled (hw : QueueInv o w) {c : Nat} {call : Call} {exit : Exit}
    (hc : w.calls[c]? = some call) (hpc : call.pc = .release exit) :
    ∃ w', step o w (.caller c .ready) = some w' := by
  have hadm := (hw.calls call (List.mem_of_getElem? hc)).admission
  rw [hpc] at hadm
  obtain ⟨r, hr⟩ := releaseCapacity_enabled hw hc hadm
  exact ⟨_, by simp only [step, hc, hpc, callerStep, hr, Option.map_some, Option.bind_eq_bind,
    Option.bind_some]; rfl⟩

theorem handler_release_enabled (hw : QueueInv o w) {c : Nat} {call : Call} (res : CommandResult)
    (hc : w.calls[c]? = some call) (hh : call.handler = .deferred) :
    ∃ w', step o w (.handler c res) = some w' := by
  have hacq := (hw.calls call (List.mem_of_getElem? hc)).acquired (by rw [hh]; nofun)
  obtain ⟨r, hr⟩ := releaseWorker_enabled hw hc hacq
  exact ⟨_, by simp only [step, hc, hh, handlerStep, hr, Option.map_some, Option.bind_eq_bind,
    Option.bind_some]; rfl⟩

theorem handler_reply_enabled (hw : QueueInv o w) {c : Nat} {call : Call} (res : CommandResult)
    {reply : CommandResult} (hc : w.calls[c]? = some call) (hh : call.handler = .replying reply) :
    ∃ w', step o w (.handler c res) = some w' := by
  have hempty : call.inner = none := by
    by_contra hfull
    rcases (hw.calls call (List.mem_of_getElem? hc)).inner hfull with h | h <;> (rw [hh] at h; cases h)
  exact ⟨_, by simp only [step, hc, hh, handlerStep, hempty, if_true, Option.bind_eq_bind,
    Option.bind_some]; rfl⟩

theorem handleStep_enabled (hw : QueueInv o w) {lane : Lane} {job : Job} {stage : Stage} {call : Call}
    (hlane : lane ∈ w.lanes.rows) (hpc : lane.pc = .handle job stage) (hstage : stage.hands = true)
    (hc : w.calls[job.call]? = some call) :
    ∃ change, handleStep o w lane job call stage .ready = some change := by
  have hok := hw.calls call (List.mem_of_getElem? hc)
  obtain ⟨_, _, henq, hplace⟩ := hw.handled hlane hpc hc
  cases stage with
  | releaseSlot err =>
    obtain ⟨r, hr⟩ := releaseWorker_enabled hw hc (hok.acquired hplace.1)
    exact ⟨_, by rw [handleStep, hr]; rfl⟩
  | send res =>
    have hnone : call.result = none := by
      by_contra hsome
      obtain ⟨res', hres'⟩ := Option.ne_none_iff_exists'.mp hsome
      have hd := (hok.result res' (Or.inl hres')).1
      rw [hplace.1] at hd
      cases hd
    exact ⟨_, by rw [handleStep, if_pos hnone]⟩
  | finish =>
    obtain ⟨r, hr⟩ := releaseCapacity_enabled hw hc (hok.enqueued henq)
    exact ⟨_, by rw [handleStep, hr]; rfl⟩
  | check | acquire | spawn | wait => cases hstage

theorem lane_hands_enabled (hw : QueueInv o w) {lane : Lane} {job : Job} {stage : Stage}
    (hlane : lane ∈ w.lanes.rows) (hpc : lane.pc = .handle job stage) (hstage : stage.hands = true) :
    ∃ w', step o w (.lane lane.roleID .ready) = some w' := by
  obtain ⟨call, hc, _⟩ := (hw.lanes lane hlane).held job (.handling stage)
    (by rw [Lane.held_handle hpc]; exact List.mem_cons_self)
  obtain ⟨change, hchange⟩ := handleStep_enabled hw hlane hpc hstage hc
  have hfind : w.lanes.find? lane.roleID = some lane := Table.find?_eq_some.mpr ⟨hlane, rfl⟩
  refine ⟨w.commit job.call change, ?_⟩
  simp [step, hfind, hpc, laneStep, hc, hchange]

end Enabled

theorem resources_accounted (o : CommandQueueOptions) (ls : List Label) (w : World)
    (h : run (step o) init ls = some w) :
    (w.capacity = w.calls.countP (fun call => call.admitted && !call.released) ∧
      w.capacity ≤ o.capacityLimit) ∧
    (w.workerSlots = w.calls.countP (fun call => call.acquired && !call.slotReleased) ∧
      w.workerSlots ≤ o.workerLimit) ∧
    (∀ call ∈ w.calls, call.history.count .releasedCapacity ≤ 1 ∧
      call.history.count .releasedSlot ≤ 1) ∧
    (∀ (c : Nat) (call : Call) (answer : Answer), w.calls[c]? = some call → call.admitted = true →
      call.pc = .returned answer → ¬ InsideHandle w c → call.released = true) ∧
    (∀ call ∈ w.calls, call.handler = .finished → call.slotReleased = true) ∧
    (∀ (c : Nat) (call : Call) (exit : Exit), w.calls[c]? = some call → call.pc = .release exit →
      ∃ w', step o w (.caller c .ready) = some w') ∧
    (∀ (c : Nat) (call : Call) (res : CommandResult), w.calls[c]? = some call →
      (call.handler = .deferred ∨ ∃ reply, call.handler = .replying reply) →
        ∃ w', step o w (.handler c res) = some w') ∧
    (∀ lane ∈ w.lanes.rows, ∀ job stage, lane.pc = .handle job stage → stage.hands = true →
      ∃ w', step o w (.lane lane.roleID .ready) = some w') := by
  have hw := queueInv_run h
  refine ⟨hw.capacity, hw.slots, ?_, ?_, fun call hcall => (hw.calls call hcall).finished,
    fun c call exit hc hpc => caller_release_enabled hw hc hpc,
    ?_,
    fun lane hlane job stage hpc hstage => lane_hands_enabled hw hlane hpc hstage⟩
  · intro call hcall
    have hok := hw.calls call hcall
    rw [hok.capacityReleases, hok.slotReleases]
    exact ⟨Bool.toNat_le _, Bool.toNat_le _⟩
  · intro c call answer hc hadm hpc houtside
    have hadmission := (hw.calls call (List.mem_of_getElem? hc)).admission
    rw [hpc] at hadmission
    rcases hadmission hadm with hr | hd
    · exact hr
    · by_contra hr
      obtain ⟨lane, hlane, req, hlanepc⟩ := hw.finishing c call hc hd (Bool.not_eq_true _ ▸ hr)
      exact houtside ⟨lane, hlane, req, .finish, hlanepc⟩
  · rintro c call res hc (hh | ⟨reply, hh⟩)
    · exact handler_release_enabled hw res hc hh
    · exact handler_reply_enabled hw res hc hh

section OneCommand

def ping (roleID : Int) : CommandRequest := ⟨1001, 7, roleID, 1, 1, none⟩

def pong : CommandResult := ⟨some ⟨1001, 1, 0, "ok", none⟩, none⟩

def defaultOptions : CommandQueueOptions := ⟨0, 0, 0, 3⟩

def startCommand (c : Nat) (roleID : Int) : List Label :=
  [.dispatch (ping roleID), .caller c .ready, .caller c .ready, .caller c .ready,
    .lane roleID .ready, .lane roleID .default, .lane roleID .ready, .lane roleID .ready]

def timedOut : List Label :=
  startCommand 0 5 ++ ([.handler 0 pong, .context 0 .deadline, .lane 5 .ctxDone, .lane 5 .ready,
    .caller 0 .ctxDone, .caller 0 .ready, .caller 0 .ready, .lane 5 .ready, .lane 5 .ready,
    .handler 0 pong, .handler 0 pong, .handler 0 pong] : List Label)

def afterTimeout : World := (run (step defaultOptions) init timedOut).get (by rfl)

theorem timedOut_accounted :
    run (step defaultOptions) init timedOut = some afterTimeout ∧
      ∃ call : Call, afterTimeout.calls[0]? = some call ∧ call.handler = .finished ∧
        call.slotReleased = true ∧ call.history.count .releasedSlot ≤ 1 ∧
        afterTimeout.workerSlots =
          afterTimeout.calls.countP (fun call => call.acquired && !call.slotReleased) := by
  have hrun : run (step defaultOptions) init timedOut = some afterTimeout := (Option.some_get _).symm
  obtain ⟨_, hslots, hreleases, _, hfinished, _⟩ := resources_accounted defaultOptions timedOut _ hrun
  have hcall : ∃ call : Call, afterTimeout.calls[0]? = some call ∧ call.handler = .finished := ⟨_, rfl, rfl⟩
  obtain ⟨call, hc, hh⟩ := hcall
  have hmem := List.mem_of_getElem? hc
  exact ⟨hrun, call, hc, hh, hfinished call hmem hh, (hreleases call hmem).2, hslots.1⟩

end OneCommand

end GlobalMailSystem.CommandQueue
