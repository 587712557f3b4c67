import GlobalMailSystem.QueueResources

namespace GlobalMailSystem.CommandQueue

open Rpc.Wire Transition

def Handler.work : Handler → Nat
  | .none | .finished => 0
  | .deferred => 1
  | .replying _ => 2
  | .invoking _ => 3
  | .spawned _ => 4

def Stage.work : Stage → Nat
  | .finish => 2
  | .send _ => 3
  | .releaseSlot _ => 4
  | .wait => 5
  | .spawn => 10
  | .acquire => 11
  | .check => 12

def LanePC.work : LanePC → Nat
  | .stopped => 0
  | .idle => 1
  | .handle _ stage => stage.work

def Lane.work (lane : Lane) : Nat := lane.pc.work + 12 * lane.jobs.length

/-- The work of a caller has that of the job it may still queue, and of the lane it may start. -/
def CallerPC.work : CallerPC → Nat
  | .returned _ => 0
  | .contextDone _ => 1
  | .release _ => 2
  | .await => 3
  | .enqueue => 16
  | .laneFor => 18
  | .enter => 19

def Call.work (call : Call) : Nat :=
  call.pc.work + call.handler.work + call.parent.isNone.toNat + call.ctx.isNone.toNat

def World.work (w : World) : Nat := (w.calls.map Call.work).sum + (w.lanes.rows.map Lane.work).sum

section Callers

variable {o : CommandQueueOptions} {w : World} {c : Nat} {call : Call} {case : Case} {change : Change}

inductive CallerMove (w : World) (c : Nat) (call : Call) : Change → Prop
  | goes (pc : CallerPC) (hwork : pc.work < call.pc.work) (hawait : pc ≠ .await)
      (hlane : pc = .enqueue → ∃ lane ∈ w.lanes.rows, lane.roleID = commandRoleID call.req) :
      CallerMove w c call (w.put { call with pc })
  | admitted (hpc : call.pc = .enter) :
      CallerMove w c call ⟨{ call with pc := .laneFor, admitted := true }, none, w.capacity + 1, w.workerSlots⟩
  | created (hpc : call.pc = .laneFor) (hnone : w.lanes.find? (commandRoleID call.req) = none) :
      CallerMove w c call (w.putBoth { call with pc := .enqueue } ⟨commandRoleID call.req, [], .idle⟩)
  | queued (lane : Lane) (hpc : call.pc = .enqueue) (hlane : lane ∈ w.lanes.rows)
      (hrole : lane.roleID = commandRoleID call.req) :
      CallerMove w c call (w.putBoth { call with pc := .await, enqueued := true }
        { lane with jobs := lane.jobs ++ [⟨c, call.req⟩] })
  | received (res : CommandResult) (hpc : call.pc = .await) :
      CallerMove w c call (w.put { call with pc := .returned (.result res), result := none })
  | released (exit : Exit) (hpc : call.pc = .release exit) (extra : List Entry) (tokens : Nat) :
      CallerMove w c call
        ⟨{ call with released := true, history := call.history ++ extra, pc := exit.pc }, none, tokens, w.workerSlots⟩

theorem callerStep_enter (hpc : call.pc = .enter) (h : callerStep o w c call .enter case = some change) :
    CallerMove w c call change := by
  cases case with
  | ctxDone =>
    obtain ⟨err, _, rfl⟩ := Option.map_eq_some_iff.mp h
    exact .goes _ (by simp [hpc, CallerPC.work]) (by simp) (by simp)
  | closed | default =>
    simp only [callerStep] at h
    split_ifs at h
    cases h
    exact .goes _ (by simp [hpc, CallerPC.work]) (by simp) (by simp)
  | ready =>
    simp only [callerStep] at h
    split_ifs at h
    cases h
    exact .admitted hpc

theorem callerStep_enqueue (hpc : call.pc = .enqueue) (h : callerStep o w c call .enqueue case = some change) :
    CallerMove w c call change := by
  cases case with
  | ctxDone =>
    obtain ⟨err, _, rfl⟩ := Option.map_eq_some_iff.mp h
    exact .goes _ (by simp [hpc, CallerPC.work]) (by simp) (by simp)
  | closed =>
    simp only [callerStep] at h
    split_ifs at h
    cases h
    exact .goes _ (by simp [hpc, CallerPC.work]) (by simp) (by simp)
  | ready =>
    simp only [callerStep, Option.bind_eq_bind, Option.bind_eq_some_iff] at h
    obtain ⟨lane, hfind, h⟩ := h
    split_ifs at h
    cases h
    obtain ⟨hlane, hrole⟩ := Table.find?_eq_some.mp hfind
    exact .queued lane hpc hlane hrole
  | default =>
    simp only [callerStep, Option.bind_eq_bind, Option.bind_eq_some_iff] at h
    obtain ⟨lane, _, h⟩ := h
    split_ifs at h
    cases h
    exact .goes _ (by simp [hpc, CallerPC.work]) (by simp) (by simp)

theorem callerStep_move (h : callerStep o w c call call.pc case = some change) : CallerMove w c call change := by
  cases hpc : call.pc with
  | enter => exact callerStep_enter hpc (hpc ▸ h)
  | laneFor =>
    rw [hpc] at h
    cases case with
    | ready =>
      simp only [callerStep] at h
      split at h
      · rename_i lane hfind
        cases h
        obtain ⟨hlane, hrole⟩ := Table.find?_eq_some.mp hfind
        exact .goes _ (by simp [hpc, CallerPC.work]) (by simp) fun _ => ⟨lane, hlane, hrole⟩
      · rename_i hnone
        cases h
        exact .created hpc hnone
    | ctxDone | closed | default => cases h
  | enqueue => exact callerStep_enqueue hpc (hpc ▸ h)
  | await =>
    rw [hpc] at h
    cases case with
    | ctxDone =>
      obtain ⟨err, _, rfl⟩ := Option.map_eq_some_iff.mp h
      exact .goes _ (by simp [hpc, CallerPC.work]) (by simp) (by simp)
    | closed =>
      simp only [callerStep] at h
      split_ifs at h
      cases h
      exact .goes _ (by simp [hpc, CallerPC.work]) (by simp) (by simp)
    | ready =>
      obtain ⟨res, _, rfl⟩ := Option.map_eq_some_iff.mp h
      exact .received res hpc
    | default => cases h
  | release exit =>
    rw [hpc] at h
    cases case with
    | ready =>
      obtain ⟨⟨call', tokens⟩, hrelease, rfl⟩ := Option.map_eq_some_iff.mp h
      obtain ⟨extra, rfl, _⟩ := releaseCapacity_spec hrelease
      exact .released exit hpc extra tokens
    | ctxDone | closed | default => cases h
  | contextDone err =>
    rw [hpc] at h
    cases case with
    | ready =>
      cases h
      exact .goes _ (by simp [hpc, CallerPC.work]) (by simp) (by simp)
    | ctxDone | closed | default => cases h
  | returned answer =>
    rw [hpc] at h
    cases case <;> cases h

end Callers

section Lanes

variable {o : CommandQueueOptions} {w : World} {lane : Lane} {job : Job} {call : Call} {stage : Stage}
  {case : Case} {change : Change}

inductive HandleMove (w : World) (lane : Lane) (job : Job) (call : Call) : Stage → Change → Prop
  | goes {stage : Stage} (next : Stage) (hwork : next.work < stage.work) (hspawn : stage ≠ .spawn)
      (hwait : next ≠ .wait) (hfinish : next ≠ .finish) :
      HandleMove w lane job call stage (w.putBoth call { lane with pc := .handle job next })
  | acquired : HandleMove w lane job call .acquire
      ⟨{ call with acquired := true }, some { lane with pc := .handle job .spawn }, w.capacity, w.workerSlots + 1⟩
  | spawned : HandleMove w lane job call .spawn
      (w.putBoth { call with handler := .spawned job.req } { lane with pc := .handle job .wait })
  | received (res : CommandResult) : HandleMove w lane job call .wait
      (w.putBoth { call with inner := none } { lane with pc := .handle job (.send res) })
  | slotReleased (err : CtxErr) (extra : List Entry) (tokens : Nat) : HandleMove w lane job call (.releaseSlot err)
      ⟨{ call with slotReleased := true, history := call.history ++ extra },
        some { lane with pc := .handle job (.send (.error (.ctx err))) }, w.capacity, tokens⟩
  | sent (res : CommandResult) : HandleMove w lane job call (.send res)
      (w.putBoth { call with result := some res, delivered := true } { lane with pc := .handle job .finish })
  | finished (extra : List Entry) (tokens : Nat) : HandleMove w lane job call .finish
      ⟨{ call with released := true, history := call.history ++ extra }, some { lane with pc := .idle }, tokens,
        w.workerSlots⟩

theorem handleStep_move (h : handleStep o w lane job call stage case = some change) :
    HandleMove w lane job call stage change := by
  cases stage with
  | check =>
    cases case with
    | ctxDone =>
      obtain ⟨err, _, rfl⟩ := Option.map_eq_some_iff.mp h
      exact .goes _ (by simp [Stage.work]) (by simp) (by simp) (by simp)
    | default =>
      simp only [handleStep] at h
      split_ifs at h
      cases h
      exact .goes _ (by simp [Stage.work]) (by simp) (by simp) (by simp)
    | closed | ready => cases h
  | acquire =>
    cases case with
    | ctxDone =>
      obtain ⟨err, _, rfl⟩ := Option.map_eq_some_iff.mp h
      exact .goes _ (by simp [Stage.work]) (by simp) (by simp) (by simp)
    | closed =>
      simp only [handleStep] at h
      split_ifs at h
      cases h
      exact .goes _ (by simp [Stage.work]) (by simp) (by simp) (by simp)
    | ready =>
      simp only [handleStep] at h
      split_ifs at h
      cases h
      exact .acquired
    | default => cases h
  | spawn =>
    cases case with
    | ready =>
      cases h
      exact .spawned
    | ctxDone | closed | default => cases h
  | wait =>
    cases case with
    | ctxDone =>
      obtain ⟨err, _, rfl⟩ := Option.map_eq_some_iff.mp h
      exact .goes _ (by simp [Stage.work]) (by simp) (by simp) (by simp)
    | ready =>
      obtain ⟨res, _, rfl⟩ := Option.map_eq_some_iff.mp h
      exact .received res
    | closed | default => cases h
  | releaseSlot err =>
    cases case with
    | ready =>
      obtain ⟨⟨call', tokens⟩, hrelease, rfl⟩ := Option.map_eq_some_iff.mp h
      obtain ⟨extra, rfl, _⟩ := releaseWorker_spec hrelease
      exact .slotReleased err extra tokens
    | ctxDone | closed | default => cases h
  | send res =>
    cases case with
    | ready =>
      simp only [handleStep] at h
      split_ifs at h
      cases h
      exact .sent res
    | ctxDone | closed | default => cases h
  | finish =>
    cases case with
    | ready =>
      obtain ⟨⟨call', tokens⟩, hrelease, rfl⟩ := Option.map_eq_some_iff.mp h
      obtain ⟨extra, rfl, _⟩ := releaseCapacity_spec hrelease
      exact .finished extra tokens
    | ctxDone | closed | default => cases h

end Lanes

section Handlers

variable {w : World} {call : Call} {change : Change}

inductive HandlerMove (w : World) (call : Call) : Change → Prop
  | begins (req : CommandRequest) (hh : call.handler = .spawned req) :
      HandlerMove w call (w.put { call with handler := .invoking req, history := call.history ++ [.invoked req] })
  | completes (req : CommandRequest) (res : CommandResult) (hh : call.handler = .invoking req) :
      HandlerMove w call (w.put { call with handler := .replying res, history := call.history ++ [.completed res] })
  | replies (res : CommandResult) (hh : call.handler = .replying res) :
      HandlerMove w call (w.put { call with handler := .deferred, inner := some res })
  | releases (hh : call.handler = .deferred) (extra : List Entry) (tokens : Nat) :
      HandlerMove w call
        ⟨{ call with slotReleased := true, history := call.history ++ extra, handler := .finished }, none,
          w.capacity, tokens⟩

theorem handlerStep_move {res : CommandResult} (h : handlerStep w call res call.handler = some change) :
    HandlerMove w call change := by
  cases hh : call.handler with
  | none | finished => rw [hh] at h; cases h
  | spawned req =>
    rw [hh] at h
    cases h
    exact .begins req hh
  | invoking req =>
    rw [hh] at h
    cases h
    exact .completes req res hh
  | replying reply =>
    rw [hh] at h
    simp only [handlerStep] at h
    split_ifs at h
    cases h
    exact .replies reply hh
  | deferred =>
    rw [hh] at h
    obtain ⟨⟨call', tokens⟩, hrelease, rfl⟩ := Option.map_eq_some_iff.mp h
    obtain ⟨extra, rfl, _⟩ := releaseWorker_spec hrelease
    exact .releases hh extra tokens

end Handlers

def Label.ongoing : Label → Bool
  | .context _ _ | .caller _ _ | .lane _ _ | .handler _ _ => true
  | .dispatch _ | .close | .closeReturn => false

section Work

variable {o : CommandQueueOptions} {w w' : World} {c : Nat} {call : Call} {change : Change}

theorem sum_set_work {calls : List Call} (h : calls[c]? = some call) (call' : Call) :
    ((calls.set c call').map Call.work).sum + call.work = (calls.map Call.work).sum + call'.work := by
  induction calls generalizing c with
  | nil => cases h
  | cons first calls ih =>
    cases c with
    | zero =>
      cases h
      simp only [List.set_cons_zero, List.map_cons, List.sum_cons]
      omega
    | succ c =>
      have hrest := ih (List.getElem?_cons_succ ▸ h)
      simp only [List.set_cons_succ, List.map_cons, List.sum_cons]
      omega

theorem commit_work_lt (hc : w.calls[c]? = some call) (hlane : change.lane = none)
    (hwork : change.call.work < call.work) : (w.commit c change).work < w.work := by
  have hcalls := sum_set_work hc change.call
  simp only [World.work, World.commit, hlane]
  omega

theorem commit_lane_work_lt {lane : Lane} {before : Option Lane} (hc : w.calls[c]? = some call)
    (hlane : change.lane = some lane) (hfind : w.lanes.find? lane.roleID = before)
    (hwork : change.call.work + lane.work < call.work + before.elim 0 Lane.work) :
    (w.commit c change).work < w.work := by
  have hcalls := sum_set_work hc change.call
  have hlanes := w.lanes.sum_upsert lane Lane.work
  rw [hfind] at hlanes
  simp only [World.work, World.commit, hlane]
  omega

theorem context_work_lt {event : ContextEvent} {call' : Call} (h : contextStep o call event = some call') :
    call'.work < call.work := by
  have hlower {parent ctx : Option CtxErr}
      (hbits : parent.isNone.toNat + ctx.isNone.toNat < call.parent.isNone.toNat + call.ctx.isNone.toNat) :
      { call with parent, ctx }.work < call.work := by
    simp only [Call.work]
    omega
  cases event with
  | parentDone err =>
    simp only [contextStep] at h
    split_ifs at h with hnone
    cases h
    apply hlower
    simp [hnone]
  | deadline =>
    simp only [contextStep] at h
    split_ifs at h with hnone
    cases h
    apply hlower
    simp [hnone.2]
  | propagate =>
    simp only [contextStep] at h
    split_ifs at h with hdone
    cases h
    apply hlower
    simp [hdone.2.1, Option.isSome_iff_ne_none.mpr hdone.2.2]
  | cancel =>
    simp only [contextStep] at h
    split at h
    · split_ifs at h with hnone
      cases h
      apply hlower
      simp [hnone.2]
    · cases h

theorem CallerMove.work_lt (h : CallerMove w c call change) (hc : w.calls[c]? = some call) :
    (w.commit c change).work < w.work := by
  cases h with
  | goes pc hwork =>
    apply commit_work_lt hc rfl
    simp only [World.put, Call.work]
    omega
  | admitted hpc =>
    apply commit_work_lt hc rfl
    simp [Call.work, hpc, CallerPC.work]
  | created hpc hnone =>
    apply commit_lane_work_lt hc rfl hnone
    simp [World.putBoth, Call.work, Lane.work, LanePC.work, hpc, CallerPC.work]
    omega
  | queued lane hpc hlane hrole =>
    have hfind : w.lanes.find? lane.roleID = some lane := Table.find?_eq_some.mpr ⟨hlane, rfl⟩
    apply commit_lane_work_lt hc rfl (by exact hfind)
    simp [World.putBoth, Call.work, Lane.work, hpc, CallerPC.work]
    omega
  | received res hpc =>
    apply commit_work_lt hc rfl
    simp [World.put, Call.work, hpc, CallerPC.work]
  | released exit hpc =>
    apply commit_work_lt hc rfl
    cases exit <;> simp [Call.work, hpc, Exit.pc, CallerPC.work]

theorem HandleMove.work_lt {lane : Lane} {job : Job} {stage : Stage} (h : HandleMove w lane job call stage change)
    (hc : w.calls[job.call]? = some call) (hlane : lane ∈ w.lanes.rows) (hpc : lane.pc = .handle job stage) :
    (w.commit job.call change).work < w.work := by
  have hfind : w.lanes.find? lane.roleID = some lane := Table.find?_eq_some.mpr ⟨hlane, rfl⟩
  have hlower {change : Change} {pc : LanePC} (hnew : change.lane = some { lane with pc })
      (hwork : change.call.work + pc.work < call.work + stage.work) :
      (w.commit job.call change).work < w.work := by
    apply commit_lane_work_lt hc hnew hfind
    have hbefore : lane.pc.work = stage.work := by rw [hpc]; rfl
    simp only [Lane.work, Option.elim_some]
    omega
  cases h with
  | goes next hwork =>
    apply hlower rfl
    simp only [World.putBoth, LanePC.work]
    omega
  | acquired | received | slotReleased | sent | finished =>
    apply hlower rfl
    simp [World.putBoth, Call.work, LanePC.work, Stage.work]
  | spawned =>
    apply hlower rfl
    simp only [World.putBoth, Call.work, LanePC.work, Stage.work, Handler.work]
    omega

theorem HandlerMove.work_lt (h : HandlerMove w call change) (hc : w.calls[c]? = some call) :
    (w.commit c change).work < w.work := by
  cases h with
  | begins | completes | replies | releases =>
    apply commit_work_lt hc rfl
    simp_all [World.put, Call.work, Handler.work]

theorem step_work_lt {l : Label} (hl : l.ongoing = true) (h : step o w l = some w') : w'.work < w.work := by
  cases step_moves h with
  | context hc hstep => exact commit_work_lt hc rfl (context_work_lt hstep)
  | caller hc hstep => exact (callerStep_move hstep).work_lt hc
  | handler hc hstep => exact (handlerStep_move hstep).work_lt hc
  | handle hlane hpc hc hstep => exact (handleStep_move hstep).work_lt hc hlane hpc
  | @take lane job rest hlane hpc hjobs =>
    have hlanes := w.lanes.sum_upsert { lane with jobs := rest, pc := .handle job .check } Lane.work
    rw [Table.find?_eq_some.mpr ⟨hlane, rfl⟩] at hlanes
    simp only [World.work, World.setLane]
    simp only [Option.elim_some, Lane.work, LanePC.work, Stage.work, hpc, hjobs, List.length_cons] at hlanes ⊢
    omega
  | @stop lane hlane hpc =>
    have hlanes := w.lanes.sum_upsert { lane with pc := .stopped } Lane.work
    rw [Table.find?_eq_some.mpr ⟨hlane, rfl⟩] at hlanes
    simp only [World.work, World.setLane]
    simp only [Option.elim_some, Lane.work, LanePC.work, hpc] at hlanes ⊢
    omega
  | dispatch | close | closeReturn => cases hl

end Work

end GlobalMailSystem.CommandQueue
