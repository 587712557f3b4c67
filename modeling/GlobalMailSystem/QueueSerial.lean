import GlobalMailSystem.QueueResources

namespace GlobalMailSystem.CommandQueue

open Rpc.Wire Transition

def Lane.awaitsRunning (w : World) (lane : Lane) : Bool :=
  match lane.pc with
  | .handle job .wait => (w.calls[job.call]?).any fun call => call.handler.running
  | _ => false

/-- A lane gives up its wait on a done context only after the invocation it waits for has ended. -/
def HandlerOver (w : World) : Label → Prop
  | .lane roleID .ctxDone => (w.lanes.find? roleID).any (Lane.awaitsRunning w) = false
  | _ => True

instance (w : World) : (l : Label) → Decidable (HandlerOver w l)
  | .lane _ .ctxDone => inferInstanceAs (Decidable (_ = false))
  | .lane _ .closed | .lane _ .ready | .lane _ .default | .dispatch _ | .context _ _ | .caller _ _
  | .handler _ _ | .close | .closeReturn => isTrue trivial

def Waited (w : World) (c : Nat) : Prop :=
  ∃ lane ∈ w.lanes.rows, ∃ req, lane.pc = .handle ⟨c, req⟩ .wait

def AllWaited (w : World) : Prop :=
  ∀ (c : Nat) (call : Call), w.calls[c]? = some call → call.handler.running = true → Waited w c

section Step

variable {o : CommandQueueOptions} {w w' : World}

theorem allWaited_dispatch (h : AllWaited w) (req : CommandRequest) :
    AllWaited { w with calls := w.calls ++ [.start req] } := by
  intro c call hc hrun
  rw [List.getElem?_append] at hc
  split_ifs at hc
  · exact h c call hc hrun
  · rw [List.mem_singleton.mp (List.mem_of_getElem? hc)] at hrun
    cases hrun

theorem allWaited_commit (h : AllWaited w) {c : Nat} {call : Call} {change : Change}
    (hc : w.calls[c]? = some call)
    (hrunning : change.call.handler.running = true → call.handler.running = true)
    (hlane : CallerLane w c call change) : AllWaited (w.commit c change) := by
  intro j call' hj hrun
  have hbefore : Waited w j := by
    rcases commit_call hc hj with ⟨rfl, rfl⟩ | ⟨_, hj⟩
    · exact h j call hc (hrunning hrun)
    · exact h j call' hj hrun
  obtain ⟨lane, hmem, req, hpc⟩ := hbefore
  obtain ⟨lane', hmem', _, hpc'⟩ := hlane.kept hmem
  exact ⟨lane', hmem', req, hpc'.trans hpc⟩

theorem allWaited_handle (hw : QueueInv o w) (h : AllWaited w) {lane : Lane} {job : Job}
    {stage : Stage} {case : Case} {call : Call} {change : Change} (hlane : lane ∈ w.lanes.rows)
    (hpc : lane.pc = .handle job stage) (hc : w.calls[job.call]? = some call)
    (hh : HandleLane lane job change) (hframe : HandleFrame lane job call stage case change)
    (hover : case = .ctxDone → stage = .wait → call.handler.running = false) :
    AllWaited (w.commit job.call change) := by
  have hrole : ∀ lane', change.lane = some lane' → lane'.roleID = lane.roleID := by
    intro lane' he
    cases hh with
    | goes _ hnew _ _ | ends hnew _ =>
      rw [hnew] at he
      cases he
      rfl
  intro j call' hj hrun
  rcases commit_call hc hj with ⟨rfl, rfl⟩ | ⟨hne, hj⟩
  · rcases hframe.handler with ⟨_, hnew⟩ | ⟨hsame, hwait⟩
    · exact ⟨_, mem_commit_lanes.mpr (Or.inl hnew), job.req, rfl⟩
    · rw [hsame] at hrun
      obtain ⟨other, hmem, req, hother⟩ := h job.call call hc hrun
      -- the lane that waits for this call is the lane that moves
      obtain ⟨hreq, hroleID, _⟩ := hw.handled hlane hpc hc
      obtain ⟨hreq', hroleID', _⟩ := hw.handled hmem hother hc
      have hsameRole : other.roleID = lane.roleID := by rw [← hroleID, ← hroleID', ← hreq, ← hreq']
      rw [w.lanes.row_unique hmem hlane hsameRole, hpc] at hother
      have hstage : stage = .wait := (LanePC.handle.inj hother).2
      rcases hwait hstage with hctx | hinner
      · rw [hover hctx hstage] at hrun
        cases hrun
      · rcases (hw.calls call (List.mem_of_getElem? hc)).inner hinner with hd | hd <;>
          (rw [hd] at hrun; cases hrun)
  · obtain ⟨other, hmem, req, hother⟩ := h j call' hj hrun
    refine ⟨other, mem_commit_lanes.mpr (Or.inr ⟨hmem, fun lane' he hsame => ?_⟩), req, hother⟩
    rw [w.lanes.row_unique hmem hlane (hsame.trans (hrole lane' he)), hpc] at hother
    cases hother
    exact hne rfl

theorem allWaited_setLane (h : AllWaited w) {lane lane' : Lane} (hlane : lane ∈ w.lanes.rows)
    (hpc : lane.pc = .idle) (hrole : lane'.roleID = lane.roleID) : AllWaited (w.setLane lane') := by
  intro c call hc hrun
  obtain ⟨other, hmem, req, hother⟩ := h c call hc hrun
  refine ⟨other, mem_setLane.mpr (Or.inr ⟨hmem, fun hsame => ?_⟩), req, hother⟩
  rw [w.lanes.row_unique hmem hlane (hsame.trans hrole), hpc] at hother
  cases hother

theorem allWaited_step {l : Label} (hw : QueueInv o w) (h : AllWaited w) (hok : HandlerOver w l)
    (hl : step o w l = some w') : AllWaited w' := by
  cases step_moves hl with
  | dispatch => exact allWaited_dispatch h _
  | context hc hstep =>
    obtain ⟨_, _, rfl⟩ := contextStep_spec hstep
    exact allWaited_commit h hc id (.same rfl)
  | caller hc hstep =>
    obtain ⟨_, hlane, hframe⟩ := callerStep_ok (hw.calls _ (List.mem_of_getElem? hc)) hstep
    exact allWaited_commit h hc (fun hrun => by rwa [hframe.handler] at hrun) hlane
  | handler hc hstep =>
    obtain ⟨_, hlane⟩ := handlerStep_ok (o := o) (hw.calls _ (List.mem_of_getElem? hc)) hstep
    exact allWaited_commit h hc (handlerStep_frame hstep).running (.same hlane)
  | @handle case lane job stage call change hlane hpc hc hstep =>
    obtain ⟨hreq, _, henq, hplace⟩ := hw.handled hlane hpc hc
    obtain ⟨⟨_, hh⟩, hframe⟩ :=
      handleStep_ok (hw.calls _ (List.mem_of_getElem? hc)) henq hreq hplace hstep
    refine allWaited_handle hw h hlane hpc hc hh hframe ?_
    rintro rfl rfl
    have hfind : w.lanes.find? lane.roleID = some lane := Table.find?_eq_some.mpr ⟨hlane, rfl⟩
    simpa [HandlerOver, hfind, Lane.awaitsRunning, hpc, hc] using hok
  | take hlane hpc => exact allWaited_setLane h hlane hpc rfl
  | stop hlane hpc => exact allWaited_setLane h hlane hpc rfl
  | close | closeReturn => exact h

theorem allWaited_run {ls : List Label} (hg : Guarded (step o) HandlerOver init ls)
    (h : run (step o) init ls = some w) : QueueInv o w ∧ AllWaited w := by
  refine guarded_invariant (I := fun w => QueueInv o w ∧ AllWaited w) ?_ ⟨queueInv_init, ?_⟩ hg h
  · exact fun s l t hs hok hl => ⟨queueInv_step hs.1 hl, allWaited_step hs.1 hs.2 hok hl⟩
  · intro c call hc
    simp [init] at hc

end Step

theorem same_role_serialized (o : CommandQueueOptions) (ls : List Label) (w : World)
    (hg : Guarded (step o) HandlerOver init ls) (h : run (step o) init ls = some w)
    (c₁ c₂ : Nat) (call₁ call₂ : Call) (hc₁ : w.calls[c₁]? = some call₁)
    (hc₂ : w.calls[c₂]? = some call₂) (req₁ req₂ : CommandRequest)
    (hrun₁ : call₁.handler = .invoking req₁) (hrun₂ : call₂.handler = .invoking req₂)
    (hrole : commandRoleID call₁.req = commandRoleID call₂.req) : c₁ = c₂ := by
  obtain ⟨hw, hwaited⟩ := allWaited_run hg h
  obtain ⟨lane₁, hlane₁, job₁, hpc₁⟩ := hwaited c₁ call₁ hc₁ (by rw [hrun₁]; rfl)
  obtain ⟨lane₂, hlane₂, job₂, hpc₂⟩ := hwaited c₂ call₂ hc₂ (by rw [hrun₂]; rfl)
  obtain ⟨hreq₁, hrole₁, _⟩ := hw.handled hlane₁ hpc₁ hc₁
  obtain ⟨hreq₂, hrole₂, _⟩ := hw.handled hlane₂ hpc₂ hc₂
  have hsame : lane₁.roleID = lane₂.roleID := by
    rw [← hrole₁, ← hrole₂, ← hreq₁, ← hreq₂, hrole]
  rw [w.lanes.row_unique hlane₁ hlane₂ hsame, hpc₂] at hpc₁
  cases hpc₁
  rfl

section TwoCommands

def orderly : List Label :=
  startCommand 0 5 ++ ([.handler 0 pong, .dispatch (ping 5), .caller 1 .ready, .caller 1 .ready,
    .caller 1 .ready] : List Label) ++ startCommand 2 6 ++ [Label.handler 2 pong]

def afterOrderly : World := (run (step defaultOptions) init orderly).get (by decide +kernel)

theorem orderly_serialized :
    run (step defaultOptions) init orderly = some afterOrderly ∧
      (∃ call₀ call₂ : Call, afterOrderly.calls[0]? = some call₀ ∧ afterOrderly.calls[2]? = some call₂ ∧
        call₀.handler = .invoking (ping 5) ∧ call₂.handler = .invoking (ping 6)) ∧
      ∀ (c : Nat) (call : Call), afterOrderly.calls[c]? = some call →
        call.handler = .invoking (ping 5) → commandRoleID call.req = 5 → c = 0 := by
  have hrun : run (step defaultOptions) init orderly = some afterOrderly := (Option.some_get _).symm
  refine ⟨hrun, ⟨_, _, rfl, rfl, rfl, rfl⟩, fun c call hc hh hrole => ?_⟩
  exact same_role_serialized defaultOptions orderly afterOrderly (by decide +kernel) hrun c 0 call _ hc rfl
    (ping 5) (ping 5) hh rfl hrole

def overtaken : List Label :=
  startCommand 0 5 ++ ([.handler 0 pong, .context 0 .deadline, .caller 0 .ctxDone, .caller 0 .ready,
    .caller 0 .ready, .lane 5 .ctxDone, .lane 5 .ready, .lane 5 .ready, .lane 5 .ready] : List Label) ++
  startCommand 1 5 ++ [Label.handler 1 pong]

def afterOvertaken : World := (run (step defaultOptions) init overtaken).get (by decide +kernel)

theorem overtaken_concurrent :
    run (step defaultOptions) init overtaken = some afterOvertaken ∧
      ∃ call₀ call₁ : Call, afterOvertaken.calls[0]? = some call₀ ∧ afterOvertaken.calls[1]? = some call₁ ∧
        call₀.pc = .returned (.contextDone none .deadlineExceeded) ∧
        call₀.handler = .invoking (ping 5) ∧ call₁.handler = .invoking (ping 5) ∧
        commandRoleID call₀.req = commandRoleID call₁.req :=
  ⟨(Option.some_get _).symm, _, _, rfl, rfl, rfl, rfl, rfl, rfl⟩

end TwoCommands

end GlobalMailSystem.CommandQueue
