import GlobalMailSystem.QueueCalls

namespace GlobalMailSystem.CommandQueue

open Rpc.Wire Transition

def Lane.held (lane : Lane) : List (Job × Place) :=
  (match lane.pc with
    | .handle job stage => [(job, .handling stage)]
    | .idle | .stopped => []) ++ lane.jobs.map fun job => (job, .queued)

structure LaneOk (w : World) (lane : Lane) : Prop where
  nodup : (lane.held.map fun h => h.1.call).Nodup
  held : ∀ job place, (job, place) ∈ lane.held → ∃ call, w.calls[job.call]? = some call ∧
    call.req = job.req ∧ commandRoleID job.req = lane.roleID ∧ call.enqueued = true ∧ PlaceOk call place

structure QueueInv (o : CommandQueueOptions) (w : World) : Prop where
  calls : ∀ call ∈ w.calls, CallOk call
  lanes : ∀ lane ∈ w.lanes.rows, LaneOk w lane
  finishing : ∀ (c : Nat) (call : Call), w.calls[c]? = some call → call.delivered = true →
    call.released = false → ∃ lane ∈ w.lanes.rows, ∃ req, lane.pc = .handle ⟨c, req⟩ .finish
  capacity : w.capacity = w.calls.countP holdsCapacity ∧ w.capacity ≤ o.capacityLimit
  slots : w.workerSlots = w.calls.countP holdsSlot ∧ w.workerSlots ≤ o.workerLimit

section Lanes

variable {w : World} {c : Nat} {call : Call} {change : Change} {lane : Lane}

theorem Lane.held_handle {job : Job} {stage : Stage} (h : lane.pc = .handle job stage) :
    lane.held = (job, .handling stage) :: lane.jobs.map fun job => (job, .queued) := by
  simp [Lane.held, h]

theorem Lane.held_quiet (h : lane.pc = .idle ∨ lane.pc = .stopped) :
    lane.held = lane.jobs.map fun job => (job, .queued) := by
  rcases h with h | h <;> simp [Lane.held, h]

theorem commit_lanes_same (h : change.lane = none) :
    lane ∈ (w.commit c change).lanes.rows ↔ lane ∈ w.lanes.rows := by
  rw [mem_commit_lanes, h]
  simp

theorem CallerLane.kept (h : CallerLane w c call change) (hlane : lane ∈ w.lanes.rows) :
    ∃ lane' ∈ (w.commit c change).lanes.rows, lane'.roleID = lane.roleID ∧ lane'.pc = lane.pc := by
  cases h with
  | same hnone => exact ⟨lane, (commit_lanes_same hnone).mpr hlane, rfl, rfl⟩
  | created _ hnone hnew =>
    refine ⟨lane, mem_commit_lanes.mpr (Or.inr ⟨hlane, ?_⟩), rfl, rfl⟩
    rintro other hother
    rw [hnew] at hother
    cases hother
    exact Table.find?_eq_none.mp hnone lane hlane
  | queued other _ hmem _ _ hnew =>
    by_cases he : lane.roleID = other.roleID
    · cases w.lanes.row_unique hlane hmem he
      exact ⟨_, mem_commit_lanes.mpr (Or.inl hnew), rfl, rfl⟩
    · refine ⟨lane, mem_commit_lanes.mpr (Or.inr ⟨hlane, ?_⟩), rfl, rfl⟩
      rintro _ hother
      rw [hnew] at hother
      cases hother
      exact he

theorem LaneOk.commit (h : LaneOk w lane) (hc : w.calls[c]? = some call)
    (hreq : change.call.req = call.req) (henq : call.enqueued = true → change.call.enqueued = true)
    (hplace : ∀ job place, (job, place) ∈ lane.held → job.call = c → PlaceOk call place →
      PlaceOk change.call place) : LaneOk (w.commit c change) lane where
  nodup := h.nodup
  held job place hheld := by
    obtain ⟨call', hcall', hjob, hrole, he, hp⟩ := h.held job place hheld
    by_cases hj : job.call = c
    · rw [hj, hc] at hcall'
      cases hcall'
      rw [hj]
      exact ⟨change.call, commit_call_same hc, hreq.trans hjob, hrole, henq he, hplace job place hheld hj hp⟩
    · exact ⟨call', (commit_call_other hj).trans hcall', hjob, hrole, he, hp⟩

theorem LaneOk.other {lane' : Lane} (h : LaneOk w lane) (h' : LaneOk w lane') {job job' : Job}
    {place place' : Place} (hheld : (job, place) ∈ lane.held) (hheld' : (job', place') ∈ lane'.held)
    (hcall : job.call = job'.call) : lane.roleID = lane'.roleID := by
  -- lanes of different roles hold different calls
  obtain ⟨call, hc, hreq, hrole, _, _⟩ := h.held job place hheld
  obtain ⟨call', hc', hreq', hrole', _, _⟩ := h'.held job' place' hheld'
  rw [hcall, hc'] at hc
  cases hc
  rw [← hrole, ← hrole', ← hreq, ← hreq']

theorem LaneOk.append (h : LaneOk w lane) (call : Call) :
    LaneOk { w with calls := w.calls ++ [call] } lane where
  nodup := h.nodup
  held job place hheld := by
    obtain ⟨call', hc, hrest⟩ := h.held job place hheld
    refine ⟨call', ?_, hrest⟩
    rw [List.getElem?_append_left (List.getElem?_eq_some_iff.mp hc).1]
    exact hc

theorem LaneOk.goes {job : Job} {stage stage' : Stage} (h : LaneOk w lane)
    (hpc : lane.pc = .handle job stage) (hc : w.calls[job.call]? = some call)
    (hreq : change.call.req = call.req) (henq : call.enqueued = true → change.call.enqueued = true)
    (hplace : PlaceOk change.call (.handling stage')) :
    LaneOk (w.commit job.call change) { lane with pc := .handle job stage' } := by
  have hheld := Lane.held_handle hpc
  have hnodup := h.nodup
  rw [hheld, List.map_cons] at hnodup
  constructor
  · rw [Lane.held_handle rfl]
    exact hnodup
  · intro job' place' hmem
    rw [Lane.held_handle rfl] at hmem
    rcases List.mem_cons.mp hmem with he | hmem
    · cases he
      obtain ⟨call', hcall', hjob, hrole, hq, _⟩ := h.held job (.handling stage) (by simp [hheld])
      rw [hc] at hcall'
      cases hcall'
      exact ⟨change.call, commit_call_same hc, hreq.trans hjob, hrole, henq hq, hplace⟩
    · obtain ⟨call', hcall', hrest⟩ := h.held job' place' (by rw [hheld]; exact List.mem_cons_of_mem _ hmem)
      have hne : job'.call ≠ job.call := by
        intro he
        apply (List.nodup_cons.mp hnodup).1
        exact List.mem_map.mpr ⟨_, hmem, he⟩
      exact ⟨call', (commit_call_other hne).trans hcall', hrest⟩

theorem LaneOk.ends {job : Job} {stage : Stage} (h : LaneOk w lane)
    (hpc : lane.pc = .handle job stage) :
    LaneOk (w.commit job.call change) { lane with pc := .idle } := by
  have hheld := Lane.held_handle hpc
  have hnodup := h.nodup
  rw [hheld, List.map_cons] at hnodup
  constructor
  · rw [Lane.held_quiet (Or.inl rfl)]
    exact (List.nodup_cons.mp hnodup).2
  · intro job' place' hmem
    rw [Lane.held_quiet (Or.inl rfl)] at hmem
    obtain ⟨call', hcall', hrest⟩ := h.held job' place' (by rw [hheld]; exact List.mem_cons_of_mem _ hmem)
    have hne : job'.call ≠ job.call := by
      intro he
      apply (List.nodup_cons.mp hnodup).1
      exact List.mem_map.mpr ⟨_, hmem, he⟩
    exact ⟨call', (commit_call_other hne).trans hcall', hrest⟩

theorem LaneOk.queue (h : LaneOk w lane) (hok : CallOk call) (hc : w.calls[c]? = some call)
    (hpc : call.pc = .enqueue) (hrole : lane.roleID = commandRoleID call.req)
    (hreq : change.call.req = call.req) (henq : change.call.enqueued = true)
    (hplace : ∀ place, PlaceOk call place → PlaceOk change.call place) :
    LaneOk (w.commit c change) { lane with jobs := lane.jobs ++ [⟨c, call.req⟩] } := by
  have hunq : call.enqueued = false := hok.unqueued (by rw [hpc]; rfl)
  have hheld : ({ lane with jobs := lane.jobs ++ [⟨c, call.req⟩] } : Lane).held =
      lane.held ++ [(⟨c, call.req⟩, .queued)] := by
    simp [Lane.held]
  have hcommit := h.commit hc hreq (fun _ => henq) fun _ place _ _ => hplace place
  constructor
  · rw [hheld, List.map_append, List.nodup_append]
    refine ⟨h.nodup, by simp, ?_⟩
    intro j hj j' hj' he
    obtain ⟨⟨job, place⟩, hmem, rfl⟩ := List.mem_map.mp hj
    have hcall : job.call = c := he.trans (by simpa using hj')
    obtain ⟨call', hcall', _, _, hq, _⟩ := h.held job place hmem
    rw [hcall, hc] at hcall'
    cases hcall'
    rw [hunq] at hq
    cases hq
  · intro job place hmem
    rw [hheld] at hmem
    rcases List.mem_append.mp hmem with hmem | hmem
    · exact hcommit.held job place hmem
    · cases List.mem_singleton.mp hmem
      exact ⟨change.call, commit_call_same hc, hreq, hrole.symm, henq, hplace .queued (hok.pristine hunq)⟩

end Lanes

section Steps

variable {o : CommandQueueOptions} {w : World}

theorem callOk_start (req : CommandRequest) : CallOk (.start req) where
  admission := ⟨rfl, rfl⟩
  unqueued _ := rfl
  enqueued h := by cases h
  pristine _ := ⟨rfl, rfl, rfl, rfl, rfl⟩
  acquired h := absurd rfl h
  finished h := by cases h
  capacityReleases := rfl
  slotReleases := rfl
  dispatched := rfl
  spawned req h := by cases h
  inner h := absurd rfl h
  replies res h := by rcases h with h | h <;> cases h
  result res h := by rcases h with h | h <;> cases h

theorem queueInv_dispatch (hw : QueueInv o w) (req : CommandRequest) :
    QueueInv o { w with calls := w.calls ++ [.start req] } where
  calls call hcall := by
    rcases List.mem_append.mp hcall with h | h
    · exact hw.calls call h
    · rw [List.mem_singleton.mp h]
      exact callOk_start req
  lanes lane hlane := (hw.lanes lane hlane).append _
  finishing c call hc hd hr := by
    rw [List.getElem?_append] at hc
    split_ifs at hc
    · exact hw.finishing c call hc hd hr
    · rw [List.mem_singleton.mp (List.mem_of_getElem? hc)] at hd
      cases hd
  capacity := by simpa [holdsCapacity, Call.start] using hw.capacity
  slots := by simpa [holdsSlot, Call.start] using hw.slots

theorem queueInv_commit (hw : QueueInv o w) {c : Nat} {call : Call} {change : Change}
    (hc : w.calls[c]? = some call) (hb : Balanced o w call change)
    (hlanes : ∀ lane ∈ (w.commit c change).lanes.rows, LaneOk (w.commit c change) lane)
    (hfinishing : ∀ (j : Nat) (call' : Call), (w.commit c change).calls[j]? = some call' →
      call'.delivered = true → call'.released = false →
        ∃ lane ∈ (w.commit c change).lanes.rows, ∃ req, lane.pc = .handle ⟨j, req⟩ .finish) :
    QueueInv o (w.commit c change) where
  calls call' hcall' := by
    rcases List.mem_or_eq_of_mem_set hcall' with h | rfl
    · exact hw.calls call' h
    · exact hb.callOk
  lanes := hlanes
  finishing := hfinishing
  capacity := by
    have hcount := commit_countP change holdsCapacity hc
    have hbalance := hb.capacity
    have htokens := hw.capacity.1
    refine ⟨?_, hb.capacityLimit hw.capacity.2⟩
    change change.capacity = _
    omega
  slots := by
    have hcount := commit_countP change holdsSlot hc
    have hbalance := hb.slots
    have htokens := hw.slots.1
    refine ⟨?_, hb.slotLimit hw.slots.2⟩
    change change.workerSlots = _
    omega

theorem queueInv_unnoticed (hw : QueueInv o w) {c : Nat} {call : Call} {change : Change}
    (hc : w.calls[c]? = some call) (hb : Balanced o w call change) (hu : Unnoticed call change.call)
    (hlane : CallerLane w c call change) : QueueInv o (w.commit c change) := by
  have hok := hw.calls call (List.mem_of_getElem? hc)
  have hold {lane : Lane} (h : lane ∈ w.lanes.rows) : LaneOk (w.commit c change) lane :=
    (hw.lanes lane h).commit hc hb.req hb.enqueued fun _ place _ _ => hu.place place
  refine queueInv_commit hw hc hb ?_ ?_
  · intro lane' hmem'
    cases hlane with
    | same hnone => exact hold ((commit_lanes_same hnone).mp hmem')
    | created _ _ hnew =>
      rcases mem_commit_lanes.mp hmem' with he | ⟨h, _⟩
      · rw [hnew] at he
        cases he
        exact ⟨List.nodup_nil, fun _ _ h => by cases h⟩
      · exact hold h
    | queued lane hpc hmem hrole henq hnew =>
      rcases mem_commit_lanes.mp hmem' with he | ⟨h, _⟩
      · rw [hnew] at he
        cases he
        exact (hw.lanes lane hmem).queue hok hc hpc hrole hb.req henq hu.place
      · exact hold h
  · intro j call' hj hd hr
    have hbefore : ∃ lane ∈ w.lanes.rows, ∃ req, lane.pc = .handle ⟨j, req⟩ .finish := by
      rcases commit_call hc hj with ⟨rfl, rfl⟩ | ⟨_, hj⟩
      · obtain ⟨hd', hr'⟩ := hu.finishing hd hr
        exact hw.finishing j call hc hd' hr'
      · exact hw.finishing j call' hj hd hr
    obtain ⟨lane, hmem, req, hpc⟩ := hbefore
    obtain ⟨lane', hmem', _, hpc'⟩ := hlane.kept hmem
    exact ⟨lane', hmem', req, hpc'.trans hpc⟩

theorem QueueInv.handled (hw : QueueInv o w) {lane : Lane} {job : Job} {stage : Stage} {call : Call}
    (hlane : lane ∈ w.lanes.rows) (hpc : lane.pc = .handle job stage)
    (hc : w.calls[job.call]? = some call) :
    call.req = job.req ∧ commandRoleID job.req = lane.roleID ∧ call.enqueued = true ∧
      PlaceOk call (.handling stage) := by
  obtain ⟨call', hc', hrest⟩ := (hw.lanes lane hlane).held job (.handling stage)
    (by rw [Lane.held_handle hpc]; exact List.mem_cons_self)
  rw [hc] at hc'
  cases hc'
  exact hrest

theorem queueInv_handle (hw : QueueInv o w) {lane : Lane} {job : Job} {stage : Stage} {call : Call}
    {change : Change} (hlane : lane ∈ w.lanes.rows) (hpc : lane.pc = .handle job stage)
    (hc : w.calls[job.call]? = some call) (hb : Balanced o w call change)
    (hh : HandleLane lane job change) : QueueInv o (w.commit job.call change) := by
  have hown := hw.lanes lane hlane
  have hheld : (job, Place.handling stage) ∈ lane.held := by
    rw [Lane.held_handle hpc]
    exact List.mem_cons_self
  have hnew : ∃ lane', change.lane = some lane' ∧ lane'.roleID = lane.roleID ∧
      LaneOk (w.commit job.call change) lane' ∧ (change.call.delivered = true →
        change.call.released = false → lane'.pc = .handle job .finish) := by
    cases hh with
    | goes stage' h hplace hfinish =>
      exact ⟨_, h, rfl, hown.goes hpc hc hb.req hb.enqueued hplace,
        fun hd hr => by rw [hfinish hd hr]⟩
    | ends h hreleased =>
      refine ⟨_, h, rfl, hown.ends hpc, fun _ hr => ?_⟩
      rw [hreleased] at hr
      cases hr
  obtain ⟨lane', hlane', hrole, hok', hfinish⟩ := hnew
  have hothers {other : Lane} (h : other ∈ w.lanes.rows) (hne : other.roleID ≠ lane.roleID) :
      other ∈ (w.commit job.call change).lanes.rows := by
    refine mem_commit_lanes.mpr (Or.inr ⟨h, ?_⟩)
    rintro _ he
    rw [hlane'] at he
    cases he
    rw [hrole]
    exact hne
  refine queueInv_commit hw hc hb ?_ ?_
  · intro other hmem
    rcases mem_commit_lanes.mp hmem with he | ⟨h, hne⟩
    · rw [hlane'] at he
      cases he
      exact hok'
    · refine (hw.lanes other h).commit hc hb.req hb.enqueued fun job' place' hheld' he _ => ?_
      have hsame := (hw.lanes other h).other hown hheld' hheld he
      exact absurd (hsame.trans hrole.symm) (hne lane' hlane')
  · intro j call' hj hd hr
    rcases commit_call hc hj with ⟨rfl, rfl⟩ | ⟨hne, hj⟩
    · exact ⟨lane', mem_commit_lanes.mpr (Or.inl hlane'), job.req, hfinish hd hr⟩
    · obtain ⟨other, hmem, req, hother⟩ := hw.finishing j call' hj hd hr
      refine ⟨other, hothers hmem ?_, req, hother⟩
      intro he
      rw [w.lanes.row_unique hmem hlane he, hpc] at hother
      cases hother
      exact hne rfl

theorem queueInv_setLane (hw : QueueInv o w) {lane lane' : Lane} (hlane : lane ∈ w.lanes.rows)
    (hpc : lane.pc = .idle) (hrole : lane'.roleID = lane.roleID)
    (hcalls : lane'.held.map (fun h => h.1.call) = lane.held.map fun h => h.1.call)
    (hplace : ∀ job place, (job, place) ∈ lane'.held →
      ∃ place', (job, place') ∈ lane.held ∧ ∀ call, PlaceOk call place' → PlaceOk call place) :
    QueueInv o (w.setLane lane') where
  calls := hw.calls
  lanes other hmem := by
    rcases mem_setLane.mp hmem with rfl | ⟨h, _⟩
    · have hown := hw.lanes lane hlane
      refine ⟨hcalls ▸ hown.nodup, fun job place hheld => ?_⟩
      obtain ⟨place', hheld', himp⟩ := hplace job place hheld
      obtain ⟨call, hc, hreq, hroleID, henq, hp⟩ := hown.held job place' hheld'
      exact ⟨call, hc, hreq, hroleID.trans hrole.symm, henq, himp call hp⟩
    · exact ⟨(hw.lanes other h).nodup, (hw.lanes other h).held⟩
  finishing c call hc hd hr := by
    obtain ⟨other, hmem, req, hother⟩ := hw.finishing c call hc hd hr
    refine ⟨other, mem_setLane.mpr (Or.inr ⟨hmem, fun he => ?_⟩), req, hother⟩
    rw [w.lanes.row_unique hmem hlane (he.trans hrole), hpc] at hother
    cases hother
  capacity := hw.capacity
  slots := hw.slots

theorem queueInv_step {w' : World} {l : Label} (hw : QueueInv o w) (h : step o w l = some w') :
    QueueInv o w' := by
  cases step_moves h with
  | dispatch => exact queueInv_dispatch hw _
  | context hc hstep =>
    obtain ⟨hb, hu⟩ := contextStep_ok (w := w) (hw.calls _ (List.mem_of_getElem? hc)) hstep
    exact queueInv_unnoticed hw hc hb hu (.same rfl)
  | caller hc hstep =>
    obtain ⟨⟨hb, hu⟩, hlane, _⟩ := callerStep_ok (hw.calls _ (List.mem_of_getElem? hc)) hstep
    exact queueInv_unnoticed hw hc hb hu hlane
  | handler hc hstep =>
    obtain ⟨⟨hb, hu⟩, hlane⟩ := handlerStep_ok (hw.calls _ (List.mem_of_getElem? hc)) hstep
    exact queueInv_unnoticed hw hc hb hu (.same hlane)
  | handle hlane hpc hc hstep =>
    obtain ⟨hreq, _, henq, hplace⟩ := hw.handled hlane hpc hc
    obtain ⟨⟨hb, hh⟩, _⟩ := handleStep_ok (hw.calls _ (List.mem_of_getElem? hc)) henq hreq hplace hstep
    exact queueInv_handle hw hlane hpc hc hb hh
  | @take lane job rest hlane hpc hjobs =>
    refine queueInv_setLane hw hlane hpc ?_ ?_ ?_
    · rfl
    · rw [Lane.held_handle rfl, Lane.held_quiet (Or.inl hpc), hjobs]
      rfl
    · intro job' place hmem
      rw [Lane.held_handle rfl] at hmem
      rw [Lane.held_quiet (Or.inl hpc), hjobs]
      rcases List.mem_cons.mp hmem with he | hmem
      · cases he
        exact ⟨.queued, List.mem_cons_self, fun _ h => h⟩
      · exact ⟨place, List.mem_cons_of_mem _ hmem, fun _ h => h⟩
  | stop hlane hpc =>
    refine queueInv_setLane hw hlane hpc ?_ ?_ ?_
    · rfl
    · rw [Lane.held_quiet (Or.inr rfl), Lane.held_quiet (Or.inl hpc)]
    · intro job place hmem
      rw [Lane.held_quiet (Or.inr rfl)] at hmem
      rw [Lane.held_quiet (Or.inl hpc)]
      exact ⟨place, hmem, fun _ h => h⟩
  | close =>
    exact ⟨hw.calls, fun lane hl => ⟨(hw.lanes lane hl).nodup, (hw.lanes lane hl).held⟩, hw.finishing,
      hw.capacity, hw.slots⟩
  | closeReturn =>
    exact ⟨hw.calls, fun lane hl => ⟨(hw.lanes lane hl).nodup, (hw.lanes lane hl).held⟩, hw.finishing,
      hw.capacity, hw.slots⟩

theorem queueInv_init : QueueInv o init where
  calls call h := by cases h
  lanes lane h := by cases h
  finishing c call h := by simp [init] at h
  capacity := ⟨rfl, Nat.zero_le _⟩
  slots := ⟨rfl, Nat.zero_le _⟩

theorem QueueInv.run {ls : List Label} {w' : World} (hw : QueueInv o w)
    (h : run (step o) w ls = some w') : QueueInv o w' :=
  run_invariant (fun _ _ _ hs hl => queueInv_step hs hl) hw h

theorem queueInv_run {ls : List Label} (h : run (step o) init ls = some w) : QueueInv o w :=
  queueInv_init.run h

end Steps

end GlobalMailSystem.CommandQueue
