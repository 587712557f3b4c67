import GlobalMailSystem.QueueSerial
import GlobalMailSystem.QueueWork

namespace GlobalMailSystem.CommandQueue

open Rpc.Wire Transition

inductive RoleEvent
  | queued (call : Nat)
  | begun (call : Nat)
  | ended (call : Nat)
  deriving DecidableEq

def Handler.events (c : Nat) : Handler → List RoleEvent
  | .spawned _ => [.begun c]
  | .invoking _ => [.ended c]
  | .none | .replying _ | .deferred | .finished => []

def roleEvents (role : Int) (w : World) : Label → List RoleEvent
  | .caller c .ready => (w.calls[c]?).elim [] fun call =>
      if call.pc = .enqueue ∧ commandRoleID call.req = role then [.queued c] else []
  | .handler c _ => (w.calls[c]?).elim [] fun call =>
      if commandRoleID call.req = role then call.handler.events c else []
  | _ => []

def queuedCalls (events : List RoleEvent) : List Nat :=
  events.filterMap fun
    | .queued c => some c
    | .begun _ | .ended _ => none

def invocations (events : List RoleEvent) : List RoleEvent :=
  events.filter fun
    | .queued _ => false
    | .begun _ | .ended _ => true

def oneByOne (calls : List Nat) : List RoleEvent := calls.flatMap fun c => [.begun c, .ended c]

inductive Working (before : List Nat) (c : Nat) : Handler → List RoleEvent → Prop
  | unbegun {handler : Handler} (calls : List Nat) (hcalls : calls.Sublist before)
      (hh : handler = .none ∨ handler.unbegun = true) : Working before c handler (oneByOne calls)
  | begun (calls : List Nat) (hcalls : calls.Sublist before) (req : CommandRequest) :
      Working before c (.invoking req) (oneByOne calls ++ [.begun c])
  | ended {handler : Handler} (calls : List Nat) (hcalls : calls.Sublist before) (hh : handler ≠ .none)
      (hover : handler.running = false) : Working before c handler (oneByOne (calls ++ [c]))

inductive Served (all : List Call) (taken : List Nat) : LanePC → List RoleEvent → Prop
  | resting {pc : LanePC} {events : List RoleEvent} (hpc : pc = .idle ∨ pc = .stopped) (calls : List Nat)
      (hcalls : calls.Sublist taken) (hevents : events = oneByOne calls) : Served all taken pc events
  | working {job : Job} {stage : Stage} {events : List RoleEvent} (call : Call) (hc : all[job.call]? = some call)
      (before : List Nat) (htaken : taken = before ++ [job.call]) (h : Working before job.call call.handler events) :
      Served all taken (.handle job stage) events

def LaneServed (all : List Call) (lane : Lane) (events : List RoleEvent) : Prop :=
  ∃ taken, queuedCalls events = taken ++ lane.jobs.map Job.call ∧ Served all taken lane.pc (invocations events)

def InOrder (role : Int) (events : List RoleEvent) (w : World) : Prop :=
  match w.lanes.find? role with
  | none => events = []
  | some lane => LaneServed w.calls lane events

section Events

theorem oneByOne_append (calls : List Nat) (c : Nat) :
    oneByOne (calls ++ [c]) = oneByOne calls ++ [.begun c, .ended c] := by
  simp [oneByOne]

theorem queuedCalls_append (events more : List RoleEvent) :
    queuedCalls (events ++ more) = queuedCalls events ++ queuedCalls more :=
  List.filterMap_append

theorem invocations_append (events more : List RoleEvent) :
    invocations (events ++ more) = invocations events ++ invocations more :=
  List.filter_append _ _

variable {before : List Nat} {c : Nat} {events : List RoleEvent}

theorem Working.begin {req : CommandRequest} (h : Working before c (.spawned req) events) :
    Working before c (.invoking req) (events ++ [.begun c]) := by
  cases h with
  | unbegun calls hcalls _ => exact .begun calls hcalls req
  | ended _ _ _ hover => cases hover

theorem Working.finish {req : CommandRequest} (h : Working before c (.invoking req) events) (res : CommandResult) :
    Working before c (.replying res) (events ++ [.ended c]) := by
  cases h with
  | unbegun _ _ hh => rcases hh with hh | hh <;> cases hh
  | begun calls hcalls =>
    rw [List.append_assoc]
    exact oneByOne_append calls c ▸ .ended calls hcalls (by simp) rfl
  | ended _ _ _ hover => cases hover

theorem Working.moves {handler handler' : Handler} (h : Working before c handler events)
    (hrunning : handler = .none ∧ handler'.unbegun = true ∨
      handler ≠ .none ∧ handler.running = false ∧ handler' ≠ .none ∧ handler'.running = false) :
    Working before c handler' events := by
  cases h with
  | unbegun calls hcalls hh =>
    rcases hrunning with ⟨_, hnext⟩ | ⟨hne, hover, _⟩
    · exact .unbegun calls hcalls (Or.inr hnext)
    · have hunbegun := hh.resolve_left hne
      cases handler <;> simp [Handler.unbegun, Handler.running] at hunbegun hover
  | begun calls hcalls req =>
    rcases hrunning with ⟨hh, _⟩ | ⟨_, hover, _⟩
    · cases hh
    · cases hover
  | ended calls hcalls hh hover =>
    rcases hrunning with ⟨hnone, _⟩ | ⟨_, _, hne, hnext⟩
    · exact absurd hnone hh
    · exact .ended calls hcalls hne hnext

theorem Working.over {handler : Handler} (h : Working before c handler events) (hover : handler.running = false) :
    ∃ calls, calls.Sublist (before ++ [c]) ∧ events = oneByOne calls := by
  cases h with
  | unbegun calls hcalls => exact ⟨calls, hcalls.trans (List.sublist_append_left _ _), rfl⟩
  | begun => cases hover
  | ended calls hcalls => exact ⟨calls ++ [c], hcalls.append (List.Sublist.refl _), rfl⟩

end Events

section Frames

variable {o : CommandQueueOptions} {w : World} {c : Nat} {call : Call} {change : Change} {role : Int}
  {lane : Lane} {events : List RoleEvent}

theorem inOrder_some (hfind : w.lanes.find? role = some lane) :
    InOrder role events w ↔ LaneServed w.calls lane events := by
  simp only [InOrder, hfind]

theorem inOrder_none (hfind : w.lanes.find? role = none) : InOrder role events w ↔ events = [] := by
  simp only [InOrder, hfind]

theorem commit_find {lane' : Lane} (hlane : change.lane = some lane') (role : Int) :
    (w.commit c change).lanes.find? role = if role = lane'.roleID then some lane' else w.lanes.find? role := by
  simp only [World.commit, hlane, Table.find?_upsert]

theorem commit_find_same (hlane : change.lane = none) (role : Int) :
    (w.commit c change).lanes.find? role = w.lanes.find? role := by
  simp only [World.commit, hlane]

theorem LaneServed.commit (h : LaneServed w.calls lane events) (hc : w.calls[c]? = some call)
    (hsame : (∃ job stage, lane.pc = .handle job stage ∧ job.call = c) → change.call.handler = call.handler) :
    LaneServed (w.commit c change).calls lane events := by
  obtain ⟨taken, hqueued, hserved⟩ := h
  refine ⟨taken, hqueued, ?_⟩
  cases hpc : lane.pc with
  | idle | stopped =>
    rw [hpc] at hserved
    cases hserved with
    | resting hrest calls hcalls hevents => exact .resting hrest calls hcalls hevents
  | handle job stage =>
    rw [hpc] at hserved
    cases hserved with
    | resting hrest => rcases hrest with hrest | hrest <;> cases hrest
    | working own hown before htaken hworking =>
      by_cases he : job.call = c
      · subst he
        rw [hc] at hown
        cases hown
        refine .working change.call (commit_call_same hc) before htaken ?_
        rw [hsame ⟨job, stage, hpc, rfl⟩]
        exact hworking
      · exact .working own ((commit_call_other he).trans hown) before htaken hworking

theorem InOrder.commit (h : InOrder role events w) (hc : w.calls[c]? = some call)
    (hfind : (w.commit c change).lanes.find? role = w.lanes.find? role)
    (hsame : change.call.handler = call.handler ∨
      ∀ lane, w.lanes.find? role = some lane → ∀ job stage, lane.pc = .handle job stage → job.call ≠ c) :
    InOrder role events (w.commit c change) := by
  cases hlane : w.lanes.find? role with
  | none =>
    rw [inOrder_none hlane] at h
    exact (inOrder_none (hfind.trans hlane)).mpr h
  | some lane =>
    rw [inOrder_some hlane] at h
    rw [inOrder_some (hfind.trans hlane)]
    apply h.commit hc
    rintro ⟨job, stage, hpc, he⟩
    rcases hsame with hsame | hother
    · exact hsame
    · exact absurd he (hother lane hlane job stage hpc)

theorem QueueInv.role_of_job (hq : QueueInv o w) (hfind : w.lanes.find? role = some lane) {job : Job} {stage : Stage}
    (hpc : lane.pc = .handle job stage) (hc : w.calls[job.call]? = some call) : commandRoleID call.req = role := by
  obtain ⟨hlane, rfl⟩ := Table.find?_eq_some.mp hfind
  obtain ⟨hreq, hrole, _⟩ := hq.handled hlane hpc hc
  rw [hreq, hrole]

end Frames

section Steps

variable {o : CommandQueueOptions} {w w' : World} {c : Nat} {call : Call} {change : Change} {role : Int}
  {events : List RoleEvent}

theorem CallerMove.handler (h : CallerMove w c call change) : change.call.handler = call.handler := by
  cases h <;> rfl

theorem callerStep_queues {case : Case} (h : callerStep o w c call call.pc case = some change) :
    (case = .ready ∧ call.pc = .enqueue ∧ ∃ lane ∈ w.lanes.rows, lane.roleID = commandRoleID call.req ∧
      change.lane = some { lane with jobs := lane.jobs ++ [⟨c, call.req⟩] }) ∨
    ((case = .ready → call.pc ≠ .enqueue) ∧ (change.lane = none ∨
      w.lanes.find? (commandRoleID call.req) = none ∧ change.lane = some ⟨commandRoleID call.req, [], .idle⟩)) := by
  by_cases hq : case = .ready ∧ call.pc = .enqueue
  · obtain ⟨rfl, hpc⟩ := hq
    rw [hpc] at h
    simp only [callerStep, Option.bind_eq_bind, Option.bind_eq_some_iff] at h
    obtain ⟨lane, hfind, h⟩ := h
    split_ifs at h
    cases h
    obtain ⟨hlane, hrole⟩ := Table.find?_eq_some.mp hfind
    exact Or.inl ⟨rfl, hpc, lane, hlane, hrole, rfl⟩
  · refine Or.inr ⟨fun hcase hpc => hq ⟨hcase, hpc⟩, ?_⟩
    cases callerStep_move h with
    | goes | admitted | received | released => exact Or.inl rfl
    | created _ hnone => exact Or.inr ⟨hnone, rfl⟩
    | queued lane hpc =>
      rw [hpc] at h
      cases case with
      | ready => exact absurd ⟨rfl, hpc⟩ hq
      | ctxDone =>
        obtain ⟨_, _, he⟩ := Option.map_eq_some_iff.mp h
        cases he
      | closed =>
        simp only [callerStep] at h
        split_ifs at h
        cases h
      | default =>
        simp only [callerStep, Option.bind_eq_bind, Option.bind_eq_some_iff] at h
        obtain ⟨_, _, h⟩ := h
        split_ifs at h
        cases h

theorem inOrder_caller {case : Case} (hw : InOrder role events w) (hc : w.calls[c]? = some call)
    (h : callerStep o w c call call.pc case = some change) :
    InOrder role (events ++ roleEvents role w (.caller c case)) (w.commit c change) := by
  have hhandler := (callerStep_move h).handler
  have hquiet : (case = .ready → call.pc ≠ .enqueue) ∨ commandRoleID call.req ≠ role →
      roleEvents role w (.caller c case) = [] := by
    intro hnot
    cases case with
    | ready =>
      simp only [roleEvents, hc, Option.elim_some]
      rw [if_neg]
      rintro ⟨hpc, hrole⟩
      rcases hnot with hnot | hnot
      · exact hnot rfl hpc
      · exact hnot hrole
    | ctxDone | closed | default => rfl
  rcases callerStep_queues h with ⟨rfl, hpc, lane, hlane, hrole, hnew⟩ | ⟨hnot, hnone | ⟨hmissing, hnew⟩⟩
  · by_cases hown : commandRoleID call.req = role
    · have hfind : w.lanes.find? role = some lane := Table.find?_eq_some.mpr ⟨hlane, hrole.trans hown⟩
      have hshown : roleEvents role w (.caller c .ready) = [.queued c] := by
        simp [roleEvents, hc, hpc, hown]
      rw [inOrder_some hfind] at hw
      have hkept : LaneServed (w.commit c change).calls lane events := hw.commit hc fun _ => hhandler
      obtain ⟨taken, hqueued, hserved⟩ := hkept
      rw [hshown, inOrder_some ((commit_find hnew role).trans (if_pos (hrole.trans hown).symm))]
      refine ⟨taken, ?_, ?_⟩
      · rw [queuedCalls_append, hqueued, List.map_append, List.append_assoc]
        rfl
      · rw [invocations_append]
        simpa [invocations] using hserved
    · rw [hquiet (Or.inr hown), List.append_nil]
      apply hw.commit hc _ (Or.inl hhandler)
      rw [commit_find hnew, if_neg]
      exact fun he => hown (he.trans hrole).symm
  · rw [hquiet (Or.inl hnot), List.append_nil]
    exact hw.commit hc (commit_find_same hnone role) (Or.inl hhandler)
  · rw [hquiet (Or.inl hnot), List.append_nil]
    by_cases hown : role = commandRoleID call.req
    · subst hown
      rw [inOrder_none hmissing] at hw
      subst hw
      rw [inOrder_some ((commit_find hnew _).trans (if_pos rfl))]
      exact ⟨[], rfl, .resting (Or.inl rfl) [] (List.Sublist.refl _) rfl⟩
    · exact hw.commit hc ((commit_find hnew role).trans (if_neg hown)) (Or.inl hhandler)

theorem LaneServed.handled {lane lane' : Lane} {job : Job} {stage next : Stage} {more : List RoleEvent}
    (h : LaneServed w.calls lane events) (hpc : lane.pc = .handle job stage) (hc : w.calls[job.call]? = some call)
    (hpc' : lane'.pc = .handle job next) (hjobs : lane'.jobs = lane.jobs) (hmore : queuedCalls more = [])
    (hworking : ∀ before, Working before job.call call.handler (invocations events) →
      Working before job.call change.call.handler (invocations events ++ invocations more)) :
    LaneServed (w.commit job.call change).calls lane' (events ++ more) := by
  obtain ⟨taken, hqueued, hserved⟩ := h
  rw [hpc] at hserved
  cases hserved with
  | resting hrest => rcases hrest with hrest | hrest <;> cases hrest
  | working own hown before htaken hstage =>
    rw [hc] at hown
    cases hown
    refine ⟨taken, ?_, ?_⟩
    · rw [queuedCalls_append, hmore, List.append_nil, hqueued, hjobs]
    · rw [hpc', invocations_append]
      exact .working change.call (commit_call_same hc) before htaken (hworking before hstage)

theorem HandlerMove.shown (h : HandlerMove w call change) (before : List Nat) (shown : List RoleEvent)
    (hworking : Working before c call.handler shown) :
    Working before c change.call.handler (shown ++ invocations (call.handler.events c)) := by
  cases h with
  | begins req hh =>
    rw [hh] at hworking ⊢
    exact hworking.begin
  | completes req res hh =>
    rw [hh] at hworking ⊢
    exact hworking.finish res
  | replies res hh =>
    rw [hh] at hworking ⊢
    simp only [Handler.events, invocations, List.filter_nil, List.append_nil]
    exact hworking.moves (Or.inr ⟨by simp, rfl, by simp [World.put], rfl⟩)
  | releases hh extra tokens =>
    rw [hh] at hworking ⊢
    simp only [Handler.events, invocations, List.filter_nil, List.append_nil]
    exact hworking.moves (Or.inr ⟨by simp, rfl, by simp, rfl⟩)

theorem HandlerMove.lane (h : HandlerMove w call change) : change.lane = none := by
  cases h <;> rfl

theorem inOrder_handler (hq : QueueInv o w) (hwaited : AllWaited w) (hw : InOrder role events w)
    (hc : w.calls[c]? = some call) (h : HandlerMove w call change) (res : CommandResult) :
    InOrder role (events ++ roleEvents role w (.handler c res)) (w.commit c change) := by
  have hfind := commit_find_same (w := w) (c := c) h.lane role
  simp only [roleEvents, hc, Option.elim_some]
  split_ifs with hrole
  · -- an invocation that begins or ends is the one its lane waits for
    by_cases hcurrent : ∃ lane job stage, w.lanes.find? role = some lane ∧ lane.pc = .handle job stage ∧ job.call = c
    · obtain ⟨lane, job, stage, hlane, hpc, rfl⟩ := hcurrent
      rw [inOrder_some hlane] at hw
      rw [inOrder_some (hfind.trans hlane)]
      apply hw.handled hpc hc hpc rfl
      · cases call.handler <;> rfl
      · intro before hworking
        exact h.shown before _ hworking
    · have hquiet : call.handler.events c = [] := by
        have hrunning : call.handler.running = false := by
          by_contra hrun
          obtain ⟨lane, hlane, req, hpc⟩ := hwaited c call hc (Bool.not_eq_false _ ▸ hrun)
          obtain ⟨hreq, hjob, _⟩ := hq.handled hlane hpc hc
          apply hcurrent
          refine ⟨lane, _, _, Table.find?_eq_some.mpr ⟨hlane, ?_⟩, hpc, rfl⟩
          rw [← hjob, ← hreq, hrole]
        cases hh : call.handler with
        | spawned | invoking => rw [hh] at hrunning; cases hrunning
        | none | replying | deferred | finished => rfl
      rw [hquiet, List.append_nil]
      apply hw.commit hc hfind
      refine Or.inr fun lane hlane job stage hpc he => ?_
      exact hcurrent ⟨lane, job, stage, hlane, hpc, he⟩
  · rw [List.append_nil]
    apply hw.commit hc hfind
    refine Or.inr fun lane hlane job stage hpc he => hrole ?_
    subst he
    exact hq.role_of_job hlane hpc hc

theorem HandleMove.lane {lane : Lane} {job : Job} {stage : Stage} (h : HandleMove w lane job call stage change) :
    (∃ next, change.lane = some { lane with pc := .handle job next }) ∨
      stage = .finish ∧ change.lane = some { lane with pc := .idle } := by
  cases h with
  | goes next => exact Or.inl ⟨next, rfl⟩
  | acquired | spawned | received | slotReleased | sent => exact Or.inl ⟨_, rfl⟩
  | finished => exact Or.inr ⟨rfl, rfl⟩

theorem HandleMove.handler {lane : Lane} {job : Job} {stage : Stage} (h : HandleMove w lane job call stage change)
    (hplace : PlaceOk call (.handling stage)) :
    change.call.handler = call.handler ∨ call.handler = .none ∧ change.call.handler.unbegun = true := by
  cases h with
  | goes | acquired | received | slotReleased | sent | finished => exact Or.inl rfl
  | spawned => exact Or.inr ⟨hplace.1, rfl⟩

theorem inOrder_handle {lane : Lane} {job : Job} {stage : Stage} (hq : QueueInv o w) (hwaited : AllWaited w)
    (hw : InOrder role events w) (hlane : lane ∈ w.lanes.rows) (hpc : lane.pc = .handle job stage)
    (hc : w.calls[job.call]? = some call) (h : HandleMove w lane job call stage change) :
    InOrder role events (w.commit job.call change) := by
  obtain ⟨hreq, hjob, _, hplace⟩ := hq.handled hlane hpc hc
  by_cases hrole : lane.roleID = role
  · have hfind : w.lanes.find? role = some lane := Table.find?_eq_some.mpr ⟨hlane, hrole⟩
    rw [inOrder_some hfind] at hw
    rcases h.lane with ⟨next, hnew⟩ | ⟨rfl, hnew⟩
    · rw [inOrder_some ((commit_find hnew role).trans (if_pos hrole.symm)), ← List.append_nil events]
      apply hw.handled hpc hc (by rfl) (by rfl) (by rfl)
      intro before hworking
      rw [show invocations [] = [] from rfl, List.append_nil]
      rcases h.handler hplace with hsame | ⟨hnone, hnext⟩
      · rw [hsame]
        exact hworking
      · exact hworking.moves (Or.inl ⟨hnone, hnext⟩)
    · rw [inOrder_some ((commit_find hnew role).trans (if_pos hrole.symm))]
      obtain ⟨taken, hqueued, hserved⟩ := hw
      rw [hpc] at hserved
      cases hserved with
      | resting hrest => rcases hrest with hrest | hrest <;> cases hrest
      | working own hown before htaken hworking =>
        -- a lane that is past its wait has no running invocation left
        have hover : own.handler.running = false := by
          by_contra hrun
          obtain ⟨other, hother, req, hwaits⟩ := hwaited job.call own hown (Bool.not_eq_false _ ▸ hrun)
          obtain ⟨hreq', hjob', _⟩ := hq.handled hother hwaits hown
          rw [hown] at hc
          cases hc
          have hsame : other.roleID = lane.roleID := by rw [← hjob, ← hjob', ← hreq, ← hreq']
          rw [w.lanes.row_unique hother hlane hsame, hpc] at hwaits
          cases (LanePC.handle.inj hwaits).2
        obtain ⟨calls, hcalls, hevents⟩ := hworking.over hover
        exact ⟨taken, hqueued, .resting (Or.inl rfl) calls (htaken ▸ hcalls) hevents⟩
  · apply hw.commit hc
    · rcases h.lane with ⟨next, hnew⟩ | ⟨_, hnew⟩
      · exact (commit_find hnew role).trans (if_neg (Ne.symm hrole))
      · exact (commit_find hnew role).trans (if_neg (Ne.symm hrole))
    · refine Or.inr fun other hother job' stage' hpc' he => hrole ?_
      rw [← hjob, ← hreq]
      exact hq.role_of_job hother hpc' (he ▸ hc)

theorem inOrder_setLane {lane lane' : Lane} (hw : InOrder role events w) (hlane : lane ∈ w.lanes.rows)
    (hrole : lane'.roleID = lane.roleID)
    (hserved : LaneServed w.calls lane events → LaneServed w.calls lane' events) :
    InOrder role events (w.setLane lane') := by
  have hfind : (w.setLane lane').lanes.find? role = if role = lane'.roleID then some lane' else w.lanes.find? role :=
    Table.find?_upsert
  by_cases hown : role = lane.roleID
  · rw [inOrder_some (Table.find?_eq_some.mpr ⟨hlane, hown.symm⟩)] at hw
    exact (inOrder_some (hfind.trans (if_pos (hown.trans hrole.symm)))).mpr (hserved hw)
  · rw [if_neg (fun he => hown (he.trans hrole))] at hfind
    simp only [InOrder, hfind]
    exact hw

theorem laneServed_take {lane : Lane} {job : Job} {rest : List Job} {all : List Call} (h : LaneServed all lane events)
    (hpc : lane.pc = .idle) (hjobs : lane.jobs = job :: rest) (hc : all[job.call]? = some call)
    (hh : call.handler = .none) :
    LaneServed all { lane with jobs := rest, pc := .handle job .check } events := by
  obtain ⟨taken, hqueued, hserved⟩ := h
  rw [hpc] at hserved
  cases hserved with
  | resting _ calls hcalls hevents =>
    refine ⟨taken ++ [job.call], ?_, .working call hc taken rfl ?_⟩
    · rw [hqueued, hjobs, List.map_cons, List.append_assoc]
      rfl
    · rw [hevents]
      exact .unbegun calls hcalls (Or.inl hh)

theorem laneServed_stop {lane : Lane} {all : List Call} (h : LaneServed all lane events) (hpc : lane.pc = .idle) :
    LaneServed all { lane with pc := .stopped } events := by
  obtain ⟨taken, hqueued, hserved⟩ := h
  rw [hpc] at hserved
  cases hserved with
  | resting _ calls hcalls hevents => exact ⟨taken, hqueued, .resting (Or.inr rfl) calls hcalls hevents⟩

theorem LaneServed.append {lane : Lane} {all : List Call} (h : LaneServed all lane events) (call : Call) :
    LaneServed (all ++ [call]) lane events := by
  obtain ⟨taken, hqueued, hserved⟩ := h
  refine ⟨taken, hqueued, ?_⟩
  generalize lane.pc = pc at hserved ⊢
  cases hserved with
  | resting hrest calls hcalls hevents => exact .resting hrest calls hcalls hevents
  | working own hown before htaken hworking =>
    refine .working own ?_ before htaken hworking
    rw [List.getElem?_append_left (List.getElem?_eq_some_iff.mp hown).1]
    exact hown

theorem inOrder_step {l : Label} (hq : QueueInv o w) (hwaited : AllWaited w) (hw : InOrder role events w)
    (h : step o w l = some w') : InOrder role (events ++ roleEvents role w l) w' := by
  cases step_moves h with
  | dispatch =>
    simp only [roleEvents, List.append_nil]
    cases hfind : w.lanes.find? role with
    | none =>
      rw [inOrder_none hfind] at hw
      exact (inOrder_none (by exact hfind)).mpr hw
    | some lane =>
      rw [inOrder_some hfind] at hw
      exact (inOrder_some (by exact hfind)).mpr (hw.append _)
  | context hc hstep =>
    obtain ⟨parent, ctx, rfl⟩ := contextStep_spec hstep
    simp only [roleEvents, List.append_nil]
    exact hw.commit hc rfl (Or.inl rfl)
  | caller hc hstep => exact inOrder_caller hw hc hstep
  | handler hc hstep => exact inOrder_handler hq hwaited hw hc (handlerStep_move hstep) _
  | handle hlane hpc hc hstep =>
    simp only [roleEvents, List.append_nil]
    exact inOrder_handle hq hwaited hw hlane hpc hc (handleStep_move hstep)
  | @take lane job rest hlane hpc hjobs =>
    simp only [roleEvents, List.append_nil]
    apply inOrder_setLane hw hlane (by rfl)
    intro hserved
    obtain ⟨call, hc, _, _, _, hpristine⟩ := (hq.lanes lane hlane).held job .queued (by
      rw [Lane.held_quiet (Or.inl hpc), hjobs]
      exact List.mem_cons_self)
    exact laneServed_take hserved hpc hjobs hc hpristine.1
  | stop hlane hpc =>
    simp only [roleEvents, List.append_nil]
    exact inOrder_setLane hw hlane (by rfl) fun hserved => laneServed_stop hserved hpc
  | close | closeReturn =>
    simp only [roleEvents, List.append_nil]
    exact hw

theorem inOrder_run {ls : List Label} (hg : Guarded (step o) HandlerOver init ls)
    (h : run (step o) init ls = some w) : InOrder role (trace (step o) (roleEvents role) init ls) w := by
  apply run_history (P := fun as u => Guarded (step o) HandlerOver init as →
    InOrder role (trace (step o) (roleEvents role) init as) u) ?_ ?_ h hg
  · intro as u l v hrun hu hl hguard
    have has := (guarded_append hguard hrun).1
    obtain ⟨hq, hwaited⟩ := allWaited_run has hrun
    rw [trace_append hrun]
    simpa [trace, hl] using inOrder_step hq hwaited (hu has) hl
  · intro _
    rfl

theorem step_enqueued {l : Label} (hq : QueueInv o w) (h : step o w l = some w') (hc : w.calls[c]? = some call)
    (henq : call.enqueued = true) : ∃ call' : Call, w'.calls[c]? = some call' ∧ call'.enqueued = true := by
  have hkeeps {j : Nat} {before : Call} {change : Change} (hj : w.calls[j]? = some before)
      (hb : before.enqueued = true → change.call.enqueued = true) :
      ∃ call' : Call, (w.commit j change).calls[c]? = some call' ∧ call'.enqueued = true := by
    obtain ⟨call', hc', hkept⟩ :=
      commit_related (R := fun a b => a.enqueued = true → b.enqueued = true) (fun _ h => h) hj hb hc
    exact ⟨call', hc', hkept henq⟩
  cases step_moves h with
  | dispatch =>
    refine ⟨call, ?_, henq⟩
    rw [List.getElem?_append_left (List.getElem?_eq_some_iff.mp hc).1]
    exact hc
  | context hj hstep =>
    obtain ⟨parent, ctx, rfl⟩ := contextStep_spec hstep
    exact hkeeps hj id
  | caller hj hstep => exact hkeeps hj (callerStep_ok (hq.calls _ (List.mem_of_getElem? hj)) hstep).1.1.enqueued
  | handler hj hstep =>
    exact hkeeps hj (handlerStep_ok (o := o) (hq.calls _ (List.mem_of_getElem? hj)) hstep).1.1.enqueued
  | handle hlane hpc hj hstep =>
    obtain ⟨hreq, _, hjob, hplace⟩ := hq.handled hlane hpc hj
    exact hkeeps hj (handleStep_ok (hq.calls _ (List.mem_of_getElem? hj)) hjob hreq hplace hstep).1.1.enqueued
  | take | stop | close | closeReturn => exact ⟨call, hc, henq⟩

theorem queued_now (h : step o w (.caller c .ready) = some w') (hc : w.calls[c]? = some call)
    (hpc : call.pc = .enqueue) : ∃ call' : Call, w'.calls[c]? = some call' ∧ call'.enqueued = true := by
  cases step_moves h with
  | caller hj hstep =>
    rw [hc] at hj
    cases hj
    refine ⟨_, commit_call_same hc, ?_⟩
    rw [hpc] at hstep
    simp only [callerStep, Option.bind_eq_bind, Option.bind_eq_some_iff] at hstep
    obtain ⟨lane, _, hstep⟩ := hstep
    split_ifs at hstep
    cases hstep
    rfl

theorem roleEvents_queued (role : Int) (w : World) (l : Label) :
    queuedCalls (roleEvents role w l) = [] ∨ ∃ (c : Nat) (call : Call), l = .caller c .ready ∧
      w.calls[c]? = some call ∧ call.pc = .enqueue ∧ queuedCalls (roleEvents role w l) = [c] := by
  cases l with
  | dispatch | context | lane | close | closeReturn => exact Or.inl rfl
  | handler c res =>
    left
    cases hc : w.calls[c]? with
    | none => simp [roleEvents, hc, queuedCalls]
    | some call =>
      simp only [roleEvents, hc, Option.elim_some]
      split_ifs
      · cases call.handler <;> rfl
      · rfl
  | caller c case =>
    cases case with
    | ctxDone | closed | default => exact Or.inl rfl
    | ready =>
      cases hc : w.calls[c]? with
      | none => simp [roleEvents, hc, queuedCalls]
      | some call =>
        simp only [roleEvents, hc, Option.elim_some]
        split_ifs with hqueues
        · exact Or.inr ⟨c, call, rfl, hc, hqueues.1, rfl⟩
        · exact Or.inl rfl

theorem queuedCalls_nodup {ls : List Label} (h : run (step o) init ls = some w) :
    (queuedCalls (trace (step o) (roleEvents role) init ls)).Nodup := by
  -- a call is queued once: after that it waits for its answer
  have hall : (∀ c ∈ queuedCalls (trace (step o) (roleEvents role) init ls), ∃ call : Call,
        w.calls[c]? = some call ∧ call.enqueued = true) ∧
      (queuedCalls (trace (step o) (roleEvents role) init ls)).Nodup := by
    apply run_trace (P := fun events u => (∀ c ∈ queuedCalls events, ∃ call : Call,
      u.calls[c]? = some call ∧ call.enqueued = true) ∧ (queuedCalls events).Nodup) ?_ ?_ h
    · rintro as u l v hrun ⟨hqueued, hnodup⟩ hl
      have hq : QueueInv o u := queueInv_run hrun
      generalize trace (step o) (roleEvents role) init as = events at hqueued hnodup ⊢
      have hkept : ∀ c ∈ queuedCalls events, ∃ call : Call, v.calls[c]? = some call ∧ call.enqueued = true := by
        intro c hc
        obtain ⟨call, hcall, henq⟩ := hqueued c hc
        exact step_enqueued hq hl hcall henq
      rw [queuedCalls_append]
      rcases roleEvents_queued role u l with hquiet | ⟨c, call, rfl, hc, hpc, hnew⟩
      · rw [hquiet, List.append_nil]
        exact ⟨hkept, hnodup⟩
      · have hfresh : call.enqueued = false := (hq.calls call (List.mem_of_getElem? hc)).unqueued (by rw [hpc]; rfl)
        have hnot : c ∉ queuedCalls events := by
          intro hmem
          obtain ⟨call', hc', henq⟩ := hqueued c hmem
          rw [hc] at hc'
          cases hc'
          rw [hfresh] at henq
          cases henq
        rw [hnew]
        refine ⟨fun j hj => ?_, ?_⟩
        · rcases List.mem_append.mp hj with hj | hj
          · exact hkept j hj
          · rw [List.mem_singleton.mp hj]
            exact queued_now hl hc hpc
        · refine List.nodup_append.mpr ⟨hnodup, List.nodup_singleton c, fun a ha b hb he => hnot ?_⟩
          rw [← List.mem_singleton.mp hb, ← he]
          exact ha
    · exact ⟨fun c hc => (by cases hc), List.nodup_nil⟩
  exact hall.2

end Steps

theorem role_commands_in_order (o : CommandQueueOptions) (ls : List Label) (w : World)
    (hg : Guarded (step o) HandlerOver init ls) (h : run (step o) init ls = some w) (role : Int) :
    (queuedCalls (trace (step o) (roleEvents role) init ls)).Nodup ∧ ∃ calls,
      (invocations (trace (step o) (roleEvents role) init ls) = oneByOne calls ∧
        calls.Sublist (queuedCalls (trace (step o) (roleEvents role) init ls))) ∨
      ∃ c, invocations (trace (step o) (roleEvents role) init ls) = oneByOne calls ++ [.begun c] ∧
        (calls ++ [c]).Sublist (queuedCalls (trace (step o) (roleEvents role) init ls)) := by
  refine ⟨queuedCalls_nodup h, ?_⟩
  have horder : InOrder role (trace (step o) (roleEvents role) init ls) w := inOrder_run hg h
  generalize trace (step o) (roleEvents role) init ls = events at horder ⊢
  cases hfind : w.lanes.find? role with
  | none =>
    rw [inOrder_none hfind] at horder
    subst horder
    exact ⟨[], Or.inl ⟨rfl, List.Sublist.refl _⟩⟩
  | some lane =>
    rw [inOrder_some hfind] at horder
    obtain ⟨taken, hqueued, hserved⟩ := horder
    have hqueue : taken.Sublist (queuedCalls events) := by
      rw [hqueued]
      exact List.sublist_append_left _ _
    generalize lane.pc = pc at hserved
    cases hserved with
    | resting _ calls hcalls hevents => exact ⟨calls, Or.inl ⟨hevents, hcalls.trans hqueue⟩⟩
    | working call hc before htaken hworking =>
      subst htaken
      generalize invocations events = shown at hworking ⊢
      generalize call.handler = handler at hworking
      cases hworking with
      | unbegun calls hcalls =>
        exact ⟨calls, Or.inl ⟨rfl, (hcalls.trans (List.sublist_append_left _ _)).trans hqueue⟩⟩
      | begun calls hcalls =>
        exact ⟨calls, Or.inr ⟨_, rfl, (hcalls.append (List.Sublist.refl _)).trans hqueue⟩⟩
      | ended calls hcalls =>
        exact ⟨calls ++ [_], Or.inl ⟨rfl, (hcalls.append (List.Sublist.refl _)).trans hqueue⟩⟩

section TwoOfARole

def twoInTurn : List Label :=
  startCommand 0 5 ++ ([.handler 0 pong, .dispatch (ping 5), .caller 1 .ready, .caller 1 .ready, .caller 1 .ready,
    .handler 0 pong, .handler 0 pong, .lane 5 .ready, .lane 5 .ready, .lane 5 .ready, .lane 5 .ready, .lane 5 .default,
    .lane 5 .ready, .lane 5 .ready, .handler 1 pong] : List Label)

theorem twoInTurn_in_order :
    invocations (trace (step defaultOptions) (roleEvents 5) init twoInTurn) = [.begun 0, .ended 0, .begun 1] ∧
      (queuedCalls (trace (step defaultOptions) (roleEvents 5) init twoInTurn)).Nodup := by
  have hrun : run (step defaultOptions) init twoInTurn =
      some ((run (step defaultOptions) init twoInTurn).get (by decide +kernel)) := (Option.some_get _).symm
  refine ⟨by decide +kernel, ?_⟩
  exact (role_commands_in_order defaultOptions twoInTurn _ (by decide +kernel) hrun 5).1

end TwoOfARole

end GlobalMailSystem.CommandQueue
