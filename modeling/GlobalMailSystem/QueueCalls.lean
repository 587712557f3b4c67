import GlobalMailSystem.QueueSteps

namespace GlobalMailSystem.CommandQueue

open Rpc.Wire Transition

def CallerPC.unqueued : CallerPC → Bool
  | .enter | .laneFor | .enqueue | .release (.returns .queueFull) | .returned .queueFull => true
  | _ => false

def CallerPC.answer : CallerPC → Option Answer
  | .release (.returns answer) | .returned answer => some answer
  | _ => none

def CallerPC.rank : CallerPC → Nat
  | .enter => 6
  | .laneFor => 5
  | .enqueue => 4
  | .await => 3
  | .release _ => 2
  | .contextDone _ => 1
  | .returned _ => 0

def Handler.running : Handler → Bool
  | .spawned _ | .invoking _ => true
  | _ => false

def Handler.unbegun : Handler → Bool
  | .spawned _ => true
  | _ => false

def Entry.invokes : Entry → Bool
  | .invoked _ => true
  | _ => false

def Entry.dispatching : Entry → Bool
  | .invoked _ | .completed _ => true
  | .releasedCapacity | .releasedSlot => false

def Dispatched (req : CommandRequest) : Handler → List Entry → Prop
  | .none, entries | .spawned _, entries => entries = []
  | .invoking _, entries => entries = [.invoked req]
  | .replying res, entries => entries = [.invoked req, .completed res]
  | .deferred, entries | .finished, entries => ∃ res, entries = [.invoked req, .completed res]

def Err.fromQueue : Err → Bool
  | .commandQueueClosed | .ctx _ => true
  | .dispatcher _ _ => false

def holdsCapacity (call : Call) : Bool := call.admitted && !call.released

def holdsSlot (call : Call) : Bool := call.acquired && !call.slotReleased

def Pristine (call : Call) : Prop :=
  call.handler = .none ∧ call.inner = none ∧ call.acquired = false ∧ call.slotReleased = false ∧
    call.delivered = false

def FromInvocation (call : Call) (res : CommandResult) : Prop :=
  (∃ err : Err, err.fromQueue = true ∧ res = .error err) ∨ .completed res ∈ call.history

def Admission (admitted released delivered : Bool) : CallerPC → Prop
  | .enter => admitted = false ∧ released = false
  | .laneFor | .enqueue => admitted = true ∧ released = false
  | .await | .release _ => admitted = true
  | .contextDone _ | .returned _ => admitted = true → released = true ∨ delivered = true

structure CallOk (call : Call) : Prop where
  admission : Admission call.admitted call.released call.delivered call.pc
  unqueued : call.pc.unqueued = true → call.enqueued = false
  enqueued : call.enqueued = true → call.admitted = true
  pristine : call.enqueued = false → Pristine call
  acquired : call.handler ≠ .none → call.acquired = true
  finished : call.handler = .finished → call.slotReleased = true
  capacityReleases : call.history.count .releasedCapacity = call.released.toNat
  slotReleases : call.history.count .releasedSlot = call.slotReleased.toNat
  dispatched : Dispatched call.req call.handler (call.history.filter Entry.dispatching)
  spawned : ∀ req, call.handler = .spawned req → req = call.req
  inner : call.inner ≠ none → call.handler = .deferred ∨ call.handler = .finished
  replies : ∀ res, call.handler = .replying res ∨ call.inner = some res → .completed res ∈ call.history
  result : ∀ res, call.result = some res ∨ call.pc.answer = some (.result res) →
    call.delivered = true ∧ FromInvocation call res

inductive Place
  | queued
  | handling (stage : Stage)

def PlaceOk (call : Call) : Place → Prop
  | .queued | .handling .check | .handling .acquire => Pristine call
  | .handling .spawn =>
    call.handler = .none ∧ call.inner = none ∧ call.acquired = true ∧ call.slotReleased = false ∧
      call.delivered = false
  | .handling .wait | .handling (.releaseSlot _) => call.handler ≠ .none ∧ call.delivered = false
  | .handling (.send res) => call.delivered = false ∧ FromInvocation call res
  | .handling .finish => True

structure Balanced (o : CommandQueueOptions) (w : World) (call : Call) (change : Change) : Prop where
  callOk : CallOk change.call
  req : change.call.req = call.req
  enqueued : call.enqueued = true → change.call.enqueued = true
  capacity : change.capacity + (holdsCapacity call).toNat =
    w.capacity + (holdsCapacity change.call).toNat
  capacityLimit : w.capacity ≤ o.capacityLimit → change.capacity ≤ o.capacityLimit
  slots : change.workerSlots + (holdsSlot call).toNat = w.workerSlots + (holdsSlot change.call).toNat
  slotLimit : w.workerSlots ≤ o.workerLimit → change.workerSlots ≤ o.workerLimit

/-- What a step of the caller, the context or the handler goroutine keeps for the lane of the job. -/
structure Unnoticed (call call' : Call) : Prop where
  place : ∀ place, PlaceOk call place → PlaceOk call' place
  finishing : call'.delivered = true → call'.released = false →
    call.delivered = true ∧ call.released = false

section Calls

variable {o : CommandQueueOptions} {w : World} {call : Call}

theorem balanced_put (call : Call) {call' : Call} (hok : CallOk call') (hreq : call'.req = call.req)
    (henq : call.enqueued = true → call'.enqueued = true)
    (hcapacity : holdsCapacity call' = holdsCapacity call) (hslot : holdsSlot call' = holdsSlot call)
    (lane : Option Lane) : Balanced o w call ⟨call', lane, w.capacity, w.workerSlots⟩ :=
  ⟨hok, hreq, henq, by rw [hcapacity], id, by rw [hslot], id⟩

theorem callOk_pc (h : CallOk call) {pc : CallerPC} (hadm : Admission call.admitted call.released call.delivered pc)
    (hunq : pc.unqueued = true → call.enqueued = false)
    (hres : ∀ res, pc.answer = some (.result res) → call.pc.answer = some (.result res)) :
    CallOk { call with pc } where
  admission := hadm
  unqueued := hunq
  enqueued := h.enqueued
  pristine := h.pristine
  acquired := h.acquired
  finished := h.finished
  capacityReleases := h.capacityReleases
  slotReleases := h.slotReleases
  dispatched := h.dispatched
  spawned := h.spawned
  inner := h.inner
  replies := h.replies
  result res hr := h.result res (hr.imp_right (hres res))

theorem unnoticed_pc (pc : CallerPC) : Unnoticed call { call with pc } :=
  ⟨fun place h => by cases place with
    | queued => exact h
    | handling stage => cases stage <;> exact h, fun hd hr => ⟨hd, hr⟩⟩

def RunsOnce (done : Bool) (entry : Entry) (extra : List Entry) : Prop :=
  done = true ∧ extra = [] ∨ done = false ∧ extra = [entry]

theorem releaseCapacity_spec {tokens tokens' : Nat} {call' : Call}
    (h : releaseCapacity tokens call = some (call', tokens')) :
    ∃ extra, call' = { call with released := true, history := call.history ++ extra } ∧
      RunsOnce call.released .releasedCapacity extra ∧ tokens = tokens' + (!call.released).toNat := by
  unfold releaseCapacity at h
  split_ifs at h with hreleased
  · cases h
    refine ⟨[], ?_, Or.inl ⟨hreleased, rfl⟩, by simp [hreleased]⟩
    rw [List.append_nil, ← hreleased]
  · split at h
    · cases h
    · cases h
      exact ⟨_, rfl, Or.inr ⟨Bool.not_eq_true _ ▸ hreleased, rfl⟩, by simp [hreleased]⟩

theorem releaseWorker_spec {tokens tokens' : Nat} {call' : Call}
    (h : releaseWorker tokens call = some (call', tokens')) :
    ∃ extra, call' = { call with slotReleased := true, history := call.history ++ extra } ∧
      RunsOnce call.slotReleased .releasedSlot extra ∧
        tokens = tokens' + (!call.slotReleased).toNat := by
  unfold releaseWorker at h
  split_ifs at h with hreleased
  · cases h
    refine ⟨[], ?_, Or.inl ⟨hreleased, rfl⟩, by simp [hreleased]⟩
    rw [List.append_nil, ← hreleased]
  · split at h
    · cases h
    · cases h
      exact ⟨_, rfl, Or.inr ⟨Bool.not_eq_true _ ▸ hreleased, rfl⟩, by simp [hreleased]⟩

theorem RunsOnce.count {done : Bool} {entry : Entry} {extra history : List Entry}
    (h : RunsOnce done entry extra) (hcount : history.count entry = done.toNat) :
    (history ++ extra).count entry = 1 := by
  rcases h with ⟨rfl, rfl⟩ | ⟨rfl, rfl⟩
  · rw [List.append_nil, hcount]
    rfl
  · rw [List.count_append, hcount]
    simp

theorem RunsOnce.count_other {done : Bool} {entry other : Entry} {extra : List Entry}
    (h : RunsOnce done entry extra) (history : List Entry) (hne : entry ≠ other) :
    (history ++ extra).count other = history.count other := by
  rcases h with ⟨_, rfl⟩ | ⟨_, rfl⟩
  · rw [List.append_nil]
  · simp [hne]

theorem RunsOnce.filter {done : Bool} {entry : Entry} {extra : List Entry}
    (h : RunsOnce done entry extra) (history : List Entry) (hentry : entry.dispatching = false) :
    (history ++ extra).filter Entry.dispatching = history.filter Entry.dispatching := by
  rcases h with ⟨_, rfl⟩ | ⟨_, rfl⟩
  · rw [List.append_nil]
  · simp [hentry]

theorem capacity_released {tokens : Nat} (hadm : call.admitted = true)
    (htokens : w.capacity = tokens + (!call.released).toNat) :
    tokens + (holdsCapacity call).toNat = w.capacity ∧ tokens ≤ w.capacity := by
  simp [holdsCapacity, hadm, htokens]

theorem slots_released {tokens : Nat} (hacq : call.acquired = true)
    (htokens : w.workerSlots = tokens + (!call.slotReleased).toNat) :
    tokens + (holdsSlot call).toNat = w.workerSlots ∧ tokens ≤ w.workerSlots := by
  simp [holdsSlot, hacq, htokens]

theorem FromInvocation.append {res : CommandResult} (h : FromInvocation call res) {call' : Call}
    {extra : List Entry} (hhistory : call'.history = call.history ++ extra) :
    FromInvocation call' res :=
  h.imp_right fun hmem => hhistory ▸ List.mem_append_left _ hmem

theorem CallOk.queued_pc (h : CallOk call) (henq : call.enqueued = true) : call.pc.unqueued = false := by
  by_contra hpc
  rw [h.unqueued (Bool.not_eq_false _ ▸ hpc)] at henq
  cases henq

theorem admission_released {admitted delivered : Bool} {pc : CallerPC} (hadm : admitted = true)
    (hpc : pc ≠ .enter ∧ pc ≠ .laneFor ∧ pc ≠ .enqueue) : Admission admitted true delivered pc := by
  cases pc with
  | enter | laneFor | enqueue => simp at hpc
  | await | release => exact hadm
  | contextDone | returned => exact fun _ => Or.inl rfl

theorem callOk_released (h : CallOk call) (hadm : call.admitted = true)
    (hpc : call.pc ≠ .enter ∧ call.pc ≠ .laneFor ∧ call.pc ≠ .enqueue) {extra : List Entry}
    (hextra : RunsOnce call.released .releasedCapacity extra) :
    CallOk { call with released := true, history := call.history ++ extra } where
  admission := admission_released hadm hpc
  unqueued := h.unqueued
  enqueued := h.enqueued
  pristine := h.pristine
  acquired := h.acquired
  finished := h.finished
  capacityReleases := hextra.count h.capacityReleases
  slotReleases := (hextra.count_other call.history (by decide)).trans h.slotReleases
  dispatched := by
    rw [hextra.filter call.history rfl]
    exact h.dispatched
  spawned := h.spawned
  inner := h.inner
  replies res hr := List.mem_append_left _ (h.replies res hr)
  result res hr := ⟨(h.result res hr).1, (h.result res hr).2.append rfl⟩

theorem callOk_slotReleased (h : CallOk call) (hacq : call.enqueued = true) {extra : List Entry}
    (hextra : RunsOnce call.slotReleased .releasedSlot extra) :
    CallOk { call with slotReleased := true, history := call.history ++ extra } where
  admission := h.admission
  unqueued := h.unqueued
  enqueued := h.enqueued
  pristine henq := by
    rw [show call.enqueued = false from henq] at hacq
    cases hacq
  acquired := h.acquired
  finished _ := rfl
  capacityReleases := (hextra.count_other call.history (by decide)).trans h.capacityReleases
  slotReleases := hextra.count h.slotReleases
  dispatched := by
    rw [hextra.filter call.history rfl]
    exact h.dispatched
  spawned := h.spawned
  inner := h.inner
  replies res hr := List.mem_append_left _ (h.replies res hr)
  result res hr := ⟨(h.result res hr).1, (h.result res hr).2.append rfl⟩

end Calls

section Caller

variable {o : CommandQueueOptions} {w : World} {c : Nat} {call : Call}

inductive CallerLane (w : World) (c : Nat) (call : Call) (change : Change) : Prop
  | same (h : change.lane = none)
  | created (hpc : call.pc = .laneFor) (hnone : w.lanes.find? (commandRoleID call.req) = none)
      (h : change.lane = some ⟨commandRoleID call.req, [], .idle⟩)
  | queued (lane : Lane) (hpc : call.pc = .enqueue) (hlane : lane ∈ w.lanes.rows)
      (hrole : lane.roleID = commandRoleID call.req) (henq : change.call.enqueued = true)
      (h : change.lane = some { lane with jobs := lane.jobs ++ [⟨c, call.req⟩] })

structure CallerFrame (w : World) (call call' : Call) : Prop where
  handler : call'.handler = call.handler
  dispatched : call'.history.filter Entry.dispatching = call.history.filter Entry.dispatching
  rank : call'.pc.rank < call.pc.rank
  full : w.closed = true → call'.pc.answer = some .queueFull → call.pc.answer = some .queueFull

theorem moved_ok (hok : CallOk call) {pc : CallerPC} (hadm : Admission call.admitted call.released call.delivered pc)
    (hunq : pc.unqueued = true → call.enqueued = false)
    (hres : ∀ res, pc.answer = some (.result res) → call.pc.answer = some (.result res))
    (lane : Option Lane) :
    Balanced o w call ⟨{ call with pc }, lane, w.capacity, w.workerSlots⟩ ∧
      Unnoticed call { call with pc } :=
  ⟨balanced_put call (callOk_pc hok hadm hunq hres) rfl id rfl rfl lane, unnoticed_pc pc⟩

theorem admitted_ok (hok : CallOk call) (hpc : call.pc = .enter) (hroom : w.capacity < o.capacityLimit) :
    Balanced o w call
        ⟨{ call with pc := .laneFor, admitted := true }, none, w.capacity + 1, w.workerSlots⟩ ∧
      Unnoticed call { call with pc := .laneFor, admitted := true } := by
  have hadm := hok.admission
  rw [hpc] at hadm
  have hunq : call.enqueued = false := hok.unqueued (by rw [hpc]; rfl)
  refine ⟨⟨⟨⟨rfl, hadm.2⟩, fun _ => hunq, fun _ => rfl, hok.pristine, hok.acquired, hok.finished,
    hok.capacityReleases, hok.slotReleases, hok.dispatched, hok.spawned, hok.inner, hok.replies,
    fun res hr => hok.result res (hr.imp_right nofun)⟩, rfl, id, ?_, fun _ => hroom, rfl, id⟩,
    (unnoticed_pc .laneFor).place, fun hd hr => ⟨hd, hr⟩⟩
  simp [holdsCapacity, hadm.1, hadm.2]

theorem callOk_received (hok : CallOk call) {res : CommandResult} (hres : call.result = some res) :
    CallOk { call with pc := .returned (.result res), result := none } where
  admission _ := Or.inr (hok.result res (Or.inl hres)).1
  unqueued h := by cases h
  enqueued := hok.enqueued
  pristine := hok.pristine
  acquired := hok.acquired
  finished := hok.finished
  capacityReleases := hok.capacityReleases
  slotReleases := hok.slotReleases
  dispatched := hok.dispatched
  spawned := hok.spawned
  inner := hok.inner
  replies := hok.replies
  result res' hr := by
    have he : res = res' := by simpa [CallerPC.answer] using hr
    exact he ▸ hok.result res (Or.inl hres)

theorem received_ok (hok : CallOk call) {res : CommandResult} (hres : call.result = some res) :
    Balanced o w call (w.put { call with pc := .returned (.result res), result := none }) ∧
      Unnoticed call { call with pc := .returned (.result res), result := none } :=
  ⟨balanced_put call (callOk_received hok hres) rfl id rfl rfl none, (unnoticed_pc .enter).place,
    fun hd hr => ⟨hd, hr⟩⟩

theorem callOk_enqueued (hok : CallOk call) (hpc : call.pc = .enqueue) :
    CallOk { call with pc := .await, enqueued := true } := by
  have hadm := hok.admission
  rw [hpc] at hadm
  exact
    { admission := hadm.1
      unqueued := nofun
      enqueued := fun _ => hadm.1
      pristine := nofun
      acquired := hok.acquired
      finished := hok.finished
      capacityReleases := hok.capacityReleases
      slotReleases := hok.slotReleases
      dispatched := hok.dispatched
      spawned := hok.spawned
      inner := hok.inner
      replies := hok.replies
      result := fun res hr => hok.result res (hr.imp_right nofun) }

theorem enqueued_ok (hok : CallOk call) (hpc : call.pc = .enqueue) (lane : Lane) :
    Balanced o w call (w.putBoth { call with pc := .await, enqueued := true } lane) ∧
      Unnoticed call { call with pc := .await, enqueued := true } :=
  ⟨balanced_put call (callOk_enqueued hok hpc) rfl (fun _ => rfl) rfl rfl _, (unnoticed_pc .await).place,
    fun hd hr => ⟨hd, hr⟩⟩

theorem callOk_exit (hok : CallOk call) {exit : Exit} (hpc : call.pc = .release exit)
    (hreleased : call.released = true) : CallOk { call with pc := exit.pc } := by
  have hunq := hok.unqueued
  rw [hpc] at hunq
  apply callOk_pc hok
  · cases exit <;> exact fun _ => Or.inl hreleased
  · intro h
    apply hunq
    cases exit with
    | contextDone err => cases h
    | returns answer => cases answer <;> first | rfl | cases h
  · intro res h
    rw [hpc]
    cases exit with
    | contextDone err => cases h
    | returns answer => exact h

theorem released_ok (hok : CallOk call) {exit : Exit} (hpc : call.pc = .release exit)
    {call' : Call} {tokens : Nat} (h : releaseCapacity w.capacity call = some (call', tokens)) :
    Balanced o w call ⟨{ call' with pc := exit.pc }, none, tokens, w.workerSlots⟩ ∧
      Unnoticed call { call' with pc := exit.pc } := by
  have hadm := hok.admission
  rw [hpc] at hadm
  replace hadm : call.admitted = true := hadm
  obtain ⟨extra, rfl, hextra, htokens⟩ := releaseCapacity_spec h
  have hreleased : CallOk { call with released := true, history := call.history ++ extra } :=
    callOk_released hok hadm (by simp [hpc]) hextra
  obtain ⟨hcapacity, hle⟩ := capacity_released hadm htokens
  refine ⟨⟨callOk_exit hreleased hpc rfl, rfl, id, ?_, hle.trans, rfl, id⟩, ?_, nofun⟩
  · simpa [holdsCapacity] using hcapacity
  · intro place hplace
    cases place with
    | queued => exact hplace
    | handling stage =>
      cases stage with
      | send res => exact ⟨hplace.1, hplace.2.append rfl⟩
      | check | acquire | spawn | wait | releaseSlot | finish => exact hplace

theorem released_frame {exit : Exit} (hpc : call.pc = .release exit) {call' : Call} {tokens : Nat}
    (h : releaseCapacity w.capacity call = some (call', tokens)) :
    CallerFrame w call { call' with pc := exit.pc } := by
  obtain ⟨extra, rfl, hextra, htokens⟩ := releaseCapacity_spec h
  refine ⟨rfl, hextra.filter call.history rfl, ?_, fun _ hfull => ?_⟩
  · rw [hpc]
    cases exit <;> simp [Exit.pc, CallerPC.rank]
  · rw [hpc]
    cases exit with
    | contextDone err => cases hfull
    | returns answer => exact hfull

def CallerStepOk (o : CommandQueueOptions) (w : World) (c : Nat) (call : Call) (change : Change) : Prop :=
  (Balanced o w call change ∧ Unnoticed call change.call) ∧ CallerLane w c call change ∧
    CallerFrame w call change.call

theorem goesOn_ok (hok : CallOk call) {pc : CallerPC} (hrank : pc.rank < call.pc.rank)
    (hadm : Admission call.admitted call.released call.delivered pc)
    (hunq : pc.unqueued = true → call.enqueued = false) (hres : ∀ res, pc.answer ≠ some (.result res))
    (hfull : w.closed = true → pc.answer ≠ some .queueFull) :
    CallerStepOk o w c call (w.put { call with pc }) :=
  ⟨moved_ok hok hadm hunq (fun res he => absurd he (hres res)) none, .same rfl,
    ⟨rfl, rfl, hrank, fun hclosed he => absurd he (hfull hclosed)⟩⟩

theorem enter_ok (hok : CallOk call) (hpc : call.pc = .enter) {case : Case} {change : Change}
    (h : callerStep o w c call .enter case = some change) : CallerStepOk o w c call change := by
  have hadm := hok.admission
  have hunq := hok.unqueued
  rw [hpc] at hadm hunq
  have hidle : call.admitted = true → call.released = true ∨ call.delivered = true := by
    intro hadmitted
    rw [hadm.1] at hadmitted
    cases hadmitted
  cases case with
  | ctxDone =>
    obtain ⟨_, _, rfl⟩ := Option.map_eq_some_iff.mp h
    exact goesOn_ok hok (by simp [hpc, CallerPC.rank]) hidle (fun he => by cases he)
      (fun _ he => by cases he) (fun _ he => by cases he)
  | closed =>
    simp only [callerStep] at h
    split_ifs at h
    cases h
    exact goesOn_ok hok (by simp [hpc, CallerPC.rank]) hidle (fun he => by cases he)
      (fun _ he => by cases he) (fun _ he => by cases he)
  | ready =>
    simp only [callerStep] at h
    split_ifs at h with hroom
    cases h
    exact ⟨admitted_ok hok hpc hroom, .same rfl, rfl, rfl,
      by simp [hpc, CallerPC.rank], fun _ he => by cases he⟩
  | default =>
    simp only [callerStep] at h
    split_ifs at h with hfull
    cases h
    exact goesOn_ok hok (by simp [hpc, CallerPC.rank]) hidle (fun _ => hunq rfl)
      (fun _ he => by cases he) (by simp [hfull.2.1])

theorem laneFor_ok (hok : CallOk call) (hpc : call.pc = .laneFor) {case : Case} {change : Change}
    (h : callerStep o w c call .laneFor case = some change) : CallerStepOk o w c call change := by
  have hadm := hok.admission
  have hunq := hok.unqueued
  rw [hpc] at hadm hunq
  cases case with
  | ready =>
    simp only [callerStep] at h
    split at h
    · cases h
      exact goesOn_ok hok (by simp [hpc, CallerPC.rank]) hadm (fun _ => hunq rfl)
        (fun _ he => by cases he) (fun _ he => by cases he)
    · rename_i hnone
      cases h
      have henqueue : Admission call.admitted call.released call.delivered .enqueue := hadm
      exact ⟨moved_ok hok henqueue (fun _ => hunq rfl) (fun _ he => by cases he) _,
        .created hpc hnone rfl, rfl, rfl,
        by simp [hpc, World.putBoth, CallerPC.rank], fun _ he => by cases he⟩
  | ctxDone | closed | default => cases h

theorem enqueue_ok (hok : CallOk call) (hpc : call.pc = .enqueue) {case : Case} {change : Change}
    (h : callerStep o w c call .enqueue case = some change) : CallerStepOk o w c call change := by
  have hadm := hok.admission
  have hunq := hok.unqueued
  rw [hpc] at hadm hunq
  cases case with
  | ctxDone =>
    obtain ⟨_, _, rfl⟩ := Option.map_eq_some_iff.mp h
    exact goesOn_ok hok (by simp [hpc, CallerPC.rank]) hadm.1 (fun he => by cases he)
      (fun _ he => by cases he) (fun _ he => by cases he)
  | closed =>
    simp only [callerStep] at h
    split_ifs at h
    cases h
    exact goesOn_ok hok (by simp [hpc, CallerPC.rank]) hadm.1 (fun he => by cases he)
      (fun _ he => by cases he) (fun _ he => by cases he)
  | ready =>
    simp only [callerStep, Option.bind_eq_bind, Option.bind_eq_some_iff] at h
    obtain ⟨lane, hfind, h⟩ := h
    split_ifs at h
    cases h
    obtain ⟨hlane, hrole⟩ := Table.find?_eq_some.mp hfind
    exact ⟨enqueued_ok hok hpc _, .queued lane hpc hlane hrole rfl rfl, rfl, rfl,
      by simp [hpc, World.putBoth, CallerPC.rank], fun _ he => by cases he⟩
  | default =>
    simp only [callerStep, Option.bind_eq_bind, Option.bind_eq_some_iff] at h
    obtain ⟨lane, _, h⟩ := h
    split_ifs at h with hfull
    cases h
    exact goesOn_ok hok (by simp [hpc, CallerPC.rank]) hadm.1 (fun _ => hunq rfl)
      (fun _ he => by cases he) (by simp [hfull.2.1])

theorem await_ok (hok : CallOk call) (hpc : call.pc = .await) {case : Case} {change : Change}
    (h : callerStep o w c call .await case = some change) : CallerStepOk o w c call change := by
  have hadm := hok.admission
  rw [hpc] at hadm
  cases case with
  | ctxDone =>
    obtain ⟨_, _, rfl⟩ := Option.map_eq_some_iff.mp h
    exact goesOn_ok hok (by simp [hpc, CallerPC.rank]) hadm (fun he => by cases he)
      (fun _ he => by cases he) (fun _ he => by cases he)
  | closed =>
    simp only [callerStep] at h
    split_ifs at h
    cases h
    exact goesOn_ok hok (by simp [hpc, CallerPC.rank]) hadm (fun he => by cases he)
      (fun _ he => by cases he) (fun _ he => by cases he)
  | ready =>
    obtain ⟨res, hres, rfl⟩ := Option.map_eq_some_iff.mp h
    exact ⟨received_ok hok hres, .same rfl, rfl, rfl,
      by simp [hpc, World.put, CallerPC.rank], fun _ he => by cases he⟩
  | default => cases h

theorem callerStep_ok (hok : CallOk call) {case : Case} {change : Change}
    (h : callerStep o w c call call.pc case = some change) : CallerStepOk o w c call change := by
  have hadm := hok.admission
  cases hpc : call.pc with
  | enter => exact enter_ok hok hpc (hpc ▸ h)
  | laneFor => exact laneFor_ok hok hpc (hpc ▸ h)
  | enqueue => exact enqueue_ok hok hpc (hpc ▸ h)
  | await => exact await_ok hok hpc (hpc ▸ h)
  | release exit =>
    rw [hpc] at h
    cases case with
    | ready =>
      obtain ⟨⟨call', tokens⟩, hrelease, rfl⟩ := Option.map_eq_some_iff.mp h
      exact ⟨released_ok hok hpc hrelease, .same rfl, released_frame hpc hrelease⟩
    | ctxDone | closed | default => cases h
  | contextDone err =>
    rw [hpc] at h hadm
    cases case with
    | ready =>
      cases h
      exact goesOn_ok hok (by simp [hpc, CallerPC.rank]) hadm (fun he => by cases he)
        (fun _ he => by cases he) (fun _ he => by cases he)
    | ctxDone | closed | default => cases h
  | returned answer =>
    rw [hpc] at h
    cases case <;> cases h

end Caller

section Goroutines

variable {o : CommandQueueOptions} {w : World} {call : Call}

theorem callOk_context (hok : CallOk call) (parent ctx : Option CtxErr) :
    CallOk { call with parent, ctx } where
  admission := hok.admission
  unqueued := hok.unqueued
  enqueued := hok.enqueued
  pristine := hok.pristine
  acquired := hok.acquired
  finished := hok.finished
  capacityReleases := hok.capacityReleases
  slotReleases := hok.slotReleases
  dispatched := hok.dispatched
  spawned := hok.spawned
  inner := hok.inner
  replies := hok.replies
  result := hok.result

theorem contextStep_spec {event : ContextEvent} {call' : Call}
    (h : contextStep o call event = some call') : ∃ parent ctx, call' = { call with parent, ctx } := by
  cases event with
  | parentDone err =>
    simp only [contextStep] at h
    split_ifs at h
    cases h
    exact ⟨some err, call.ctx, rfl⟩
  | deadline =>
    simp only [contextStep] at h
    split_ifs at h
    cases h
    exact ⟨call.parent, _, rfl⟩
  | propagate =>
    simp only [contextStep] at h
    split_ifs at h
    cases h
    exact ⟨call.parent, _, rfl⟩
  | cancel =>
    simp only [contextStep] at h
    split at h
    · split_ifs at h
      cases h
      exact ⟨call.parent, _, rfl⟩
    · cases h

theorem contextStep_ok (hok : CallOk call) {event : ContextEvent} {call' : Call}
    (h : contextStep o call event = some call') :
    Balanced o w call (w.put call') ∧ Unnoticed call call' := by
  obtain ⟨parent, ctx, rfl⟩ := contextStep_spec h
  exact ⟨balanced_put call (callOk_context hok parent ctx) rfl id rfl rfl none,
    (unnoticed_pc .enter).place, fun hd hr => ⟨hd, hr⟩⟩

theorem callOk_invoked (hok : CallOk call) {req : CommandRequest} (hh : call.handler = .spawned req) :
    CallOk { call with handler := .invoking req, history := call.history ++ [.invoked req] } where
  admission := hok.admission
  unqueued := hok.unqueued
  enqueued := hok.enqueued
  pristine henq := by
    rw [(hok.pristine henq).1] at hh
    cases hh
  acquired _ := hok.acquired (by rw [hh]; nofun)
  finished h := by cases h
  capacityReleases := by
    rw [List.count_append, hok.capacityReleases]
    rfl
  slotReleases := by
    rw [List.count_append, hok.slotReleases]
    rfl
  dispatched := by
    have hnone := hok.dispatched
    rw [hh] at hnone
    rw [List.filter_append, show call.history.filter _ = [] from hnone, hok.spawned req hh]
    rfl
  spawned req h := by cases h
  inner hinner := by
    rcases hok.inner hinner with h | h <;> (rw [hh] at h; cases h)
  replies res h := by
    refine List.mem_append_left _ (hok.replies res (Or.inr ?_))
    exact h.resolve_left nofun
  result res hr := ⟨(hok.result res hr).1, (hok.result res hr).2.append rfl⟩

theorem callOk_completed (hok : CallOk call) {req : CommandRequest} (hh : call.handler = .invoking req)
    (res : CommandResult) :
    CallOk { call with handler := .replying res, history := call.history ++ [.completed res] } where
  admission := hok.admission
  unqueued := hok.unqueued
  enqueued := hok.enqueued
  pristine henq := by
    rw [(hok.pristine henq).1] at hh
    cases hh
  acquired _ := hok.acquired (by rw [hh]; nofun)
  finished h := by cases h
  capacityReleases := by
    rw [List.count_append, hok.capacityReleases]
    rfl
  slotReleases := by
    rw [List.count_append, hok.slotReleases]
    rfl
  dispatched := by
    have hinvoked := hok.dispatched
    rw [hh] at hinvoked
    rw [List.filter_append, show call.history.filter _ = [.invoked call.req] from hinvoked]
    rfl
  spawned req h := by cases h
  inner hinner := by
    rcases hok.inner hinner with h | h <;> (rw [hh] at h; cases h)
  replies res' h := by
    rcases h with h | h
    · cases h
      exact List.mem_append_right _ (List.mem_singleton.mpr rfl)
    · exact List.mem_append_left _ (hok.replies res' (Or.inr h))
  result res' hr := ⟨(hok.result res' hr).1, (hok.result res' hr).2.append rfl⟩

theorem callOk_replied (hok : CallOk call) {res : CommandResult} (hh : call.handler = .replying res) :
    CallOk { call with handler := .deferred, inner := some res } where
  admission := hok.admission
  unqueued := hok.unqueued
  enqueued := hok.enqueued
  pristine henq := by
    rw [(hok.pristine henq).1] at hh
    cases hh
  acquired _ := hok.acquired (by rw [hh]; nofun)
  finished h := by cases h
  capacityReleases := hok.capacityReleases
  slotReleases := hok.slotReleases
  dispatched := by
    have hreplying := hok.dispatched
    rw [hh] at hreplying
    exact ⟨res, hreplying⟩
  spawned req h := by cases h
  inner _ := Or.inl rfl
  replies res' h := by
    have he : res = res' := by simpa using h
    exact he ▸ hok.replies res (Or.inl hh)
  result := hok.result

theorem callOk_handlerDone (hok : CallOk call) (hh : call.handler = .deferred)
    (hreleased : call.slotReleased = true) : CallOk { call with handler := .finished } where
  admission := hok.admission
  unqueued := hok.unqueued
  enqueued := hok.enqueued
  pristine henq := by
    rw [(hok.pristine henq).1] at hh
    cases hh
  acquired _ := hok.acquired (by rw [hh]; nofun)
  finished _ := hreleased
  capacityReleases := hok.capacityReleases
  slotReleases := hok.slotReleases
  dispatched := by
    have hdeferred := hok.dispatched
    rw [hh] at hdeferred
    exact hdeferred
  spawned req h := by cases h
  inner _ := Or.inr rfl
  replies res h := hok.replies res (Or.inr (h.resolve_left nofun))
  result := hok.result

theorem unnoticed_handler {call' : Call} {extra : List Entry} (hh : call.handler ≠ .none)
    (hh' : call'.handler ≠ .none) (hhistory : call'.history = call.history ++ extra)
    (hdelivered : call'.delivered = call.delivered) (hreleased : call'.released = call.released) :
    Unnoticed call call' := by
  -- the handler goroutine changes nothing a lane waits for before it has sent its result
  refine ⟨fun place hplace => ?_, fun hd hr => ⟨hdelivered ▸ hd, hreleased ▸ hr⟩⟩
  cases place with
  | queued => exact absurd hplace.1 hh
  | handling stage =>
    cases stage with
    | check | acquire | spawn => exact absurd hplace.1 hh
    | wait | releaseSlot => exact ⟨hh', hdelivered.trans hplace.2⟩
    | send res => exact ⟨hdelivered.trans hplace.1, hplace.2.append hhistory⟩
    | finish => trivial

theorem handlerStep_ok (hok : CallOk call) {res : CommandResult} {change : Change}
    (h : handlerStep w call res call.handler = some change) :
    (Balanced o w call change ∧ Unnoticed call change.call) ∧ change.lane = none := by
  cases hh : call.handler with
  | none => rw [hh] at h; cases h
  | spawned req =>
    rw [hh] at h
    cases h
    refine ⟨⟨balanced_put call (callOk_invoked hok hh) rfl id rfl rfl none, ?_⟩, rfl⟩
    exact unnoticed_handler (by rw [hh]; nofun) nofun rfl rfl rfl
  | invoking req =>
    rw [hh] at h
    cases h
    refine ⟨⟨balanced_put call (callOk_completed hok hh res) rfl id rfl rfl none, ?_⟩, rfl⟩
    exact unnoticed_handler (by rw [hh]; nofun) nofun rfl rfl rfl
  | replying res =>
    rw [hh] at h
    simp only [handlerStep] at h
    split_ifs at h
    cases h
    refine ⟨⟨balanced_put call (callOk_replied hok hh) rfl id rfl rfl none, ?_⟩, rfl⟩
    exact unnoticed_handler (by rw [hh]; nofun) nofun (List.append_nil _).symm rfl rfl
  | deferred =>
    rw [hh] at h
    obtain ⟨⟨call', tokens⟩, hrelease, rfl⟩ := Option.map_eq_some_iff.mp h
    obtain ⟨extra, rfl, hextra, htokens⟩ := releaseWorker_spec hrelease
    have hacq := hok.acquired (by rw [hh]; nofun)
    have henq : call.enqueued = true := by
      by_contra hnot
      have hp := hok.pristine (Bool.not_eq_true _ ▸ hnot)
      rw [hp.1] at hh
      cases hh
    obtain ⟨hslots, hle⟩ := slots_released hacq htokens
    have hcall := callOk_slotReleased hok henq hextra
    refine ⟨⟨⟨callOk_handlerDone hcall hh rfl, rfl, id, rfl, id, ?_, hle.trans⟩, ?_⟩, rfl⟩
    · simpa [holdsSlot] using hslots
    · exact unnoticed_handler (by rw [hh]; nofun) nofun rfl rfl rfl
  | finished => rw [hh] at h; cases h

structure HandlerFrame (call call' : Call) : Prop where
  pc : call'.pc = call.pc
  running : call'.handler.running = true → call.handler.running = true
  begun : call'.handler.unbegun = false
  invoked : call.handler.unbegun = false →
    call'.history.countP Entry.invokes = call.history.countP Entry.invokes

theorem handlerStep_frame {res : CommandResult} {change : Change}
    (h : handlerStep w call res call.handler = some change) : HandlerFrame call change.call := by
  cases hh : call.handler with
  | none => rw [hh] at h; cases h
  | spawned req =>
    rw [hh] at h
    cases h
    refine ⟨rfl, fun _ => by rw [hh]; rfl, rfl, fun hbegun => ?_⟩
    rw [hh] at hbegun
    cases hbegun
  | invoking req =>
    rw [hh] at h
    cases h
    exact ⟨rfl, nofun, rfl, fun _ => by simp [World.put, Entry.invokes]⟩
  | replying res =>
    rw [hh] at h
    simp only [handlerStep] at h
    split_ifs at h
    cases h
    exact ⟨rfl, nofun, rfl, fun _ => rfl⟩
  | deferred =>
    rw [hh] at h
    obtain ⟨⟨call', tokens⟩, hrelease, rfl⟩ := Option.map_eq_some_iff.mp h
    obtain ⟨extra, rfl, hextra, htokens⟩ := releaseWorker_spec hrelease
    refine ⟨rfl, nofun, rfl, fun _ => ?_⟩
    rcases hextra with ⟨_, rfl⟩ | ⟨_, rfl⟩ <;> simp [Entry.invokes]
  | finished => rw [hh] at h; cases h

end Goroutines

section Handle

variable {o : CommandQueueOptions} {w : World} {lane : Lane} {job : Job} {call : Call}

inductive HandleLane (lane : Lane) (job : Job) (change : Change) : Prop
  | goes (stage : Stage) (h : change.lane = some { lane with pc := .handle job stage })
      (hplace : PlaceOk change.call (.handling stage))
      (hfinish : change.call.delivered = true → change.call.released = false → stage = .finish)
  | ends (h : change.lane = some { lane with pc := .idle }) (hreleased : change.call.released = true)

structure HandleFrame (lane : Lane) (job : Job) (call : Call) (stage : Stage) (case : Case)
    (change : Change) : Prop where
  pc : change.call.pc = call.pc
  handler : stage = .spawn ∧ change.lane = some { lane with pc := .handle job .wait } ∨
    change.call.handler = call.handler ∧ (stage = .wait → case = .ctxDone ∨ call.inner ≠ none)

theorem HandleLane.undelivered {change : Change} {stage : Stage}
    (h : change.lane = some { lane with pc := .handle job stage })
    (hplace : PlaceOk change.call (.handling stage)) (hd : change.call.delivered = false) :
    HandleLane lane job change :=
  .goes stage h hplace fun hdel => by
    rw [hd] at hdel
    cases hdel

theorem callOk_acquired (hok : CallOk call) (henq : call.enqueued = true) :
    CallOk { call with acquired := true } where
  admission := hok.admission
  unqueued := hok.unqueued
  enqueued := hok.enqueued
  pristine h := by
    rw [show call.enqueued = false from h] at henq
    cases henq
  acquired _ := rfl
  finished := hok.finished
  capacityReleases := hok.capacityReleases
  slotReleases := hok.slotReleases
  dispatched := hok.dispatched
  spawned := hok.spawned
  inner := hok.inner
  replies := hok.replies
  result := hok.result

theorem callOk_spawned (hok : CallOk call) (henq : call.enqueued = true)
    (hplace : PlaceOk call (.handling .spawn)) {req : CommandRequest} (hreq : req = call.req) :
    CallOk { call with handler := .spawned req } := by
  obtain ⟨hh, hinner, hacq, _, _⟩ := hplace
  exact
    { admission := hok.admission
      unqueued := hok.unqueued
      enqueued := hok.enqueued
      pristine := fun h => by
        rw [show call.enqueued = false from h] at henq
        cases henq
      acquired := fun _ => hacq
      finished := nofun
      capacityReleases := hok.capacityReleases
      slotReleases := hok.slotReleases
      dispatched := by
        have hnone := hok.dispatched
        rw [hh] at hnone
        exact hnone
      spawned := fun r hr => by
        cases hr
        exact hreq
      inner := fun hne => absurd hinner hne
      replies := fun res h => hok.replies res (Or.inr (h.resolve_left nofun))
      result := hok.result }

theorem callOk_taken (hok : CallOk call) : CallOk { call with inner := none } where
  admission := hok.admission
  unqueued := hok.unqueued
  enqueued := hok.enqueued
  pristine h := by
    obtain ⟨hh, _, hrest⟩ := hok.pristine h
    exact ⟨hh, rfl, hrest⟩
  acquired := hok.acquired
  finished := hok.finished
  capacityReleases := hok.capacityReleases
  slotReleases := hok.slotReleases
  dispatched := hok.dispatched
  spawned := hok.spawned
  inner h := absurd rfl h
  replies res h := hok.replies res (Or.inl (h.resolve_right nofun))
  result := hok.result

theorem admission_delivered {admitted released delivered : Bool} {pc : CallerPC}
    (h : Admission admitted released delivered pc) : Admission admitted released true pc := by
  cases pc with
  | enter | laneFor | enqueue | await | release => exact h
  | contextDone | returned => exact fun _ => Or.inr rfl

theorem callOk_sent (hok : CallOk call) (henq : call.enqueued = true) {res : CommandResult}
    (hres : FromInvocation call res) :
    CallOk { call with result := some res, delivered := true } where
  admission := admission_delivered hok.admission
  unqueued := hok.unqueued
  enqueued := hok.enqueued
  pristine h := by
    rw [show call.enqueued = false from h] at henq
    cases henq
  acquired := hok.acquired
  finished := hok.finished
  capacityReleases := hok.capacityReleases
  slotReleases := hok.slotReleases
  dispatched := hok.dispatched
  spawned := hok.spawned
  inner := hok.inner
  replies := hok.replies
  result res' h := by
    refine ⟨rfl, ?_⟩
    rcases h with h | h
    · cases h
      exact hres
    · exact (hok.result res' (Or.inr h)).2

def HandleStepOk (o : CommandQueueOptions) (w : World) (lane : Lane) (job : Job) (call : Call) (stage : Stage)
    (case : Case) (change : Change) : Prop :=
  (Balanced o w call change ∧ HandleLane lane job change) ∧ HandleFrame lane job call stage case change

theorem handleOn_ok (hok : CallOk call) {stage stage' : Stage} {case : Case}
    (hplace : PlaceOk call (.handling stage')) (hd : call.delivered = false)
    (hwait : stage = .wait → case = .ctxDone ∨ call.inner ≠ none) :
    HandleStepOk o w lane job call stage case (w.putBoth call { lane with pc := .handle job stage' }) :=
  ⟨⟨balanced_put call hok rfl id rfl rfl _, .undelivered rfl hplace hd⟩, rfl, Or.inr ⟨rfl, hwait⟩⟩

theorem handleAcquire_ok (hok : CallOk call) (henq : call.enqueued = true)
    (hplace : PlaceOk call (.handling .acquire)) {case : Case} {change : Change}
    (h : handleStep o w lane job call .acquire case = some change) :
    HandleStepOk o w lane job call .acquire case change := by
  obtain ⟨hh, hinner, hacq, hslot, hd⟩ := hplace
  cases case with
  | ctxDone =>
    obtain ⟨err, _, rfl⟩ := Option.map_eq_some_iff.mp h
    exact handleOn_ok hok ⟨hd, Or.inl ⟨_, rfl, rfl⟩⟩ hd nofun
  | closed =>
    simp only [handleStep] at h
    split_ifs at h
    cases h
    exact handleOn_ok hok ⟨hd, Or.inl ⟨_, rfl, rfl⟩⟩ hd nofun
  | ready =>
    simp only [handleStep] at h
    split_ifs at h with hroom
    cases h
    refine ⟨⟨⟨callOk_acquired hok henq, rfl, id, rfl, id, ?_, fun _ => hroom⟩,
      .undelivered rfl ⟨hh, hinner, rfl, hslot, hd⟩ hd⟩, rfl, Or.inr ⟨rfl, nofun⟩⟩
    simp [holdsSlot, hacq, hslot]
  | default => cases h

theorem handleWait_ok (hok : CallOk call) (hplace : PlaceOk call (.handling .wait)) {case : Case} {change : Change}
    (h : handleStep o w lane job call .wait case = some change) :
    HandleStepOk o w lane job call .wait case change := by
  have hd : call.delivered = false := hplace.2
  cases case with
  | ctxDone =>
    obtain ⟨_, _, rfl⟩ := Option.map_eq_some_iff.mp h
    exact handleOn_ok hok hplace hd fun _ => Or.inl rfl
  | ready =>
    obtain ⟨res, hinner, rfl⟩ := Option.map_eq_some_iff.mp h
    refine ⟨⟨balanced_put call (callOk_taken hok) rfl id rfl rfl _,
      .undelivered rfl ⟨hd, Or.inr (hok.replies res (Or.inr hinner))⟩ hd⟩, rfl,
      Or.inr ⟨rfl, fun _ => Or.inr ?_⟩⟩
    rw [hinner]
    exact nofun
  | closed | default => cases h

theorem handleReleaseSlot_ok (hok : CallOk call) (henq : call.enqueued = true) {err : CtxErr}
    (hplace : PlaceOk call (.handling (.releaseSlot err))) {call' : Call} {tokens : Nat}
    (h : releaseWorker w.workerSlots call = some (call', tokens)) :
    HandleStepOk o w lane job call (.releaseSlot err) .ready
      ⟨call', some { lane with pc := .handle job (.send (.error (.ctx err))) }, w.capacity, tokens⟩ := by
  obtain ⟨extra, rfl, hextra, htokens⟩ := releaseWorker_spec h
  obtain ⟨hslots, hle⟩ := slots_released (hok.acquired hplace.1) htokens
  have hd : call.delivered = false := hplace.2
  have hcall := callOk_slotReleased hok henq hextra
  refine ⟨⟨⟨hcall, rfl, id, rfl, id, ?_, hle.trans⟩,
    .undelivered rfl ⟨hd, Or.inl ⟨_, rfl, rfl⟩⟩ hd⟩, rfl, Or.inr ⟨rfl, nofun⟩⟩
  simpa [holdsSlot] using hslots

theorem handleFinish_ok (hok : CallOk call) (henq : call.enqueued = true) {call' : Call} {tokens : Nat}
    (h : releaseCapacity w.capacity call = some (call', tokens)) :
    HandleStepOk o w lane job call .finish .ready
      ⟨call', some { lane with pc := .idle }, tokens, w.workerSlots⟩ := by
  obtain ⟨extra, rfl, hextra, htokens⟩ := releaseCapacity_spec h
  have hadm := hok.enqueued henq
  have hpc := hok.queued_pc henq
  have hcall := callOk_released hok hadm
    (by refine ⟨?_, ?_, ?_⟩ <;> (intro he; rw [he] at hpc; cases hpc)) hextra
  obtain ⟨hcapacity, hle⟩ := capacity_released hadm htokens
  refine ⟨⟨⟨hcall, rfl, id, ?_, hle.trans, rfl, id⟩, .ends rfl rfl⟩, rfl, Or.inr ⟨rfl, nofun⟩⟩
  simpa [holdsCapacity] using hcapacity

theorem handleStep_ok (hok : CallOk call) (henq : call.enqueued = true) (hreq : call.req = job.req)
    {stage : Stage} (hplace : PlaceOk call (.handling stage)) {case : Case} {change : Change}
    (h : handleStep o w lane job call stage case = some change) :
    HandleStepOk o w lane job call stage case change := by
  cases stage with
  | check =>
    have hd : call.delivered = false := hplace.2.2.2.2
    cases case with
    | ctxDone =>
      obtain ⟨err, _, rfl⟩ := Option.map_eq_some_iff.mp h
      exact handleOn_ok hok ⟨hd, Or.inl ⟨_, rfl, rfl⟩⟩ hd nofun
    | default =>
      simp only [handleStep] at h
      split_ifs at h
      cases h
      exact handleOn_ok hok hplace hd nofun
    | closed | ready => cases h
  | acquire => exact handleAcquire_ok hok henq hplace h
  | spawn =>
    cases case with
    | ready =>
      cases h
      have hd : call.delivered = false := hplace.2.2.2.2
      exact ⟨⟨balanced_put call (callOk_spawned hok henq hplace hreq.symm) rfl id rfl rfl _,
        .undelivered rfl ⟨nofun, hd⟩ hd⟩, rfl, Or.inl ⟨rfl, rfl⟩⟩
    | ctxDone | closed | default => cases h
  | wait => exact handleWait_ok hok hplace h
  | releaseSlot err =>
    cases case with
    | ready =>
      obtain ⟨⟨call', tokens⟩, hrelease, rfl⟩ := Option.map_eq_some_iff.mp h
      exact handleReleaseSlot_ok hok henq hplace hrelease
    | ctxDone | closed | default => cases h
  | send res =>
    cases case with
    | ready =>
      simp only [handleStep] at h
      split_ifs at h
      cases h
      exact ⟨⟨balanced_put call (callOk_sent hok henq hplace.2) rfl id rfl rfl _,
        .goes .finish rfl trivial fun _ _ => rfl⟩, rfl, Or.inr ⟨rfl, nofun⟩⟩
    | ctxDone | closed | default => cases h
  | finish =>
    cases case with
    | ready =>
      obtain ⟨⟨call', tokens⟩, hrelease, rfl⟩ := Option.map_eq_some_iff.mp h
      exact handleFinish_ok hok henq hrelease
    | ctxDone | closed | default => cases h

end Handle

end GlobalMailSystem.CommandQueue
