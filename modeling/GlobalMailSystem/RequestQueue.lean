import GlobalMailSystem.CommandMessages
import GlobalMailSystem.Table
import GlobalMailSystem.Transition

/-!
`CommandRequestQueue`: any number of `Dispatch` calls, the lane goroutines, the handler goroutines and
`Close`. A step is one `select`, one send or receive, one critical section, or the start or the return
of a call of the wrapped dispatcher.
-/

namespace GlobalMailSystem.CommandQueue

open Rpc.Wire

structure CommandQueueOptions where
  workers : Int
  capacity : Int
  roleQueueCapacity : Int
  requestTimeout : Int

def positiveOr (n : Int) (fallback : Nat) : Nat := if n ≤ 0 then fallback else n.toNat

namespace CommandQueueOptions

variable (o : CommandQueueOptions)

def workerLimit : Nat := positiveOr o.workers 4

def capacityLimit : Nat := positiveOr o.capacity 1024

def roleQueueLimit : Nat := positiveOr o.roleQueueCapacity 32

def timed : Bool := 0 < o.requestTimeout

end CommandQueueOptions

inductive CtxErr
  | canceled
  | deadlineExceeded
  deriving DecidableEq

inductive Err
  | commandQueueClosed
  | ctx (err : CtxErr)
  | dispatcher (text : String) (wrapsDeadline : Bool)
  deriving DecidableEq

def Err.isDeadline : Err → Bool
  | .commandQueueClosed => false
  | .ctx err => err = .deadlineExceeded
  | .dispatcher _ wrapsDeadline => wrapsDeadline

structure CommandResult where
  resp : Option CommandResponse
  err : Option Err
  deriving DecidableEq

def CommandResult.error (err : Err) : CommandResult := ⟨none, some err⟩

inductive Answer
  | queueFull
  | contextDone (parent : Option CtxErr) (dispatch : CtxErr)
  | closed
  | result (res : CommandResult)
  deriving DecidableEq

def contextDoneResponse (parent : Option CtxErr) (dispatch : CtxErr) (req : CommandRequest) :
    CommandResult :=
  if dispatch = .deadlineExceeded ∧ parent = none then ⟨some (commandTimeoutResponse req), none⟩
  else .error (.ctx dispatch)

def Answer.value (req : CommandRequest) : Answer → CommandResult
  | .queueFull => ⟨some (commandQueueFullResponse req), none⟩
  | .contextDone parent dispatch => contextDoneResponse parent dispatch req
  | .closed => .error .commandQueueClosed
  | .result res => if res.err.any Err.isDeadline then ⟨some (commandTimeoutResponse req), none⟩ else res

inductive Exit
  | contextDone (err : CtxErr)
  | returns (answer : Answer)
  deriving DecidableEq

inductive CallerPC
  | enter
  | laneFor
  | enqueue
  | await
  | release (exit : Exit)
  | contextDone (err : CtxErr)
  | returned (answer : Answer)
  deriving DecidableEq

def Exit.pc : Exit → CallerPC
  | .contextDone err => .contextDone err
  | .returns answer => .returned answer

inductive Handler
  | none
  | spawned (req : CommandRequest)
  | invoking (req : CommandRequest)
  | replying (res : CommandResult)
  | deferred
  | finished
  deriving DecidableEq

inductive Entry
  | invoked (req : CommandRequest)
  | completed (res : CommandResult)
  | releasedCapacity
  | releasedSlot
  deriving DecidableEq

/-- A `Dispatch` call with its context, its job's channels and `sync.Once`s and its handler goroutine.
`history`, `enqueued` and `delivered` record what has happened to it; no step reads them. -/
structure Call where
  req : CommandRequest
  parent : Option CtxErr
  ctx : Option CtxErr
  pc : CallerPC
  result : Option CommandResult
  inner : Option CommandResult
  handler : Handler
  admitted : Bool
  released : Bool
  acquired : Bool
  slotReleased : Bool
  enqueued : Bool
  delivered : Bool
  history : List Entry

def Call.ctxErr (o : CommandQueueOptions) (call : Call) : Option CtxErr :=
  if o.timed then call.ctx else call.parent

structure Job where
  call : Nat
  req : CommandRequest
  deriving DecidableEq

inductive Stage
  | check
  | acquire
  | spawn
  | wait
  | releaseSlot (err : CtxErr)
  | send (res : CommandResult)
  | finish
  deriving DecidableEq

inductive LanePC
  | idle
  | handle (job : Job) (stage : Stage)
  | stopped
  deriving DecidableEq

structure Lane where
  roleID : Int
  jobs : List Job
  pc : LanePC

structure World where
  calls : List Call
  lanes : Table Lane.roleID
  capacity : Nat
  workerSlots : Nat
  closed : Bool
  closeReturned : Bool

def init : World := ⟨[], .empty, 0, 0, false, false⟩

/-- Which ready case a `select` takes; a stage without a `select` goes on by `ready`. -/
inductive Case
  | ctxDone
  | closed
  | ready
  | default

inductive ContextEvent
  | parentDone (err : CtxErr)
  | deadline
  | propagate
  | cancel

inductive Label
  | dispatch (req : CommandRequest)
  | context (call : Nat) (event : ContextEvent)
  | caller (call : Nat) (case : Case)
  | lane (roleID : Int) (case : Case)
  | handler (call : Nat) (res : CommandResult)
  | close
  | closeReturn

structure Change where
  call : Call
  lane : Option Lane
  capacity : Nat
  workerSlots : Nat

def World.put (w : World) (call : Call) : Change := ⟨call, none, w.capacity, w.workerSlots⟩

def World.putBoth (w : World) (call : Call) (lane : Lane) : Change :=
  ⟨call, some lane, w.capacity, w.workerSlots⟩

def World.setLane (w : World) (lane : Lane) : World := { w with lanes := w.lanes.upsert lane }

def World.commit (w : World) (c : Nat) (change : Change) : World :=
  { w with
    calls := w.calls.set c change.call
    lanes := match change.lane with
      | none => w.lanes
      | some lane => w.lanes.upsert lane
    capacity := change.capacity
    workerSlots := change.workerSlots }

def Call.start (req : CommandRequest) : Call :=
  ⟨req, none, none, .enter, none, none, .none, false, false, false, false, false, false, []⟩

/-- `releaseOnce.Do(release)`; the receive blocks on an empty channel. -/
def releaseCapacity (tokens : Nat) (call : Call) : Option (Call × Nat) :=
  if call.released then some (call, tokens)
  else
    match tokens with
    | 0 => none
    | n + 1 =>
      some ({ call with released := true, history := call.history ++ [.releasedCapacity] }, n)

def releaseWorker (tokens : Nat) (call : Call) : Option (Call × Nat) :=
  if call.slotReleased then some (call, tokens)
  else
    match tokens with
    | 0 => none
    | n + 1 =>
      some ({ call with slotReleased := true, history := call.history ++ [.releasedSlot] }, n)

section Steps

variable (o : CommandQueueOptions)

def contextStep (call : Call) : ContextEvent → Option Call
  | .parentDone err => if call.parent = none then some { call with parent := some err } else none
  | .deadline =>
    if o.timed ∧ call.ctx = none then some { call with ctx := some .deadlineExceeded } else none
  | .propagate =>
    if o.timed ∧ call.ctx = none ∧ call.parent ≠ none then some { call with ctx := call.parent }
    else none
  | .cancel =>
    match call.pc with
    | .returned _ =>
      if o.timed ∧ call.ctx = none then some { call with ctx := some .canceled } else none
    | _ => none

def callerStep (w : World) (c : Nat) (call : Call) : CallerPC → Case → Option Change
  | .enter, .ctxDone => (call.ctxErr o).map fun err => w.put { call with pc := .contextDone err }
  | .enter, .closed => if w.closed then some (w.put { call with pc := .returned .closed }) else none
  | .enter, .ready =>
    if w.capacity < o.capacityLimit then
      some ⟨{ call with pc := .laneFor, admitted := true }, none, w.capacity + 1, w.workerSlots⟩
    else none
  | .enter, .default =>
    if call.ctxErr o = none ∧ w.closed = false ∧ o.capacityLimit ≤ w.capacity then
      some (w.put { call with pc := .returned .queueFull })
    else none
  | .laneFor, .ready =>
    match w.lanes.find? (commandRoleID call.req) with
    | some _ => some (w.put { call with pc := .enqueue })
    | none => some (w.putBoth { call with pc := .enqueue } ⟨commandRoleID call.req, [], .idle⟩)
  | .enqueue, .ctxDone => (call.ctxErr o).map fun err =>
      w.put { call with pc := .release (.contextDone err) }
  | .enqueue, .closed =>
    if w.closed then some (w.put { call with pc := .release (.returns .closed) }) else none
  | .enqueue, .ready => do
    let lane ← w.lanes.find? (commandRoleID call.req)
    if lane.jobs.length < o.roleQueueLimit then
      some (w.putBoth { call with pc := .await, enqueued := true }
        { lane with jobs := lane.jobs ++ [⟨c, call.req⟩] })
    else none
  | .enqueue, .default => do
    let lane ← w.lanes.find? (commandRoleID call.req)
    if call.ctxErr o = none ∧ w.closed = false ∧ o.roleQueueLimit ≤ lane.jobs.length then
      some (w.put { call with pc := .release (.returns .queueFull) })
    else none
  | .await, .ctxDone => (call.ctxErr o).map fun err =>
      w.put { call with pc := .release (.contextDone err) }
  | .await, .closed =>
    if w.closed then some (w.put { call with pc := .release (.returns .closed) }) else none
  | .await, .ready =>
    call.result.map fun res => w.put { call with pc := .returned (.result res), result := none }
  | .release exit, .ready =>
    (releaseCapacity w.capacity call).map fun (released, tokens) =>
      ⟨{ released with pc := exit.pc }, none, tokens, w.workerSlots⟩
  | .contextDone err, .ready =>
    some (w.put { call with pc := .returned (.contextDone call.parent err) })
  | _, _ => none

def handleStep (w : World) (lane : Lane) (job : Job) (call : Call) : Stage → Case → Option Change
  | .check, .ctxDone => (call.ctxErr o).map fun err =>
      w.putBoth call { lane with pc := .handle job (.send (.error (.ctx err))) }
  | .check, .default =>
    if call.ctxErr o = none then some (w.putBoth call { lane with pc := .handle job .acquire }) else none
  | .acquire, .ctxDone => (call.ctxErr o).map fun err =>
      w.putBoth call { lane with pc := .handle job (.send (.error (.ctx err))) }
  | .acquire, .closed =>
    if w.closed then
      some (w.putBoth call { lane with pc := .handle job (.send (.error .commandQueueClosed)) })
    else none
  | .acquire, .ready =>
    if w.workerSlots < o.workerLimit then
      some ⟨{ call with acquired := true }, some { lane with pc := .handle job .spawn }, w.capacity,
        w.workerSlots + 1⟩
    else none
  | .spawn, .ready =>
    some (w.putBoth { call with handler := .spawned job.req } { lane with pc := .handle job .wait })
  | .wait, .ctxDone => (call.ctxErr o).map fun err =>
      w.putBoth call { lane with pc := .handle job (.releaseSlot err) }
  | .wait, .ready => call.inner.map fun res =>
      w.putBoth { call with inner := none } { lane with pc := .handle job (.send res) }
  | .releaseSlot err, .ready =>
    (releaseWorker w.workerSlots call).map fun (released, tokens) =>
      ⟨released, some { lane with pc := .handle job (.send (.error (.ctx err))) }, w.capacity, tokens⟩
  | .send res, .ready =>
    if call.result = none then
      some (w.putBoth { call with result := some res, delivered := true }
        { lane with pc := .handle job .finish })
    else none
  | .finish, .ready =>
    (releaseCapacity w.capacity call).map fun (released, tokens) =>
      ⟨released, some { lane with pc := .idle }, tokens, w.workerSlots⟩
  | _, _ => none

def handlerStep (w : World) (call : Call) (res : CommandResult) : Handler → Option Change
  | .spawned req =>
    some (w.put { call with handler := .invoking req, history := call.history ++ [.invoked req] })
  | .invoking _ =>
    some (w.put { call with handler := .replying res, history := call.history ++ [.completed res] })
  | .replying res =>
    if call.inner = none then some (w.put { call with handler := .deferred, inner := some res }) else none
  | .deferred =>
    (releaseWorker w.workerSlots call).map fun (released, tokens) =>
      ⟨{ released with handler := .finished }, none, w.capacity, tokens⟩
  | .none | .finished => none

def laneStep (w : World) (lane : Lane) : LanePC → Case → Option World
  | .idle, .closed => if w.closed then some (w.setLane { lane with pc := .stopped }) else none
  | .idle, .ready =>
    match lane.jobs with
    | [] => none
    | job :: rest => some (w.setLane { lane with jobs := rest, pc := .handle job .check })
  | .handle job stage, case => do
    let call ← w.calls[job.call]?
    let change ← handleStep o w lane job call stage case
    return w.commit job.call change
  | _, _ => none

def step (w : World) : Label → Option World
  | .dispatch req => some { w with calls := w.calls ++ [.start req] }
  | .context c event => do
    let call ← w.calls[c]?
    let call' ← contextStep o call event
    return w.commit c (w.put call')
  | .caller c case => do
    let call ← w.calls[c]?
    let change ← callerStep o w c call call.pc case
    return w.commit c change
  | .lane roleID case => do
    let lane ← w.lanes.find? roleID
    laneStep o w lane lane.pc case
  | .handler c res => do
    let call ← w.calls[c]?
    let change ← handlerStep w call res call.handler
    return w.commit c change
  | .close => some { w with closed := true }
  -- a lane started while `Wait` returns can make Go's WaitGroup panic on its reuse; that panic is not modelled
  | .closeReturn =>
    if w.closed ∧ ∀ lane ∈ w.lanes.rows, lane.pc = .stopped then some { w with closeReturned := true }
    else none

end Steps

end GlobalMailSystem.CommandQueue
