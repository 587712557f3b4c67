import GlobalMailSystem.Publisher
import GlobalMailSystem.SharedCache
import GlobalMailSystem.Transition

/-!
Any number of `Publish` calls and relay workers over one MySQL and one Redis. A label is one
repository call of one of them; the order of the labels is the interleaving.
-/

namespace GlobalMailSystem.Relay

open Publisher

structure Config where
  workerID : String
  lockTTL : Time
  maxRetries : Int

inductive Effect
  | write (w : SharedCache.Write)
  | fetched (worker : Nat) (eventID : Int) (now lockedUntil : Time)
  | accepted (worker : Nat) (eventID : Int) (event : GlobalMailChangedEvent)
  | markedPublished (worker : Nat) (eventID : Int)
  | markedFailed (worker : Nat) (eventID : Int)

structure Store where
  db : Database
  cache : SharedCache
  log : List Effect

inductive Action
  | create (auto : AutoIncrement) (rows : Rows)
  | fetch (worker : Nat) (limit : Int) (lockedBy : String) (lockedUntil now : Time) (skip : Int → Bool)
  | write (w : SharedCache.Write)
  | accept (worker : Nat) (eventID : Int) (event : GlobalMailChangedEvent)
  | markPublished (worker : Nat) (eventID : Int) (now : Time)
  | markFailed (worker : Nat) (eventID : Int) (status : OutboxStatus) (nextRetryAt now : Time)
      (cause : String)

def Store.act (s : Store) : Action → Store
  | .create auto rows =>
    match createGlobalMailWithOutbox s.db auto rows with
    | none => s
    | some db => { s with db }
  | .fetch k limit lockedBy lockedUntil now skip =>
    let fetched := s.db.outbox.fetchPending limit lockedBy lockedUntil now skip
    { s with
      db := { s.db with outbox := fetched.1 }
      log := s.log ++ fetched.2.map fun event => .fetched k event.id now lockedUntil }
  | .write w => { s with cache := s.cache.apply w, log := s.log ++ [.write w] }
  | .accept k id event => { s with log := s.log ++ [.accepted k id event] }
  | .markPublished k id now =>
    { s with
      db := { s.db with outbox := s.db.outbox.markPublished id now }
      log := s.log ++ [.markedPublished k id] }
  | .markFailed k id status nextRetryAt now cause =>
    { s with
      db := { s.db with outbox := s.db.outbox.markFailed id status nextRetryAt now cause }
      log := s.log ++ [.markedFailed k id] }

structure Task where
  event : OutboxEvent
  changed : GlobalMailChangedEvent
  mail : GlobalMail
  rest : List OutboxEvent

inductive WorkerPC
  | idle
  | loop (events : List OutboxEvent)
  | loadMail (event : OutboxEvent) (changed : GlobalMailChangedEvent) (rest : List OutboxEvent)
  | setMail (task : Task)
  | addIndexes (task : Task)
  | advance (task : Task)
  | publish (task : Task)
  | markPublished (task : Task)
  | readRetryCount (event : OutboxEvent) (cause : String) (nextRetryAt : Time) (rest : List OutboxEvent)
  | markFailed (event : OutboxEvent) (status : OutboxStatus) (nextRetryAt now : Time) (cause : String)
      (rest : List OutboxEvent)

/-- The product of 64 bits wraps around. -/
def nextRetryTime (now : Time) (retryCount : Int) : Time :=
  let backoff := Int.bmod ((retryCount + 1) * minute) (2 ^ 64)
  now + if backoff > 30 * minute then 30 * minute else backoff

def failEvent (now : Time) (event : OutboxEvent) (rest : List OutboxEvent) (cause : String) : WorkerPC :=
  .readRetryCount event cause (nextRetryTime now event.retryCount) rest

def attempt (s : Store) (a : Action) (outcome : Outcome) (next : WorkerPC) (fail : String → WorkerPC) :
    Store × WorkerPC :=
  match outcome with
  | .ok => (s.act a, next)
  | .failed err => (s, fail err)
  | .lost err => (s.act a, fail err)

def workStep (config : Config) (k : Nat) (s : Store) (now : Time) (outcome : Outcome) :
    WorkerPC → Option (Store × WorkerPC)
  | .idle => none
  | .loop [] => some (s, .idle)
  | .loop (event :: rest) =>
    match event.payload.unmarshal with
    | none => some (s, failEvent now event rest "invalid event payload")
    | some changed => some (s, .loadMail event changed rest)
  | .loadMail event changed rest =>
    match outcome with
    | .ok =>
      match s.db.mails.find? event.aggregateID with
      | none =>
        some (s, failEvent now event rest ("global mail " ++ toString event.aggregateID ++ " not found"))
      | some mail => some (s, .setMail ⟨event, changed, mail, rest⟩)
    | .failed err => some (s, failEvent now event rest err)
    | .lost err => some (s, failEvent now event rest err)
  | .setMail t =>
    some (attempt s (.write (.setGlobalMail t.mail now)) outcome (.addIndexes t)
      (failEvent now t.event t.rest))
  | .addIndexes t =>
    some (attempt s (.write (.addGlobalMailToIndexes t.mail)) outcome (.advance t)
      (failEvent now t.event t.rest))
  | .advance t =>
    some (attempt s (.write (.advanceGlobalMailVersion t.event.version)) outcome (.publish t)
      (failEvent now t.event t.rest))
  | .publish t =>
    some (attempt s (.accept k t.event.id t.changed) outcome (.markPublished t)
      (failEvent now t.event t.rest))
  | .markPublished t =>
    some (attempt s (.markPublished k t.event.id now) outcome (.loop t.rest) (fun _ => .idle))
  | .readRetryCount event cause nextRetryAt rest =>
    match outcome with
    | .ok =>
      match s.db.outbox.find? event.id with
      | none => some (s, .loop rest)
      | some row =>
        some (s, .markFailed event (OutboxTable.failedStatus row.retryCount config.maxRetries)
          nextRetryAt now cause rest)
    | .failed _ => some (s, .loop rest)
    | .lost _ => some (s, .loop rest)
  | .markFailed event status nextRetryAt started cause rest =>
    some (attempt s (.markFailed k event.id status nextRetryAt started cause) outcome (.loop rest)
      (fun _ => .loop rest))

inductive PublisherPC
  | idle
  | creating (rows : Rows)
  | returned (result : Except String GlobalMail)

structure World where
  store : Store
  publishers : Nat → PublisherPC
  workers : Nat → WorkerPC

inductive Label
  | publishBegin (p : Nat) (cmd : PublishCommand) (now : Time) (newMailID eventID : Int)
      (failure : Option String)
  | publishCreate (p : Nat) (auto : AutoIncrement) (outcome : Outcome)
  | publishCrash (p : Nat)
  | fetch (k : Nat) (limit : Int) (workerNow now : Time) (skip : Int → Bool) (outcome : Outcome)
  | work (k : Nat) (now : Time) (outcome : Outcome)
  | crash (k : Nat)

def publisherStart (sha256 : PublishPayload → String) (db : Database) (cmd : PublishCommand)
    (now : Time) (newMailID eventID : Int) : Option String → PublisherPC
  | some err => .returned (.error err)
  | none =>
    match prepare sha256 db cmd now newMailID eventID with
    | .fail err => .returned (.error err)
    | .replay mail => .returned (.ok mail)
    | .create rows => .creating rows

def createResult (s : Store) (auto : AutoIncrement) (rows : Rows) : Outcome → Store × PublisherPC
  | .ok =>
    match createGlobalMailWithOutbox s.db auto rows with
    | none => (s, .returned (.error errConstraint))
    | some _ => (s.act (.create auto rows), .returned (.ok rows.mail))
  | .failed err => (s, .returned (.error err))
  | .lost err => (s.act (.create auto rows), .returned (.error err))

def fetchResult (s : Store) (config : Config) (k : Nat) (limit : Int) (workerNow now : Time)
    (skip : Int → Bool) : Outcome → Store × WorkerPC
  | .ok =>
    let until_ := workerNow + config.lockTTL
    (s.act (.fetch k limit config.workerID until_ now skip),
      .loop (s.db.outbox.fetchPending limit config.workerID until_ now skip).2)
  | .failed _ => (s, .idle)
  | .lost _ => (s.act (.fetch k limit config.workerID (workerNow + config.lockTTL) now skip), .idle)

def World.setPublisher (w : World) (p : Nat) (r : Store × PublisherPC) : World :=
  { w with store := r.1, publishers := Function.update w.publishers p r.2 }

def World.setWorker (w : World) (k : Nat) (r : Store × WorkerPC) : World :=
  { w with store := r.1, workers := Function.update w.workers k r.2 }

def step (sha256 : PublishPayload → String) (config : Nat → Config) (w : World) :
    Label → Option World
  | .publishBegin p cmd now newMailID eventID failure =>
    match w.publishers p with
    | .idle =>
      some (w.setPublisher p
        (w.store, publisherStart sha256 w.store.db cmd now newMailID eventID failure))
    | _ => none
  | .publishCreate p auto outcome =>
    match w.publishers p with
    | .creating rows => some (w.setPublisher p (createResult w.store auto rows outcome))
    | _ => none
  | .publishCrash p => some (w.setPublisher p (w.store, .returned (.error "crashed")))
  | .fetch k limit workerNow now skip outcome =>
    match w.workers k with
    | .idle => some (w.setWorker k (fetchResult w.store (config k) k limit workerNow now skip outcome))
    | _ => none
  | .work k now outcome =>
    (workStep (config k) k w.store now outcome (w.workers k)).map (w.setWorker k)
  | .crash k => some (w.setWorker k (w.store, .idle))

def init : World := ⟨⟨.empty, .empty, []⟩, fun _ => .idle, fun _ => .idle⟩

end GlobalMailSystem.Relay
