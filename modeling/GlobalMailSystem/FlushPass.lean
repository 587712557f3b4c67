import GlobalMailSystem.RelayMachine

namespace GlobalMailSystem.Relay

open Publisher Transition

inductive RepoCall
  | decode
  | loadMail
  | setGlobalMail
  | addGlobalMailToIndexes
  | advanceGlobalMailVersion
  | publish
  | markPublished
  | readRetryCount
  | markFailed
  deriving DecidableEq

/-- What the clock shows at a call for an event, and what the call answers. -/
abbrev Replies := RepoCall → Time × Outcome

def performed (s : Store) (a : Action) : Outcome → Store
  | .failed _ => s
  | _ => s.act a

def errorOf : Outcome → Option String
  | .ok => none
  | .failed err => some err
  | .lost err => some err

inductive Relayed
  | published
  | passed
  | stopped (err : String)

section Event

variable (config : Config) (k : Nat)

def failedEvent (r : Replies) (s : Store) (event : OutboxEvent) (failedAt : Time) (cause : String) : Store :=
  match (r .readRetryCount).2, s.db.outbox.find? event.id with
  | .ok, some row =>
    performed s (.markFailed k event.id (OutboxTable.failedStatus row.retryCount config.maxRetries)
      (nextRetryTime failedAt event.retryCount) (r .readRetryCount).1 cause) (r .markFailed).2
  | _, _ => s

def loadedMail (s : Store) (event : OutboxEvent) : Outcome → Except String GlobalMail
  | .ok =>
    match s.db.mails.find? event.aggregateID with
    | none => .error ("global mail " ++ toString event.aggregateID ++ " not found")
    | some mail => .ok mail
  | .failed err => .error err
  | .lost err => .error err

def projection (r : Replies) (event : OutboxEvent) (changed : GlobalMailChangedEvent) (mail : GlobalMail) :
    List (RepoCall × Action) :=
  [(.setGlobalMail, .write (.setGlobalMail mail (r .setGlobalMail).1)),
    (.addGlobalMailToIndexes, .write (.addGlobalMailToIndexes mail)),
    (.advanceGlobalMailVersion, .write (.advanceGlobalMailVersion event.version)),
    (.publish, .accept k event.id changed)]

def callAll (r : Replies) : Store → List (RepoCall × Action) → Store × Option (RepoCall × String)
  | s, [] => (s, none)
  | s, (c, a) :: rest =>
    match errorOf (r c).2 with
    | some err => (performed s a (r c).2, some (c, err))
    | none => callAll r (performed s a (r c).2) rest

def relayEvent (r : Replies) (s : Store) (event : OutboxEvent) : Store × Relayed :=
  match event.payload.unmarshal with
  | none => (failedEvent config k r s event (r .decode).1 "invalid event payload", .passed)
  | some changed =>
    match loadedMail s event (r .loadMail).2 with
    | .error cause => (failedEvent config k r s event (r .loadMail).1 cause, .passed)
    | .ok mail =>
      match callAll r s (projection k r event changed mail) with
      | (s, some (c, cause)) => (failedEvent config k r s event (r c).1 cause, .passed)
      | (s, none) =>
        let s := performed s (.markPublished k event.id (r .markPublished).1) (r .markPublished).2
        match errorOf (r .markPublished).2 with
        | none => (s, .published)
        | some err => (s, .stopped err)

def relayEvents (replies : Int → Replies) : Store → List OutboxEvent → Store × Nat × Option String
  | s, [] => (s, 0, none)
  | s, event :: rest =>
    match relayEvent config k (replies event.id) s event with
    | (s, .published) =>
      let (s, published, err) := relayEvents replies s rest
      (s, published + 1, err)
    | (s, .passed) => relayEvents replies s rest
    | (s, .stopped err) => (s, 0, some err)

structure Pass where
  workerNow : Time
  now : Time
  skip : Int → Bool
  fetch : Outcome
  replies : Int → Replies

def fetchAction (limit : Int) (p : Pass) : Action :=
  .fetch k limit config.workerID (p.workerNow + config.lockTTL) p.now p.skip

def fetchedEvents (limit : Int) (s : Store) (p : Pass) : List OutboxEvent :=
  (s.db.outbox.fetchPending limit config.workerID (p.workerNow + config.lockTTL) p.now p.skip).2

def flush (limit : Int) (s : Store) (p : Pass) : Store × Nat × Option String :=
  match p.fetch with
  | .ok => relayEvents config k p.replies (s.act (fetchAction config k limit p)) (fetchedEvents config limit s p)
  | .failed err => (s, 0, some err)
  | .lost err => (s.act (fetchAction config k limit p), 0, some err)

end Event

section Reaches

variable {sha256 : PublishPayload → String} {config : Nat → Config} {k : Nat}

def Label.ofWorker (k : Nat) : Label → Prop
  | .fetch j _ _ _ _ _ => j = k
  | .work j _ _ => j = k
  | _ => False

def World.at (w : World) (k : Nat) (s : Store) (pc : WorkerPC) : World := w.setWorker k (s, pc)

theorem at_at (w : World) (s s' : Store) (pc pc' : WorkerPC) : (w.at k s pc).at k s' pc' = w.at k s' pc' := by
  simp [World.at, World.setWorker]

theorem at_workers (w : World) (s : Store) (pc : WorkerPC) : (w.at k s pc).workers k = pc := by
  simp [World.at, World.setWorker]

theorem work_reaches {w : World} {s s' : Store} {pc pc' : WorkerPC} (now : Time) (outcome : Outcome)
    (h : workStep (config k) k s now outcome pc = some (s', pc')) {u : World}
    (hrest : Reaches (step sha256 config) (Label.ofWorker k) (w.at k s' pc') u) :
    Reaches (step sha256 config) (Label.ofWorker k) (w.at k s pc) u := by
  have hstep : step sha256 config (w.at k s pc) (.work k now outcome) = some (w.at k s' pc') := by
    change (workStep (config k) k s now outcome ((w.at k s pc).workers k)).map _ = _
    rw [at_workers, h, Option.map_some]
    exact congrArg some (at_at w s s' pc pc')
  exact Reaches.head (show Label.ofWorker k (.work k now outcome) from rfl) hstep hrest

theorem failedEvent_reaches (r : Replies) (w : World) (s : Store) (event : OutboxEvent)
    (rest : List OutboxEvent) (failedAt : Time) (cause : String) :
    Reaches (step sha256 config) (Label.ofWorker k) (w.at k s (failEvent failedAt event rest cause))
      (w.at k (failedEvent (config k) k r s event failedAt cause) (.loop rest)) := by
  unfold failedEvent failEvent
  cases hr : (r .readRetryCount).2 with
  | failed err => exact work_reaches failedAt (.failed err) rfl (Reaches.refl _)
  | lost err => exact work_reaches failedAt (.lost err) rfl (Reaches.refl _)
  | ok =>
    cases hfind : s.db.outbox.find? event.id with
    | none =>
      have hread : workStep (config k) k s failedAt .ok
          (.readRetryCount event cause (nextRetryTime failedAt event.retryCount) rest) = some (s, .loop rest) := by
        simp only [workStep, hfind]
      exact work_reaches _ _ hread (Reaches.refl _)
    | some row =>
      have hread : workStep (config k) k s (r .readRetryCount).1 .ok
          (.readRetryCount event cause (nextRetryTime failedAt event.retryCount) rest) =
          some (s, .markFailed event (OutboxTable.failedStatus row.retryCount (config k).maxRetries)
            (nextRetryTime failedAt event.retryCount) (r .readRetryCount).1 cause rest) := by
        simp only [workStep, hfind]
      apply work_reaches _ _ hread
      apply work_reaches failedAt (r .markFailed).2 ?_ (Reaches.refl _)
      simp only [workStep]
      cases (r .markFailed).2 <;> rfl

theorem attempt_reaches (w : World) (s : Store) (now : Time) (outcome : Outcome) {pc next : WorkerPC} {a : Action}
    {fail : String → WorkerPC} (h : workStep (config k) k s now outcome pc = some (attempt s a outcome next fail)) :
    Reaches (step sha256 config) (Label.ofWorker k) (w.at k s pc)
      (w.at k (performed s a outcome) ((errorOf outcome).elim next fail)) := by
  apply work_reaches now outcome (h.trans ?_) (Reaches.refl _)
  cases outcome <;> rfl

def afterCalls (r : Replies) (t : Task) : Option (RepoCall × String) → WorkerPC
  | none => .markPublished t
  | some (c, err) => failEvent (r c).1 t.event t.rest err

theorem projection_reaches (r : Replies) (w : World) (s : Store) (t : Task) :
    Reaches (step sha256 config) (Label.ofWorker k) (w.at k s (.setMail t))
      (w.at k (callAll r s (projection k r t.event t.changed t.mail)).1
        (afterCalls r t (callAll r s (projection k r t.event t.changed t.mail)).2)) := by
  simp only [projection, callAll]
  refine (attempt_reaches w s (r .setGlobalMail).1 (r .setGlobalMail).2 rfl).trans ?_
  cases errorOf (r .setGlobalMail).2 with
  | some err => exact Reaches.refl _
  | none =>
    refine (attempt_reaches w _ (r .addGlobalMailToIndexes).1
      (r .addGlobalMailToIndexes).2 rfl).trans ?_
    cases errorOf (r .addGlobalMailToIndexes).2 with
    | some err => exact Reaches.refl _
    | none =>
      refine (attempt_reaches w _ (r .advanceGlobalMailVersion).1
        (r .advanceGlobalMailVersion).2 rfl).trans ?_
      cases errorOf (r .advanceGlobalMailVersion).2 with
      | some err => exact Reaches.refl _
      | none =>
        refine (attempt_reaches w _ (r .publish).1 (r .publish).2 rfl).trans ?_
        cases errorOf (r .publish).2 <;> exact Reaches.refl _

def Relayed.next (rest : List OutboxEvent) : Relayed → WorkerPC
  | .stopped _ => .idle
  | _ => .loop rest

theorem relayEvent_reaches (r : Replies) (w : World) (s : Store) (event : OutboxEvent) (rest : List OutboxEvent) :
    Reaches (step sha256 config) (Label.ofWorker k) (w.at k s (.loop (event :: rest)))
      (w.at k (relayEvent (config k) k r s event).1 ((relayEvent (config k) k r s event).2.next rest)) := by
  unfold relayEvent
  cases hdecode : event.payload.unmarshal with
  | none =>
    have hloop : workStep (config k) k s (r .decode).1 .ok (.loop (event :: rest)) =
        some (s, failEvent (r .decode).1 event rest "invalid event payload") := by
      simp only [workStep, hdecode]
    exact work_reaches _ _ hloop (failedEvent_reaches r w s event rest _ _)
  | some changed =>
    have hloop : workStep (config k) k s 0 .ok (.loop (event :: rest)) = some (s, .loadMail event changed rest) := by
      simp only [workStep, hdecode]
    apply work_reaches _ _ hloop
    have hload : workStep (config k) k s (r .loadMail).1 (r .loadMail).2 (.loadMail event changed rest) =
        some (s, match loadedMail s event (r .loadMail).2 with
          | .error cause => failEvent (r .loadMail).1 event rest cause
          | .ok mail => .setMail ⟨event, changed, mail, rest⟩) := by
      simp only [workStep, loadedMail]
      cases (r .loadMail).2 with
      | failed err => rfl
      | lost err => rfl
      | ok => cases s.db.mails.find? event.aggregateID <;> rfl
    apply work_reaches _ _ hload
    cases loadedMail s event (r .loadMail).2 with
    | error cause => exact failedEvent_reaches r w s event rest _ cause
    | ok mail =>
      refine (projection_reaches r w s ⟨event, changed, mail, rest⟩).trans ?_
      dsimp only
      rcases callAll r s (projection k r event changed mail) with ⟨s, _ | ⟨c, cause⟩⟩
      · refine (attempt_reaches w s (r .markPublished).1 (r .markPublished).2 rfl).trans ?_
        cases errorOf (r .markPublished).2 <;> exact Reaches.refl _
      · exact failedEvent_reaches r w s event rest _ cause

theorem relayEvents_reaches (replies : Int → Replies) (w : World) (s : Store) (events : List OutboxEvent) :
    Reaches (step sha256 config) (Label.ofWorker k) (w.at k s (.loop events))
      (w.at k (relayEvents (config k) k replies s events).1 .idle) := by
  induction events generalizing s with
  | nil => exact work_reaches 0 .ok rfl (Reaches.refl _)
  | cons event rest ih =>
    refine (relayEvent_reaches (replies event.id) w s event rest).trans ?_
    simp only [relayEvents]
    rcases relayEvent (config k) k (replies event.id) s event with ⟨s, _ | _ | err⟩
    · exact ih s
    · exact ih s
    · exact Reaches.refl _

theorem flush_reaches (limit : Int) (w : World) (hidle : w.workers k = .idle) (p : Pass) :
    Reaches (step sha256 config) (Label.ofWorker k) w
      (w.at k (flush (config k) k limit w.store p).1 .idle) := by
  have hfetch : step sha256 config w (.fetch k limit p.workerNow p.now p.skip p.fetch) =
      some (w.setWorker k (fetchResult w.store (config k) k limit p.workerNow p.now p.skip p.fetch)) := by
    simp only [step, hidle]
  apply Reaches.head (show Label.ofWorker k (.fetch k limit p.workerNow p.now p.skip p.fetch) from rfl) hfetch
  unfold flush
  cases p.fetch with
  | ok => exact relayEvents_reaches p.replies w _ _
  | failed err => exact Reaches.refl _
  | lost err => exact Reaches.refl _

end Reaches

end GlobalMailSystem.Relay
