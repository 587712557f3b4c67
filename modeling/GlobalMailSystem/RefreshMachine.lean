import GlobalMailSystem.SharedCache
import GlobalMailSystem.Transition

/-!
`LocalCache.refresh` on any number of player servers over one Redis and one MySQL. The mutex of a
server admits one refresh at a time; every call a refresh makes is one label.
-/

namespace GlobalMailSystem

def getPublishedGlobalMails (mails : Table GlobalMail.id) (now : Time) : List GlobalMail :=
  mails.rows.filter fun mail => mail.status = .published && mail.startTime ≤ now && now < mail.expireTime

theorem mem_getPublishedGlobalMails {mails : Table GlobalMail.id} {now : Time} {mail : GlobalMail} :
    mail ∈ getPublishedGlobalMails mails now ↔
      mail ∈ mails.rows ∧ mail.status = .published ∧ mail.inWindow now := by
  simp [getPublishedGlobalMails, GlobalMail.inWindow, and_assoc]

namespace Refresh

def globalMailRebuildLockTTL : Time := 30 * second

/-- `polling` tells a read of `waitForSharedCache` from the first one; `lock` is the token of the
rebuild lock if the refill holds it. -/
inductive PC
  | idle
  | readIndex (version : Int) (now : Time) (polling : Bool)
  | readDetails (version : Int) (now : Time) (polling : Bool) (ids : List Int) (loaded : List GlobalMail)
  | tryLock (version : Int) (now : Time)
  | wait (version : Int) (now : Time)
  | readMySQL (version : Int) (now : Time) (lock : Option Int)
  | setMail (version : Int) (now : Time) (lock : Option Int) (mails : List GlobalMail)
      (mail : GlobalMail) (rest : List GlobalMail)
  | addIndexes (version : Int) (now : Time) (lock : Option Int) (mails : List GlobalMail)
      (mail : GlobalMail) (rest : List GlobalMail)
  | release (version : Int) (now : Time) (token : Int) (result : Option (List GlobalMail))

/-- `succeeded` tells what the last refresh of a server has returned: nil, or an error. -/
structure World where
  mails : Table GlobalMail.id
  cache : SharedCache
  snapshots : Nat → CacheSnapshot
  installed : List (Nat × CacheSnapshot)
  refreshes : Nat → PC
  succeeded : Nat → Bool

inductive Label
  | start (k : Nat) (version : Int) (now : Time)
  | work (k : Nat) (clock : Time) (token : Int) (outcome : Outcome)
  | tick (k : Nat)
  | timeout (k : Nat)
  | cancel (k : Nat)

def World.goto (w : World) (k : Nat) (pc : PC) : World :=
  { w with refreshes := Function.update w.refreshes k pc }

def World.install (w : World) (k : Nat) (version : Int) (now : Time) (mails : List GlobalMail) : World :=
  let next := CacheSnapshot.build version mails now
  { w with
    snapshots := Function.update w.snapshots k next
    installed := w.installed ++ [(k, next)]
    refreshes := Function.update w.refreshes k .idle
    succeeded := Function.update w.succeeded k true }

def World.fail (w : World) (k : Nat) : World :=
  { w with
    refreshes := Function.update w.refreshes k .idle
    succeeded := Function.update w.succeeded k false }

def miss (version : Int) (now : Time) (polling : Bool) : PC :=
  if polling then .wait version now else .tryLock version now

def afterDetail (w : World) (k : Nat) (version : Int) (now : Time) (polling : Bool) (ids : List Int)
    (loaded : List GlobalMail) : World :=
  match ids with
  | [] => w.install k version now loaded
  | ids => w.goto k (.readDetails version now polling ids loaded)

def abort (w : World) (k : Nat) (version : Int) (now : Time) : Option Int → World
  | none => w.fail k
  | some token => w.goto k (.release version now token none)

def refill (w : World) (k : Nat) (version : Int) (now : Time) (lock : Option Int)
    (mails : List GlobalMail) : List GlobalMail → World
  | mail :: rest => w.goto k (.setMail version now lock mails mail rest)
  | [] =>
    match lock with
    | none => w.install k version now mails
    | some token => w.goto k (.release version now token (some mails))

def work (w : World) (k : Nat) (clock : Time) (token : Int) (outcome : Outcome) : PC → Option World
  | .idle => none
  | .wait _ _ => none
  | .readIndex version now polling =>
    match outcome with
    | .ok =>
      match w.cache.getActiveGlobalMailIDs now with
      | [] => some (w.goto k (miss version now polling))
      | ids => some (w.goto k (.readDetails version now polling ids []))
    | _ => some (w.fail k)
  | .readDetails version now polling ids loaded =>
    match outcome, ids with
    | .ok, [] => some (w.install k version now loaded)
    | .ok, id :: rest =>
      match w.cache.getGlobalMail id clock with
      | none => some (w.goto k (miss version now polling))
      | some mail => some (afterDetail w k version now polling rest (loaded ++ [mail]))
    | _, _ => some (w.fail k)
  | .tryLock version now =>
    let locked := w.cache.tryAcquireGlobalMailRebuildLock version token globalMailRebuildLockTTL clock
    match outcome with
    | .ok =>
      some ({ w with cache := locked.1 }.goto k
        (if locked.2 then .readMySQL version now (some token) else .wait version now))
    | .failed _ => some (w.fail k)
    | .lost _ => some ({ w with cache := locked.1 }.fail k)
  | .readMySQL version now lock =>
    match outcome with
    | .ok =>
      let mails := getPublishedGlobalMails w.mails now
      some (refill w k version now lock mails mails)
    | _ => some (abort w k version now lock)
  | .setMail version now lock mails mail rest =>
    let written := { w with cache := w.cache.setGlobalMail mail clock }
    match outcome with
    | .ok => some (written.goto k (.addIndexes version now lock mails mail rest))
    | .failed _ => some (abort w k version now lock)
    | .lost _ => some (abort written k version now lock)
  | .addIndexes version now lock mails mail rest =>
    let written := { w with cache := w.cache.addGlobalMailToIndexes mail }
    match outcome with
    | .ok => some (refill written k version now lock mails rest)
    | .failed _ => some (abort w k version now lock)
    | .lost _ => some (abort written k version now lock)
  | .release version now held result =>
    let released := if outcome.executed then
      { w with cache := w.cache.releaseGlobalMailRebuildLock version held clock } else w
    match result with
    | none => some (released.fail k)
    | some mails => some (released.install k version now mails)

def step (w : World) : Label → Option World
  | .start k version now =>
    match w.refreshes k with
    | .idle => some (w.goto k (.readIndex version now false))
    | _ => none
  | .work k clock token outcome => work w k clock token outcome (w.refreshes k)
  | .tick k =>
    match w.refreshes k with
    | .wait version now => some (w.goto k (.readIndex version now true))
    | _ => none
  | .timeout k =>
    match w.refreshes k with
    | .wait version now => some (w.goto k (.readMySQL version now none))
    | _ => none
  | .cancel k =>
    match w.refreshes k with
    | .wait _ _ => some (w.fail k)
    | _ => none

def init (mails : Table GlobalMail.id) (cache : SharedCache) : World :=
  ⟨mails, cache, fun _ => .new 0 zeroTime, [], fun _ => .idle, fun _ => false⟩

end Refresh

end GlobalMailSystem
