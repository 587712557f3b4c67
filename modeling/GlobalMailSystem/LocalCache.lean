import GlobalMailSystem.RefreshMachine

/-!
`LocalCache` and `EventConsumer.Handle` of one player server, each call as a whole: nothing else
touches Redis and MySQL while it runs, and no call fails.
-/

namespace GlobalMailSystem

open Transition

namespace LocalCache

def loadFromSharedCache (cache : SharedCache) (now : Time) : Option (List GlobalMail) :=
  match cache.getActiveGlobalMailIDs now with
  | [] => none
  | mailIDs => mailIDs.mapM fun mailID => cache.getGlobalMail mailID now

def refillMail (now : Time) (cache : SharedCache) (mail : GlobalMail) : SharedCache :=
  (cache.setGlobalMail mail now).addGlobalMailToIndexes mail

def loadPublishedFromMySQLAndRefill (mails : Table GlobalMail.id) (cache : SharedCache) (now : Time) :
    SharedCache × List GlobalMail :=
  let found := getPublishedGlobalMails mails now
  (found.foldl (refillMail now) cache, found)

/-- While a server waits alone, every poll of `waitForSharedCache` reads what the first one reads. -/
def rebuildSharedCache (mails : Table GlobalMail.id) (cache : SharedCache) (version : Int) (now : Time)
    (token : Int) : SharedCache × List GlobalMail :=
  let locked := cache.tryAcquireGlobalMailRebuildLock version token Refresh.globalMailRebuildLockTTL now
  if locked.2 then
    let filled := loadPublishedFromMySQLAndRefill mails locked.1 now
    (filled.1.releaseGlobalMailRebuildLock version token now, filled.2)
  else
    match loadFromSharedCache locked.1 now with
    | some found => (locked.1, found)
    | none => loadPublishedFromMySQLAndRefill mails locked.1 now

theorem rebuildSharedCache_acquired {mails : Table GlobalMail.id} {cache : SharedCache} {version : Int}
    {now : Time} {token : Int}
    (h : (cache.tryAcquireGlobalMailRebuildLock version token
      Refresh.globalMailRebuildLockTTL now).2 = true) :
    rebuildSharedCache mails cache version now token =
      (((getPublishedGlobalMails mails now).foldl (refillMail now)
          (cache.tryAcquireGlobalMailRebuildLock version token
            Refresh.globalMailRebuildLockTTL now).1).releaseGlobalMailRebuildLock version token now,
        getPublishedGlobalMails mails now) := by
  simp [rebuildSharedCache, loadPublishedFromMySQLAndRefill, h]

theorem rebuildSharedCache_waiting {mails : Table GlobalMail.id} {cache : SharedCache} {version : Int}
    {now : Time} {token : Int}
    (h : ¬ (cache.tryAcquireGlobalMailRebuildLock version token
      Refresh.globalMailRebuildLockTTL now).2 = true) :
    rebuildSharedCache mails cache version now token =
      match loadFromSharedCache (cache.tryAcquireGlobalMailRebuildLock version token
          Refresh.globalMailRebuildLockTTL now).1 now with
      | some found => ((cache.tryAcquireGlobalMailRebuildLock version token
          Refresh.globalMailRebuildLockTTL now).1, found)
      | none => loadPublishedFromMySQLAndRefill mails (cache.tryAcquireGlobalMailRebuildLock version
          token Refresh.globalMailRebuildLockTTL now).1 now := by
  simp only [rebuildSharedCache, if_neg h]

def loadMails (mails : Table GlobalMail.id) (cache : SharedCache) (version : Int) (now : Time)
    (token : Int) : SharedCache × List GlobalMail :=
  match loadFromSharedCache cache now with
  | some found => (cache, found)
  | none => rebuildSharedCache mails cache version now token

def refresh (mails : Table GlobalMail.id) (cache : SharedCache) (version : Int) (now : Time)
    (token : Int) : SharedCache × CacheSnapshot :=
  let loaded := loadMails mails cache version now token
  (loaded.1, .build version loaded.2 now)

def refreshIfStale (mails : Table GlobalMail.id) (cache : SharedCache) (snapshot : CacheSnapshot)
    (now : Time) (token : Int) : SharedCache × CacheSnapshot :=
  let remoteVersion := cache.version
  if snapshot.version ≥ remoteVersion then (cache, snapshot)
  else refresh mails cache remoteVersion now token

def forceRefresh (mails : Table GlobalMail.id) (cache : SharedCache) (now : Time) (token : Int) :
    SharedCache × CacheSnapshot :=
  refresh mails cache cache.version now token

end LocalCache

def EventConsumer.handle (mails : Table GlobalMail.id) (cache : SharedCache) (snapshot : CacheSnapshot)
    (event : GlobalMailChangedEvent) (now : Time) (token : Int) : SharedCache × CacheSnapshot :=
  if event.version > 0 ∧ event.version ≤ snapshot.version then (cache, snapshot)
  else LocalCache.forceRefresh mails cache now token

namespace LocalCache

open Refresh

def Undisturbed (k : Nat) (now : Time) (token : Int) (l : Label) : Prop :=
  l = .work k now token .ok ∨ l = .tick k ∨ l = .timeout k

theorem goto_self (w : World) (k : Nat) (pc : PC) : (w.goto k pc).refreshes k = pc := by
  simp [World.goto]

section Goto

variable (w : World) (k : Nat) (pc : PC) (version : Int) (now : Time)

theorem goto_goto (cache : SharedCache) (pc' : PC) :
    { w.goto k pc with cache }.goto k pc' = { w with cache }.goto k pc' := by
  simp [World.goto]

theorem goto_fail (cache : SharedCache) : { w.goto k pc with cache }.fail k = { w with cache }.fail k := by
  simp [World.goto, World.fail]

theorem goto_install (cache : SharedCache) (found : List GlobalMail) :
    { w.goto k pc with cache }.install k version now found =
      { w with cache }.install k version now found := by
  simp [World.goto, World.install]

theorem goto_refill (cache : SharedCache) (lock : Option Int) (found rest : List GlobalMail) :
    refill { w.goto k pc with cache } k version now lock found rest =
      refill { w with cache } k version now lock found rest := by
  cases rest with
  | cons mail rest => exact goto_goto w k pc cache _
  | nil =>
    cases lock with
    | none => exact goto_install w k pc version now cache found
    | some token => exact goto_goto w k pc cache _

theorem goto_afterDetail (polling : Bool) (ids : List Int) (loaded : List GlobalMail) :
    afterDetail (w.goto k pc) k version now polling ids loaded =
      afterDetail w k version now polling ids loaded := by
  cases ids with
  | nil => exact goto_install w k pc version now w.cache loaded
  | cons id ids => exact goto_goto w k pc w.cache _

theorem goto_work (clock : Time) (token : Int) (pc' : PC) :
    work (w.goto k pc) k clock token .ok pc' = work w k clock token .ok pc' := by
  cases pc' with
  | readDetails version now polling ids loaded =>
    cases ids with
    | nil => exact congrArg some (goto_install w k pc version now w.cache loaded)
    | cons id ids =>
      simp only [work, goto_afterDetail]
      cases hget : w.cache.getGlobalMail id clock with
      | none => simp [World.goto, hget]
      | some mail => simp [World.goto, hget]
  | readMySQL version now lock => exact congrArg some (goto_refill w k pc version now w.cache lock _ _)
  | addIndexes version now lock found mail rest =>
    exact congrArg some (goto_refill w k pc version now _ lock found rest)
  | release version now held result =>
    cases result with
    | none => exact congrArg some (goto_fail w k pc _)
    | some found => exact congrArg some (goto_install w k pc version now _ found)
  | tryLock version now => exact congrArg some (goto_goto w k pc _ _)
  | idle | readIndex | wait | setMail => simp [work, World.goto]

end Goto

section Machine

variable {w : World} {k : Nat} {now : Time} {token : Int}

theorem reaches_ok {t u : World} {pc : PC} (hl : work w k now token .ok pc = some t)
    (h : Reaches step (Undisturbed k now token) t u) :
    Reaches step (Undisturbed k now token) (w.goto k pc) u := by
  have hstep : step (w.goto k pc) (.work k now token .ok) = some t := by
    simp only [step, goto_self, goto_work, hl]
  exact Reaches.head (Or.inl rfl) hstep h

theorem reaches_tick {u : World} {version : Int}
    (h : Reaches step (Undisturbed k now token) (w.goto k (.readIndex version now true)) u) :
    Reaches step (Undisturbed k now token) (w.goto k (.wait version now)) u := by
  refine Reaches.head (Or.inr (Or.inl rfl)) ?_ h
  simp [step, World.goto]

theorem reaches_timeout {u : World} {version : Int}
    (h : Reaches step (Undisturbed k now token) (w.goto k (.readMySQL version now none)) u) :
    Reaches step (Undisturbed k now token) (w.goto k (.wait version now)) u := by
  refine Reaches.head (Or.inr (Or.inr rfl)) ?_ h
  simp [step, World.goto]

variable (w k now token) (version : Int)

theorem details_reaches (polling : Bool) (ids : List Int) (loaded : List GlobalMail) :
    Reaches step (Undisturbed k now token) (w.goto k (.readDetails version now polling ids loaded))
      (match ids.mapM fun mailID => w.cache.getGlobalMail mailID now with
        | some found => w.install k version now (loaded ++ found)
        | none => w.goto k (miss version now polling)) := by
  induction ids generalizing loaded with
  | nil =>
    apply reaches_ok rfl
    simpa using Reaches.refl _
  | cons id ids ih =>
    cases hget : w.cache.getGlobalMail id now with
    | none =>
      apply reaches_ok (by simp only [work, hget]; rfl)
      simpa [hget] using Reaches.refl _
    | some mail =>
      apply reaches_ok (by simp only [work, hget]; rfl)
      cases ids with
      | nil => simpa [hget, afterDetail] using Reaches.refl _
      | cons next ids =>
        have hrest := ih (loaded ++ [mail])
        rw [List.mapM_cons, hget]
        cases hm : (next :: ids).mapM fun mailID => w.cache.getGlobalMail mailID now with
        | none => simpa [hm, afterDetail] using hrest
        | some found => simpa [hm, afterDetail] using hrest

theorem loadFromSharedCache_reaches (polling : Bool) :
    Reaches step (Undisturbed k now token) (w.goto k (.readIndex version now polling))
      (match loadFromSharedCache w.cache now with
        | some found => w.install k version now found
        | none => w.goto k (miss version now polling)) := by
  unfold loadFromSharedCache
  cases hids : w.cache.getActiveGlobalMailIDs now with
  | nil =>
    apply reaches_ok (by simp only [work, hids]; rfl)
    exact Reaches.refl _
  | cons id ids =>
    apply reaches_ok (by simp only [work, hids]; rfl)
    exact details_reaches w k now token version polling (id :: ids) []

theorem refill_reaches (lock : Option Int) (found rest : List GlobalMail) :
    Reaches step (Undisturbed k now token) (refill w k version now lock found rest)
      (refill { w with cache := rest.foldl (refillMail now) w.cache } k version now lock found []) := by
  induction rest generalizing w with
  | nil => exact Reaches.refl _
  | cons mail rest ih =>
    apply reaches_ok rfl
    apply reaches_ok rfl
    exact ih { w with cache := refillMail now w.cache mail }

theorem release_reaches (found : List GlobalMail) :
    Reaches step (Undisturbed k now token) (w.goto k (.release version now token (some found)))
      ({ w with cache := w.cache.releaseGlobalMailRebuildLock version token now }.install k version now
        found) := by
  refine reaches_ok ?_ (Reaches.refl _)
  simp [work, Outcome.executed]

theorem rebuildSharedCache_reaches :
    Reaches step (Undisturbed k now token) (w.goto k (.tryLock version now))
      ({ w with cache := (rebuildSharedCache w.mails w.cache version now token).1 }.install k version now
        (rebuildSharedCache w.mails w.cache version now token).2) := by
  apply reaches_ok rfl
  by_cases hlocked : (w.cache.tryAcquireGlobalMailRebuildLock version token
      globalMailRebuildLockTTL now).2 = true
  · rw [if_pos hlocked, rebuildSharedCache_acquired hlocked]
    apply reaches_ok rfl
    apply (refill_reaches _ k now token version _ _ _).trans
    exact release_reaches _ k now token version _
  · rw [if_neg hlocked, rebuildSharedCache_waiting hlocked]
    apply reaches_tick
    apply (loadFromSharedCache_reaches _ k now token version true).trans
    dsimp only
    split
    · exact Reaches.refl _
    · apply reaches_timeout
      apply reaches_ok rfl
      exact refill_reaches _ k now token version none _ _

theorem loadMails_reaches :
    Reaches step (Undisturbed k now token) (w.goto k (.readIndex version now false))
      ({ w with cache := (loadMails w.mails w.cache version now token).1 }.install k version now
        (loadMails w.mails w.cache version now token).2) := by
  apply (loadFromSharedCache_reaches w k now token version false).trans
  unfold loadMails
  cases hload : loadFromSharedCache w.cache now with
  | some found => exact Reaches.refl _
  | none => exact rebuildSharedCache_reaches w k now token version

end Machine

end LocalCache

end GlobalMailSystem
