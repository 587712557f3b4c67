import GlobalMailSystem.SharedCache
import GlobalMailSystem.Transition

namespace GlobalMailSystem

namespace SharedCache

def lockTTL (ttl : Time) : Time := if ttl ≤ 0 then 30 * second else ttl

theorem tryAcquire_cases (c : SharedCache) (version token : Int) (ttl now : Time) :
    c.tryAcquireGlobalMailRebuildLock version token ttl now = (c, false) ∨
    (c.tryAcquireGlobalMailRebuildLock version token ttl now =
        ({ c with locks := Function.update c.locks version (some ⟨token, now + lockTTL ttl⟩) }, true) ∧
      ∀ lock, c.locks version = some lock → lock.expireAt ≤ now) := by
  unfold tryAcquireGlobalMailRebuildLock lockTTL
  cases hlock : c.locks version with
  | none => exact .inr ⟨rfl, by simp⟩
  | some lock =>
    by_cases hheld : now < lock.expireAt
    · exact .inl (by simp [hheld])
    · refine .inr ⟨by simp [hheld], fun lock' heq => ?_⟩
      cases heq
      exact Int.not_lt.mp hheld

theorem release_lock (c : SharedCache) (version token : Int) (now : Time) (v : Int) :
    (c.releaseGlobalMailRebuildLock version token now).locks v = c.locks v ∨
    ((c.releaseGlobalMailRebuildLock version token now).locks v = none ∧ v = version ∧
      ∃ lock, c.locks v = some lock ∧ lock.token = token) := by
  unfold releaseGlobalMailRebuildLock
  split
  · exact .inl rfl
  · rename_i lock hlock
    split_ifs with hown
    · by_cases hv : v = version
      · subst hv
        exact .inr ⟨Function.update_self .., rfl, lock, hlock, hown.2⟩
      · exact .inl (Function.update_of_ne hv ..)
    · exact .inl rfl

end SharedCache

namespace RebuildLocks

open Transition

/-- One lock key that was set: `releasable` when its caller has got the release function, `released` once a
release of it has reached Redis. -/
structure Acquisition where
  server : Nat
  version : Int
  token : Int
  expireAt : Time
  releasable : Bool
  released : Bool

def Acquisition.live (a : Acquisition) (now : Time) : Prop := now < a.expireAt ∧ a.released = false

instance (a : Acquisition) (now : Time) : Decidable (a.live now) := inferInstanceAs (Decidable (_ ∧ _))

structure World where
  now : Time
  cache : SharedCache
  acquisitions : List Acquisition

inductive Label
  | pass (now : Time)
  | acquire (server : Nat) (version token : Int) (ttl : Time) (outcome : Outcome)
  | release (a : Nat) (outcome : Outcome)

def answered : Outcome → Bool
  | .ok => true
  | _ => false

def init (cache : SharedCache) (now : Time) : World := ⟨now, cache, []⟩

def World.acquired (w : World) (server : Nat) (version token : Int) (ttl : Time) (outcome : Outcome) : World :=
  let tried := w.cache.tryAcquireGlobalMailRebuildLock version token ttl w.now
  if tried.2 then
    { w with
      cache := tried.1
      acquisitions := w.acquisitions ++
        [⟨server, version, token, w.now + SharedCache.lockTTL ttl, answered outcome, false⟩] }
  else { w with cache := tried.1 }

/-- A caller that saw an error has only the empty release function. -/
def step (w : World) : Label → Option World
  | .pass now => if w.now ≤ now then some { w with now } else none
  | .acquire server version token ttl outcome =>
    if outcome.executed then some (w.acquired server version token ttl outcome) else some w
  | .release a outcome =>
    match w.acquisitions[a]? with
    | some acq =>
      if acq.releasable then
        if outcome.executed then
          some { w with
            cache := w.cache.releaseGlobalMailRebuildLock acq.version acq.token w.now
            acquisitions := w.acquisitions.set a { acq with released := true } }
        else some w
      else none
    | none => none

def FreshToken (w : World) : Label → Prop
  | .acquire _ version token ttl outcome =>
    outcome.executed = true → (w.cache.tryAcquireGlobalMailRebuildLock version token ttl w.now).2 = true →
      ∀ acq ∈ w.acquisitions, acq.version = version → acq.token ≠ token
  | _ => True

instance (w : World) : (l : Label) → Decidable (FreshToken w l)
  | .acquire .. => inferInstanceAs (Decidable (_ → _ → _))
  | .pass _ | .release .. => isTrue trivial

inductive Step (w : World) : Label → World → Prop
  | pass {now : Time} (hnow : w.now ≤ now) : Step w (.pass now) { w with now }
  | idle {l : Label} : Step w l w
  | acquired {server : Nat} {version token : Int} {ttl : Time} {outcome : Outcome}
      (hexec : outcome.executed = true)
      (htried : w.cache.tryAcquireGlobalMailRebuildLock version token ttl w.now =
        ({ w.cache with
          locks := Function.update w.cache.locks version (some ⟨token, w.now + SharedCache.lockTTL ttl⟩) }, true))
      (hfree : ∀ lock, w.cache.locks version = some lock → lock.expireAt ≤ w.now) :
      Step w (.acquire server version token ttl outcome)
        { w with
          cache.locks :=
            Function.update w.cache.locks version (some ⟨token, w.now + SharedCache.lockTTL ttl⟩)
          acquisitions := w.acquisitions ++
            [⟨server, version, token, w.now + SharedCache.lockTTL ttl, answered outcome, false⟩] }
  | released {a : Nat} {outcome : Outcome} {acq : Acquisition} (ha : w.acquisitions[a]? = some acq) :
      Step w (.release a outcome)
        { w with
          cache := w.cache.releaseGlobalMailRebuildLock acq.version acq.token w.now
          acquisitions := w.acquisitions.set a { acq with released := true } }

theorem step_inv {w w' : World} {l : Label} (h : step w l = some w') : Step w l w' := by
  cases l with
  | pass now =>
    simp only [step] at h
    split_ifs at h with hnow
    cases h
    exact .pass hnow
  | acquire server version token ttl outcome =>
    simp only [step] at h
    split_ifs at h with hexec
    · rcases w.cache.tryAcquire_cases version token ttl w.now with htried | ⟨htried, hfree⟩
      · simp only [World.acquired, htried] at h
        cases h
        exact .idle
      · simp only [World.acquired, htried, if_true] at h
        cases h
        exact .acquired hexec htried hfree
    · cases h
      exact .idle
  | release a outcome =>
    simp only [step] at h
    split at h
    · rename_i acq ha
      split_ifs at h
      · cases h
        exact .released ha
      · cases h
        exact .idle
    · cases h

def Acquisition.key (a : Acquisition) : Int × Int := (a.version, a.token)

def Acquisition.lock (a : Acquisition) : RebuildLock := ⟨a.token, a.expireAt⟩

structure Inv (w : World) : Prop where
  held : ∀ (a : Nat) acq, w.acquisitions[a]? = some acq → acq.live w.now → w.cache.locks acq.version = some acq.lock
  known : ∀ v lock, w.cache.locks v = some lock → (v, lock) ∈ w.acquisitions.map fun acq => (acq.version, acq.lock)
  distinct : (w.acquisitions.map Acquisition.key).Nodup

variable {w w' : World} {a b : Nat} {acq acq' : Acquisition}

theorem Inv.unique (hw : Inv w) (ha : w.acquisitions[a]? = some acq) (hb : w.acquisitions[b]? = some acq')
    (hkey : acq.key = acq'.key) : a = b := by
  obtain ⟨hlt, -⟩ := List.getElem?_eq_some_iff.mp ha
  apply (List.getElem?_inj (by simpa using hlt) hw.distinct).mp
  simp only [List.getElem?_map, ha, hb, Option.map_some, hkey]

theorem Inv.live_unique (hw : Inv w) (ha : w.acquisitions[a]? = some acq) (hb : w.acquisitions[b]? = some acq')
    (hversion : acq.version = acq'.version) (hlive : acq.live w.now) (hlive' : acq'.live w.now) : a = b := by
  have hlock : some acq.lock = some acq'.lock := by
    rw [← hw.held a acq ha hlive, ← hw.held b acq' hb hlive', hversion]
  have htoken : acq.token = acq'.token := congrArg RebuildLock.token (Option.some.inj hlock)
  exact hw.unique ha hb (Prod.ext hversion htoken)

theorem Inv.held_release (hw : Inv w) (ha : w.acquisitions[a]? = some acq) (hb : w.acquisitions[b]? = some acq')
    (hne : b ≠ a) (hlive : acq'.live w.now) :
    (w.cache.releaseGlobalMailRebuildLock acq.version acq.token w.now).locks acq'.version = some acq'.lock := by
  -- the lock of a live acquisition outlasts the release of any other, however late that comes
  have hheld := hw.held b acq' hb hlive
  rcases w.cache.release_lock acq.version acq.token w.now acq'.version with hsame | ⟨-, hversion, lock, hlock, htoken⟩
  · rw [hsame, hheld]
  · rw [hheld] at hlock
    cases hlock
    exact absurd (hw.unique hb ha (Prod.ext hversion htoken)) hne

theorem Inv.release_own (hw : Inv w) (ha : w.acquisitions[a]? = some acq) {v : Int} {lock : RebuildLock}
    (hlock : w.cache.locks v = some lock) :
    (w.cache.releaseGlobalMailRebuildLock acq.version acq.token w.now).locks v = some lock ∨
      (v = acq.version ∧ lock = acq.lock) := by
  rcases w.cache.release_lock acq.version acq.token w.now v with hsame | ⟨-, hversion, lock', hlock', htoken⟩
  · exact .inl (hsame.trans hlock)
  · cases hlock.symm.trans hlock'
    obtain ⟨owner, howner, heq⟩ := List.mem_map.mp (hw.known v lock hlock)
    cases heq
    obtain ⟨b, hb⟩ := List.getElem?_of_mem howner
    cases hw.unique hb ha (Prod.ext hversion htoken)
    cases hb.symm.trans ha
    exact .inr ⟨rfl, rfl⟩

theorem map_set_released {β : Type} {acquisitions : List Acquisition} (ha : acquisitions[a]? = some acq)
    (f : Acquisition → β) (hf : f { acq with released := true } = f acq) :
    (acquisitions.set a { acq with released := true }).map f = acquisitions.map f := by
  obtain ⟨hlt, hget⟩ := List.getElem?_eq_some_iff.mp ha
  rw [List.map_set, hf, ← hget, ← List.getElem_map f (h := by simpa using hlt), List.set_getElem_self]

theorem inv_acquired (hw : Inv w) {server : Nat} {version token : Int} {expireAt : Time} {releasable : Bool}
    (hfresh : ∀ acq ∈ w.acquisitions, acq.version = version → acq.token ≠ token)
    (hfree : ∀ lock, w.cache.locks version = some lock → lock.expireAt ≤ w.now) :
    Inv { w with
      cache.locks := Function.update w.cache.locks version (some ⟨token, expireAt⟩)
      acquisitions := w.acquisitions ++ [⟨server, version, token, expireAt, releasable, false⟩] } := by
  refine ⟨fun a acq ha hlive => ?_, fun v lock hlock => ?_, ?_⟩
  · rcases List.mem_append.mp (List.mem_of_getElem? ha) with hold | hnew
    · -- an older acquisition that is live is of another version, as this one's key was free
      obtain ⟨b, hb⟩ := List.getElem?_of_mem hold
      have hheld := hw.held b acq hb hlive
      have hne : acq.version ≠ version := fun heq =>
        absurd hlive.1 (Int.not_lt.mpr (hfree acq.lock (heq ▸ hheld)))
      exact (Function.update_of_ne hne ..).trans hheld
    · cases List.mem_singleton.mp hnew
      exact Function.update_self ..
  · rw [List.map_append, List.mem_append]
    by_cases hv : v = version
    · subst hv
      cases (Function.update_self ..).symm.trans hlock
      exact .inr List.mem_cons_self
    · exact .inl (hw.known v lock ((Function.update_of_ne hv ..).symm.trans hlock))
  · rw [List.map_append, List.map_singleton, List.nodup_append]
    refine ⟨hw.distinct, List.nodup_singleton _, fun key hkey key' hkey' heq => ?_⟩
    obtain ⟨acq, hacq, rfl⟩ := List.mem_map.mp hkey
    cases heq.trans (List.mem_singleton.mp hkey')
    exact hfresh acq hacq rfl rfl

theorem inv_released (hw : Inv w) (ha : w.acquisitions[a]? = some acq) :
    Inv { w with
      cache := w.cache.releaseGlobalMailRebuildLock acq.version acq.token w.now
      acquisitions := w.acquisitions.set a { acq with released := true } } := by
  refine ⟨fun b acq' hb hlive => ?_, fun v lock hlock => ?_, ?_⟩
  · obtain ⟨hlt, -⟩ := List.getElem?_eq_some_iff.mp ha
    simp only [List.getElem?_set, hlt, if_true] at hb
    split_ifs at hb with hab
    · cases hb
      cases hlive.2
    · exact hw.held_release ha hb (Ne.symm hab) hlive
  · rw [map_set_released ha _ rfl]
    rcases w.cache.release_lock acq.version acq.token w.now v with hsame | ⟨hnone, -⟩
    · exact hw.known v lock (hsame ▸ hlock)
    · cases hnone.symm.trans hlock
  · rw [map_set_released ha _ rfl]
    exact hw.distinct

theorem inv_step {l : Label} (hw : Inv w) (hfresh : FreshToken w l) (h : step w l = some w') : Inv w' := by
  cases step_inv h with
  | pass hnow =>
    refine ⟨fun a acq ha hlive => hw.held a acq ha ⟨?_, hlive.2⟩, hw.known, hw.distinct⟩
    exact Int.lt_of_le_of_lt hnow hlive.1
  | idle => exact hw
  | acquired hexec htried hfree => exact inv_acquired hw (hfresh hexec (by rw [htried])) hfree
  | released ha => exact inv_released hw ha

theorem inv_init {cache : SharedCache} (hlocks : ∀ v, cache.locks v = none) (now : Time) : Inv (init cache now) := by
  refine ⟨fun a acq ha => ?_, fun v lock hlock => ?_, List.nodup_nil⟩
  · simp [init] at ha
  · simp [init, hlocks v] at hlock

theorem rebuildLock_safe {cache : SharedCache} (hlocks : ∀ v, cache.locks v = none) {now : Time} {ls : List Label}
    {w : World} (hfresh : Guarded step FreshToken (init cache now) ls) (h : run step (init cache now) ls = some w) :
    (∀ (a b : Nat) acq acq', w.acquisitions[a]? = some acq → w.acquisitions[b]? = some acq' →
      acq.version = acq'.version → acq.live w.now → acq'.live w.now → a = b) ∧
    (∀ (a : Nat) acq, w.acquisitions[a]? = some acq → acq.live w.now → w.cache.locks acq.version = some acq.lock) ∧
    ∀ (a : Nat) acq outcome w', w.acquisitions[a]? = some acq → step w (.release a outcome) = some w' →
      (∀ v lock, w.cache.locks v = some lock → w'.cache.locks v = some lock ∨ (v = acq.version ∧ lock = acq.lock)) ∧
      ∀ (b : Nat) acq', w.acquisitions[b]? = some acq' → b ≠ a → acq'.live w.now →
        w'.cache.locks acq'.version = some acq'.lock := by
  have hw : Inv w := guarded_invariant (fun _ _ _ hs hok hl => inv_step hs hok hl) (inv_init hlocks now) hfresh h
  refine ⟨fun a b acq acq' => hw.live_unique, hw.held, fun a acq outcome w' ha hstep => ?_⟩
  cases step_inv hstep with
  | idle => exact ⟨fun v lock hlock => .inl hlock, fun b acq' hb _ hlive => hw.held b acq' hb hlive⟩
  | released ha' =>
    cases ha.symm.trans ha'
    exact ⟨fun v lock hlock => hw.release_own ha hlock, fun b acq' hb hne hlive => hw.held_release ha hb hne hlive⟩

def lateRelease : List Label :=
  [.acquire 0 7 1 0 .ok, .pass (31 * second), .acquire 1 7 2 0 .ok, .release 0 .ok, .release 0 .ok,
    .acquire 2 7 3 0 .ok]

def afterLateRelease : World := (run step (init .empty 0) lateRelease).get (by decide)

theorem lateRelease_safe :
    run step (init .empty 0) lateRelease = some afterLateRelease ∧
    afterLateRelease.acquisitions[1]? = some ⟨1, 7, 2, 61 * second, true, false⟩ ∧
    afterLateRelease.cache.locks 7 = some ⟨2, 61 * second⟩ := by
  have hrun : run step (init .empty 0) lateRelease = some afterLateRelease := (Option.some_get _).symm
  obtain ⟨-, hheld, -⟩ := rebuildLock_safe (fun _ => rfl) (by decide) hrun
  exact ⟨hrun, rfl, hheld 1 _ rfl (by decide)⟩

end RebuildLocks

end GlobalMailSystem
