import GlobalMailSystem.RefreshSteps

namespace GlobalMailSystem.Refresh

open Transition

def Complete (mails : Table GlobalMail.id) (snapshot : CacheSnapshot) : Prop :=
  ∀ mail ∈ mails.rows, mail.status = .published → mail.inWindow snapshot.lastRefreshTime →
    snapshot.mailsByID mail.id = some mail

/-- A refresh reads an index that is not empty and does not list every mail it should find. -/
def readsPartialIndex (w : World) : Label → Bool
  | .work k _ _ .ok =>
    match w.refreshes k with
    | .readIndex _ now _ =>
      let ids := w.cache.getActiveGlobalMailIDs now
      ids ≠ [] && !(getPublishedGlobalMails w.mails now).all fun mail => mail.id ∈ ids
    | _ => false
  | _ => false

def Listed (mails : Table GlobalMail.id) (cache : SharedCache) (id : Int) : Prop :=
  ∃ mail ∈ mails.rows, mail.id = id ∧ cache.Detailed mail

def PCOk (mails : Table GlobalMail.id) (cache : SharedCache) : PC → Prop
  | .readDetails _ now _ ids loaded =>
    (∀ mail ∈ loaded, mail ∈ mails.rows) ∧ (∀ id ∈ ids, Listed mails cache id) ∧
      ∀ mail ∈ getPublishedGlobalMails mails now, mail ∈ loaded ∨ mail.id ∈ ids
  | .setMail _ now _ found mail rest =>
    found = getPublishedGlobalMails mails now ∧ ∀ m ∈ mail :: rest, m ∈ mails.rows
  | .addIndexes _ now _ found mail rest =>
    found = getPublishedGlobalMails mails now ∧ (∀ m ∈ mail :: rest, m ∈ mails.rows) ∧
      cache.Detailed mail
  | .release _ now _ (some found) => found = getPublishedGlobalMails mails now
  | _ => True

structure Inv (mails : Table GlobalMail.id) (w : World) : Prop where
  fixed : w.mails = mails
  index : w.cache.Mirrors w.mails
  refreshes : ∀ k, PCOk w.mails w.cache (w.refreshes k)
  installed : ∀ entry ∈ w.installed, Complete w.mails entry.2

theorem Listed.mono {mails : Table GlobalMail.id} {c c' : SharedCache}
    (hg : SharedCache.Grows mails c c') {id : Int} (h : Listed mails c id) : Listed mails c' id := by
  obtain ⟨mail, hm, hid, hd⟩ := h
  exact ⟨mail, hm, hid, hg.details mail hm hd⟩

theorem PCOk.mono {mails : Table GlobalMail.id} {c c' : SharedCache}
    (hg : SharedCache.Grows mails c c') {pc : PC} (h : PCOk mails c pc) : PCOk mails c' pc := by
  cases pc with
  | readDetails version now polling ids loaded =>
    obtain ⟨hloaded, hids, hcover⟩ := h
    exact ⟨hloaded, fun id hid => (hids id hid).mono hg, hcover⟩
  | addIndexes version now lock found mail rest =>
    obtain ⟨hfound, hrows, hd⟩ := h
    exact ⟨hfound, hrows, hg.details mail (hrows mail List.mem_cons_self) hd⟩
  | release version now token result => cases result <;> exact h
  | idle | readIndex | tryLock | wait | readMySQL | setMail => exact h

theorem complete_build {mails : Table GlobalMail.id} {loaded : List GlobalMail} {version : Int}
    {now : Time} (hrows : ∀ mail ∈ loaded, mail ∈ mails.rows)
    (hcover : ∀ mail ∈ getPublishedGlobalMails mails now, mail ∈ loaded) :
    Complete mails (CacheSnapshot.build version loaded now) := by
  intro mail hmail hpublished hwindow
  rw [CacheSnapshot.build_lastRefreshTime] at hwindow
  have hloaded := hcover mail (mem_getPublishedGlobalMails.mpr ⟨hmail, hpublished, hwindow⟩)
  obtain ⟨m, hm⟩ := CacheSnapshot.build_mailsByID_isSome version now hloaded
  obtain ⟨hmem, hid⟩ := CacheSnapshot.build_mailsByID_mem hm
  rw [hm, mails.row_unique (hrows m hmem) hmail hid]

theorem complete_published (mails : Table GlobalMail.id) (version : Int) (now : Time) :
    Complete mails (CacheSnapshot.build version (getPublishedGlobalMails mails now) now) :=
  complete_build (fun _ h => (mem_getPublishedGlobalMails.mp h).1) fun _ h => h

def NextOk (mails : Table GlobalMail.id) (cache : SharedCache) : Next → Prop
  | .goto pc => PCOk mails cache pc
  | .fail => True
  | .install version now found => Complete mails (.build version found now)

theorem inv_enter {mails : Table GlobalMail.id} {w : World} (hw : Inv mails w) {cache : SharedCache}
    (hg : SharedCache.Grows w.mails w.cache cache) (hindex : cache.Mirrors w.mails) (k : Nat) {next : Next}
    (hnext : NextOk w.mails cache next) : Inv mails ({ w with cache }.enter k next) := by
  have hothers {pc : PC} (hpc : PCOk w.mails cache pc) (j : Nat) :
      PCOk w.mails cache (Function.update w.refreshes k pc j) := by
    rw [Function.update_apply]
    split_ifs
    · exact hpc
    · exact (hw.refreshes j).mono hg
  cases next with
  | goto pc => exact ⟨hw.fixed, hindex, hothers hnext, hw.installed⟩
  | fail => exact ⟨hw.fixed, hindex, hothers trivial, hw.installed⟩
  | install version now found =>
    refine ⟨hw.fixed, hindex, hothers trivial, fun entry he => ?_⟩
    rcases List.mem_append.mp he with he | he
    · exact hw.installed entry he
    · rw [List.mem_singleton.mp he]
      exact hnext

section Stages

variable {mails : Table GlobalMail.id} {cache : SharedCache}

theorem ok_miss (version : Int) (now : Time) (polling : Bool) : PCOk mails cache (miss version now polling) := by
  cases polling <;> trivial

theorem ok_abort (version : Int) (now : Time) (lock : Option Int) :
    NextOk mails cache (abortNext version now lock) := by
  cases lock <;> trivial

theorem ok_refill (version : Int) {now : Time} (lock : Option Int) {found rest : List GlobalMail}
    (hfound : found = getPublishedGlobalMails mails now) (hrest : ∀ mail ∈ rest, mail ∈ mails.rows) :
    NextOk mails cache (refillNext version now lock found rest) := by
  cases rest with
  | cons mail rest => exact ⟨hfound, hrest⟩
  | nil =>
    cases lock with
    | some token => exact hfound
    | none =>
      subst hfound
      exact complete_published mails version now

theorem ok_index (hindex : cache.Mirrors mails) (version : Int) {now : Time} (polling : Bool)
    (hcover : ∀ mail ∈ getPublishedGlobalMails mails now, mail.id ∈ cache.getActiveGlobalMailIDs now) :
    PCOk mails cache (.readDetails version now polling (cache.getActiveGlobalMailIDs now) []) := by
  refine ⟨fun mail h => absurd h List.not_mem_nil, fun id hid => ?_, fun mail hm => Or.inr (hcover mail hm)⟩
  obtain ⟨e, he, rfl, _⟩ := SharedCache.mem_getActiveGlobalMailIDs.mp hid
  obtain ⟨mail, hm, rfl, hd⟩ := hindex e he
  exact ⟨mail, hm, rfl, hd⟩

theorem ok_detailsDone {version : Int} {now : Time} {polling : Bool} {loaded : List GlobalMail}
    (hpc : PCOk mails cache (.readDetails version now polling [] loaded)) :
    NextOk mails cache (.install version now loaded) :=
  complete_build hpc.1 fun m hm => (hpc.2.2 m hm).resolve_right List.not_mem_nil

theorem ok_loaded {version : Int} {now clock : Time} {polling : Bool} {id : Int} {rest : List Int}
    {loaded : List GlobalMail} {mail : GlobalMail}
    (hpc : PCOk mails cache (.readDetails version now polling (id :: rest) loaded))
    (hget : cache.getGlobalMail id clock = some mail) :
    PCOk mails cache (.readDetails version now polling rest (loaded ++ [mail])) := by
  -- the detail of a listed id is the row of MySQL, so the mails still to come are those of the ids left
  obtain ⟨hloaded, hids, hcover⟩ := hpc
  obtain ⟨stored, hstored, hid, expireAt, hdetail⟩ := hids id List.mem_cons_self
  obtain ⟨_, hread, _⟩ := SharedCache.getGlobalMail_eq_some hget
  have hmail : mail = stored := by
    rw [hid, hread] at hdetail
    exact congrArg CachedMail.mail (Option.some.inj hdetail)
  refine ⟨fun m hm => ?_, fun i hi => hids i (List.mem_cons_of_mem _ hi), fun m hm => ?_⟩
  · rcases List.mem_append.mp hm with hm | hm
    · exact hloaded m hm
    · rw [List.mem_singleton.mp hm, hmail]
      exact hstored
  · rcases hcover m hm with hl | hl
    · exact Or.inl (List.mem_append_left _ hl)
    · rcases List.mem_cons.mp hl with hl | hl
      · have hrow := (mem_getPublishedGlobalMails.mp hm).1
        have he : m = mail := hmail ▸ mails.row_unique hrow hstored (hl.trans hid.symm)
        exact Or.inl (List.mem_append_right _ (List.mem_singleton.mpr he))
      · exact Or.inr hl

theorem ok_detail {version : Int} {now clock : Time} {polling : Bool} {id : Int} {rest : List Int}
    {loaded : List GlobalMail} {mail : GlobalMail}
    (hpc : PCOk mails cache (.readDetails version now polling (id :: rest) loaded))
    (hget : cache.getGlobalMail id clock = some mail) :
    NextOk mails cache (detailNext version now polling rest (loaded ++ [mail])) := by
  have hloaded := ok_loaded hpc hget
  cases rest with
  | nil => exact ok_detailsDone hloaded
  | cons next rest => exact hloaded

end Stages

section Moves

variable {mails : Table GlobalMail.id} {c c' : SharedCache} {pc : PC} {next : Next}

theorem moves_cache (h : Moves mails c pc c' next) (hindex : c.Mirrors mails) (hpc : PCOk mails c pc) :
    SharedCache.Grows mails c c' ∧ c'.Mirrors mails := by
  cases h.wrote with
  | locks => exact ⟨⟨fun _ _ hd => hd, fun _ _ hi => hi, le_refl _⟩, hindex⟩
  | mail =>
    have hmail := hpc.2 _ List.mem_cons_self
    exact ⟨SharedCache.grows_setGlobalMail hmail _, hindex.setGlobalMail hmail _⟩
  | index =>
    have hmail := hpc.2.1 _ List.mem_cons_self
    exact ⟨SharedCache.grows_addGlobalMailToIndexes hmail, hindex.addGlobalMailToIndexes hmail hpc.2.2⟩

theorem moves_ok (h : Moves mails c pc c' next) (hindex : c.Mirrors mails) (hpc : PCOk mails c pc)
    (hcover : ∀ version now polling, pc = .readIndex version now polling →
      next = .goto (.readDetails version now polling (c.getActiveGlobalMailIDs now) []) →
      c.getActiveGlobalMailIDs now ≠ [] →
      ∀ mail ∈ getPublishedGlobalMails mails now, mail.id ∈ c.getActiveGlobalMailIDs now) :
    NextOk mails c' next := by
  cases h with
  | start | fail | tick | timeout | lockFail | givenUp => trivial
  | indexMiss | detailMiss => exact ok_miss _ _ _
  | @index version now polling hne => exact ok_index hindex version polling (hcover _ _ _ rfl rfl hne)
  | detail hget => exact ok_detail hpc hget
  | detailsDone => exact ok_detailsDone hpc
  | lock h =>
    rcases h with ⟨token, rfl⟩ | rfl
    · trivial
    · trivial
  | mysql => exact ok_refill _ _ rfl fun mail hm => (mem_getPublishedGlobalMails.mp hm).1
  | mysqlFail | setMailFail | addIndexesFail => exact ok_abort _ _ _
  | setMail => exact ⟨hpc.1, hpc.2, SharedCache.detailed_setGlobalMail _ _ _⟩
  | addIndexes => exact ok_refill _ _ hpc.1 fun m hm => hpc.2.1 m (List.mem_cons_of_mem _ hm)
  | @released version _ now =>
    rw [show _ = getPublishedGlobalMails mails now from hpc]
    exact complete_published mails version now

end Moves

theorem index_covers {w w' : World} {l : Label} (hguard : readsPartialIndex w l = false) (h : step w l = some w')
    {version : Int} {now : Time} {polling : Bool} (hk : w.refreshes l.server = .readIndex version now polling)
    {ids : List Int} (hnext : w'.refreshes l.server = .readDetails version now polling ids [])
    (hne : w.cache.getActiveGlobalMailIDs now ≠ []) :
    ∀ mail ∈ getPublishedGlobalMails w.mails now, mail.id ∈ w.cache.getActiveGlobalMailIDs now := by
  cases l with
  | start k v t | tick k | timeout k | cancel k =>
    change w.refreshes k = _ at hk
    simp [step, hk] at h
  | work k clock token outcome =>
    change w.refreshes k = _ at hk
    cases outcome with
    | ok => simpa [readsPartialIndex, hk, hne] using hguard
    | failed err | lost err =>
      simp only [step, work, hk, Option.some.injEq] at h
      simp [← h, World.fail, Label.server] at hnext

theorem inv_step {mails : Table GlobalMail.id} {w w' : World} (hw : Inv mails w) {l : Label}
    (hguard : readsPartialIndex w l = false) (h : step w l = some w') : Inv mails w' := by
  obtain ⟨cache, next, hmoves, rfl⟩ := step_moved h
  have hpc := hw.refreshes l.server
  obtain ⟨hg, hindex⟩ := moves_cache hmoves hw.index hpc
  apply inv_enter hw hg hindex
  apply moves_ok hmoves hw.index hpc
  rintro version now polling hk rfl hne
  exact index_covers hguard h hk (Function.update_self _ _ _) hne

theorem inv_init (mails : Table GlobalMail.id) {cache : SharedCache}
    (hempty : cache.activeIndex.rows = []) : Inv mails (init mails cache) := by
  refine ⟨rfl, fun e he => ?_, fun k => trivial, fun entry he => absurd he List.not_mem_nil⟩
  rw [show (init mails cache).cache.activeIndex.rows = [] from hempty] at he
  exact absurd he List.not_mem_nil

theorem hit_complete (mails : Table GlobalMail.id) (cache : SharedCache) (ls : List Label) (w : World)
    (hempty : cache.activeIndex.rows = [])
    (hg : Guarded step (fun w l => readsPartialIndex w l = false) (init mails cache) ls)
    (h : run step (init mails cache) ls = some w) :
    ∀ entry ∈ w.installed, Complete mails entry.2 := by
  have hw : Inv mails w := guarded_invariant (fun s l t hs hok hl => inv_step hs hok hl)
    (inv_init mails hempty) hg h
  intro entry he
  rw [← hw.fixed]
  exact hw.installed entry he

def announced (id : Int) : GlobalMail :=
  { (default : GlobalMail) with
    id, startTime := 0, expireTime := 90 * minute, status := .published }

def twoMails : Table GlobalMail.id := ⟨[announced 1, announced 2], by decide⟩

def halfRefill : List Label :=
  .start 0 1 5 :: List.replicate 5 (.work 0 6 77 .ok)

def fullRefill : List Label :=
  halfRefill ++ List.replicate 3 (.work 0 7 77 .ok)

def hit (k ids : Nat) : List Label :=
  .start k 1 8 :: List.replicate (1 + ids) (.work k 9 78 .ok)

theorem fullRefill_complete :
    ∃ w, run step (init twoMails .empty) (fullRefill ++ hit 1 2) = some w ∧ w.installed.length = 2 ∧
      ∀ entry ∈ w.installed, Complete twoMails entry.2 := by
  have hrun : run step (init twoMails .empty) (fullRefill ++ hit 1 2) =
      some ((run step (init twoMails .empty) (fullRefill ++ hit 1 2)).get (by decide)) :=
    (Option.some_get _).symm
  exact ⟨_, hrun, by decide, hit_complete _ _ _ _ rfl (by decide) hrun⟩

def failedRefill : List Label :=
  halfRefill ++ .work 0 7 77 (.failed "redis") :: hit 1 1

theorem failedRefill_incomplete :
    ∃ w, run step (init twoMails .empty) failedRefill = some w ∧
      ∃ entry ∈ w.installed, ¬ Complete twoMails entry.2 := by
  have hrun : run step (init twoMails .empty) failedRefill =
      some ((run step (init twoMails .empty) failedRefill).get (by decide)) :=
    (Option.some_get _).symm
  have hmissing : ∃ entry ∈ ((run step (init twoMails .empty) failedRefill).get (by decide)).installed,
      entry.2.lastRefreshTime = 8 ∧ (entry.2.mailsByID 2).isNone := by decide
  obtain ⟨entry, he, htime, hnone⟩ := hmissing
  refine ⟨_, hrun, entry, he, fun hc => ?_⟩
  have hfound : entry.2.mailsByID 2 = some (announced 2) := by
    apply hc (announced 2) (by simp [twoMails]) rfl
    rw [htime]
    decide
  rw [hfound] at hnone
  cases hnone

end GlobalMailSystem.Refresh
