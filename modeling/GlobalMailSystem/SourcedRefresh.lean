import GlobalMailSystem.RefreshSteps
import GlobalMailSystem.RefreshedSnapshot

namespace GlobalMailSystem.Refresh

def PCSourced (mails : Table GlobalMail.id) (cache : SharedCache) : PC → Prop
  | .readDetails _ _ _ _ loaded => ∀ mail ∈ loaded, mail ∈ mails.rows
  | .setMail _ _ _ found mail rest => (∀ m ∈ found, m ∈ mails.rows) ∧ ∀ m ∈ mail :: rest, m ∈ mails.rows
  | .addIndexes _ _ _ found mail rest =>
    (∀ m ∈ found, m ∈ mails.rows) ∧ (∀ m ∈ mail :: rest, m ∈ mails.rows) ∧ cache.Detailed mail
  | .release _ _ _ (some found) => ∀ m ∈ found, m ∈ mails.rows
  | _ => True

def NextSourced (mails : Table GlobalMail.id) (cache : SharedCache) : Next → Prop
  | .goto pc => PCSourced mails cache pc
  | .fail => True
  | .install _ _ found => ∀ m ∈ found, m ∈ mails.rows

structure Sourced (w : World) : Prop where
  sound : LocalCache.Sound w.mails w.cache
  refreshes : ∀ k, PCSourced w.mails w.cache (w.refreshes k)
  snapshots : ∀ k id mail, (w.snapshots k).mailsByID id = some mail → mail ∈ w.mails.rows

theorem PCSourced.mono {mails mails' : Table GlobalMail.id} {c c' : SharedCache}
    (hmails : ∀ mail ∈ mails.rows, mail ∈ mails'.rows) (hg : SharedCache.Grows mails c c') {pc : PC}
    (h : PCSourced mails c pc) : PCSourced mails' c' pc := by
  cases pc with
  | readDetails version now polling ids loaded => exact fun mail hm => hmails mail (h mail hm)
  | setMail version now lock found mail rest =>
    exact ⟨fun m hm => hmails m (h.1 m hm), fun m hm => hmails m (h.2 m hm)⟩
  | addIndexes version now lock found mail rest =>
    obtain ⟨hfound, hrest, hd⟩ := h
    exact ⟨fun m hm => hmails m (hfound m hm), fun m hm => hmails m (hrest m hm),
      hg.details mail (hrest mail List.mem_cons_self) hd⟩
  | release version now token result =>
    cases result with
    | none => trivial
    | some found => exact fun m hm => hmails m (h m hm)
  | idle | readIndex | tryLock | wait | readMySQL => trivial

theorem Sourced.mono {w : World} (hw : Sourced w) {mails : Table GlobalMail.id} {cache : SharedCache}
    (hmails : ∀ mail ∈ w.mails.rows, mail ∈ mails.rows) (hg : SharedCache.Grows w.mails w.cache cache)
    (hsound : LocalCache.Sound mails cache) : Sourced { w with mails, cache } where
  sound := hsound
  refreshes k := (hw.refreshes k).mono hmails hg
  snapshots k id mail hm := hmails mail (hw.snapshots k id mail hm)

section Moves

variable {mails : Table GlobalMail.id} {c c' : SharedCache} {pc : PC} {next : Next}

theorem sourced_miss (version : Int) (now : Time) (polling : Bool) : PCSourced mails c (miss version now polling) := by
  cases polling <;> trivial

theorem sourced_abort (version : Int) (now : Time) (lock : Option Int) :
    NextSourced mails c (abortNext version now lock) := by
  cases lock <;> trivial

theorem sourced_refill (version : Int) (now : Time) (lock : Option Int) {found rest : List GlobalMail}
    (hfound : ∀ m ∈ found, m ∈ mails.rows) (hrest : ∀ m ∈ rest, m ∈ mails.rows) :
    NextSourced mails c (refillNext version now lock found rest) := by
  cases rest with
  | cons mail rest => exact ⟨hfound, hrest⟩
  | nil => cases lock <;> exact hfound

theorem sourced_detail (version : Int) (now : Time) (polling : Bool) (ids : List Int) {loaded : List GlobalMail}
    (hloaded : ∀ m ∈ loaded, m ∈ mails.rows) : NextSourced mails c (detailNext version now polling ids loaded) := by
  cases ids <;> exact hloaded

theorem moves_sourced (h : Moves mails c pc c' next) (hs : LocalCache.Sound mails c) (hpc : PCSourced mails c pc) :
    NextSourced mails c' next := by
  cases h with
  | start | fail | tick | timeout | lockFail | givenUp => trivial
  | indexMiss | detailMiss => exact sourced_miss _ _ _
  | index => exact fun m hm => absurd hm List.not_mem_nil
  | @detail version now clock polling id rest loaded mail hget =>
    apply sourced_detail
    intro m hm
    rcases List.mem_append.mp hm with hm | hm
    · exact hpc m hm
    · obtain ⟨expireAt, hd, _⟩ := SharedCache.getGlobalMail_eq_some hget
      rw [List.mem_singleton.mp hm]
      exact (hs.details id _ hd).1
  | detailsDone => exact hpc
  | lock h =>
    rcases h with ⟨token, rfl⟩ | rfl
    · trivial
    · trivial
  | mysql =>
    apply sourced_refill
    · exact fun m hm => (mem_getPublishedGlobalMails.mp hm).1
    · exact fun m hm => (mem_getPublishedGlobalMails.mp hm).1
  | mysqlFail | setMailFail | addIndexesFail => exact sourced_abort _ _ _
  | setMail => exact ⟨hpc.1, hpc.2, SharedCache.detailed_setGlobalMail _ _ _⟩
  | addIndexes => exact sourced_refill _ _ _ hpc.1 fun m hm => hpc.2.1 m (List.mem_cons_of_mem _ hm)
  | released => exact hpc

theorem moves_sound (h : Moves mails c pc c' next) (hs : LocalCache.Sound mails c) (hpc : PCSourced mails c pc) :
    LocalCache.Sound mails c' ∧ SharedCache.Grows mails c c' := by
  -- only mails that were read from MySQL are written
  cases h.wrote with
  | locks => exact ⟨⟨hs.details, hs.index⟩, fun _ _ hd => hd, fun _ _ hi => hi, le_refl _⟩
  | mail =>
    have hmail := hpc.2 _ List.mem_cons_self
    exact ⟨hs.setGlobalMail hmail _, SharedCache.grows_setGlobalMail hmail _⟩
  | index =>
    have hmail := hpc.2.1 _ List.mem_cons_self
    exact ⟨hs.addGlobalMailToIndexes hmail hpc.2.2, SharedCache.grows_addGlobalMailToIndexes hmail⟩

end Moves

theorem sourced_enter {w : World} (hw : Sourced w) {k : Nat} {next : Next} (hnext : NextSourced w.mails w.cache next) :
    Sourced (w.enter k next) := by
  have hothers {pc : PC} (hpc : PCSourced w.mails w.cache pc) (j : Nat) :
      PCSourced w.mails w.cache (Function.update w.refreshes k pc j) := by
    rw [Function.update_apply]
    split_ifs
    · exact hpc
    · exact hw.refreshes j
  cases next with
  | goto pc => exact ⟨hw.sound, hothers hnext, hw.snapshots⟩
  | fail => exact ⟨hw.sound, hothers trivial, hw.snapshots⟩
  | install version now found =>
    refine ⟨hw.sound, hothers trivial, fun j id mail hmail => ?_⟩
    simp only [World.enter, World.install, Function.update_apply] at hmail
    split_ifs at hmail
    · exact hnext mail (CacheSnapshot.build_mailsByID_mem hmail).1
    · exact hw.snapshots j id mail hmail

structure Keeps (w w' : World) : Prop where
  sourced : Sourced w'
  mails : w'.mails = w.mails
  grows : SharedCache.Grows w.mails w.cache w'.cache
  version : w'.cache.version = w.cache.version

theorem Sourced.keeps_refl {w : World} (hw : Sourced w) : Keeps w w := ⟨hw, rfl, .refl _ _, rfl⟩

theorem keeps_step {w w' : World} {l : Label} (hw : Sourced w) (h : step w l = some w') : Keeps w w' := by
  obtain ⟨cache, next, hmoves, rfl⟩ := step_moved h
  have hpc := hw.refreshes l.server
  obtain ⟨hsound, hgrows⟩ := moves_sound hmoves hw.sound hpc
  have hnext := sourced_enter (k := l.server) (hw.mono (fun _ hm => hm) hgrows hsound) (moves_sourced hmoves hw.sound hpc)
  have hversion := hmoves.cache_version
  cases next with
  | goto pc | fail | install version now found => exact ⟨hnext, rfl, hgrows, hversion⟩

end GlobalMailSystem.Refresh
