import GlobalMailSystem.LocalCache

namespace GlobalMailSystem.LocalCache

section Loads

variable {mails : Table GlobalMail.id} {cache : SharedCache} {mail : GlobalMail} {now : Time}

/-- Redis holds no mail that MySQL does not have, and keeps each until well after it expires. -/
structure Sound (mails : Table GlobalMail.id) (cache : SharedCache) : Prop where
  details : ∀ id cached, cache.details id = some cached →
    cached.mail ∈ mails.rows ∧ cached.mail.id = id ∧
      ∀ expireAt ∈ cached.expireAt, cached.mail.expireTime + 10 * minute ≤ expireAt
  index : cache.Mirrors mails

theorem Sound.mono {mails' : Table GlobalMail.id} (h : Sound mails cache)
    (hmails : ∀ mail ∈ mails.rows, mail ∈ mails'.rows) : Sound mails' cache where
  details id cached hd := by
    obtain ⟨hm, hrest⟩ := h.details id cached hd
    exact ⟨hmails _ hm, hrest⟩
  index e he := by
    obtain ⟨mail, hm, hrest⟩ := h.index e he
    exact ⟨mail, hmails mail hm, hrest⟩

theorem le_mailTTL {ttl : Time} (h : ttl ∈ SharedCache.mailTTL mail now) :
    mail.expireTime + 10 * minute ≤ now + ttl := by
  have hminute : (0 : Time) < minute := by decide
  simp only [SharedCache.mailTTL, Option.mem_def, Option.ite_none_right_eq_some, Option.some.injEq] at h
  obtain ⟨hmax, rfl⟩ := h
  by_cases hle : mail.expireTime - now ≤ SharedCache.maxDuration
  · rw [min_eq_left hle] at hmax ⊢
    split_ifs <;> linarith
  · -- the sum is beyond the longest duration
    have hpos : ¬ SharedCache.maxDuration ≤ 0 := by decide
    rw [min_eq_right (le_of_not_ge hle), if_neg hpos] at hmax
    linarith

theorem le_expireAt {t : Time} (h : t ∈ (SharedCache.mailTTL mail now).map (now + ·)) :
    mail.expireTime + 10 * minute ≤ t := by
  obtain ⟨ttl, httl, rfl⟩ := Option.map_eq_some_iff.mp h
  exact le_mailTTL httl

theorem Sound.setGlobalMail (h : Sound mails cache) (hm : mail ∈ mails.rows) (now : Time) :
    Sound mails (cache.setGlobalMail mail now) where
  details id cached hd := by
    simp only [SharedCache.setGlobalMail, Function.update_apply] at hd
    split_ifs at hd with hid
    · rw [← Option.some.inj hd]
      exact ⟨hm, hid.symm, fun expireAt hexpire => le_expireAt hexpire⟩
    · exact h.details id cached hd
  index := h.index.setGlobalMail hm now

theorem Sound.addGlobalMailToIndexes (h : Sound mails cache) (hm : mail ∈ mails.rows)
    (hd : cache.Detailed mail) : Sound mails (cache.addGlobalMailToIndexes mail) where
  details := h.details
  index := h.index.addGlobalMailToIndexes hm hd

theorem Sound.refillMail (h : Sound mails cache) (now : Time) (hm : mail ∈ mails.rows) :
    Sound mails (refillMail now cache mail) ∧
      SharedCache.Grows mails cache (LocalCache.refillMail now cache mail) := by
  constructor
  · exact (h.setGlobalMail hm now).addGlobalMailToIndexes hm (SharedCache.detailed_setGlobalMail _ _ _)
  · exact (SharedCache.grows_setGlobalMail hm now).trans (SharedCache.grows_addGlobalMailToIndexes hm)
      fun _ h => h

theorem refill_sound {found : List GlobalMail} (hfound : ∀ mail ∈ found, mail ∈ mails.rows)
    (h : Sound mails cache) (now : Time) :
    Sound mails (found.foldl (refillMail now) cache) ∧
      SharedCache.Grows mails cache (found.foldl (refillMail now) cache) := by
  induction found generalizing cache with
  | nil => exact ⟨h, .refl _ _⟩
  | cons mail found ih =>
    obtain ⟨hsound, hgrows⟩ := h.refillMail now (hfound mail List.mem_cons_self)
    obtain ⟨hsound', hgrows'⟩ := ih (fun m hm => hfound m (List.mem_cons_of_mem _ hm)) hsound
    exact ⟨hsound', hgrows.trans hgrows' fun _ h => h⟩

theorem mapM_isSome {α β : Type} {f : α → Option β} {as : List α}
    (h : ∀ a ∈ as, ∃ b, f a = some b) : ∃ bs, as.mapM f = some bs := by
  induction as with
  | nil => exact ⟨[], rfl⟩
  | cons a as ih =>
    obtain ⟨b, hb⟩ := h a List.mem_cons_self
    obtain ⟨bs, hbs⟩ := ih fun x hx => h x (List.mem_cons_of_mem _ hx)
    exact ⟨b :: bs, by rw [List.mapM_cons, hb, hbs]; rfl⟩

theorem mem_mapM {α β : Type} {f : α → Option β} {as : List α} {bs : List β}
    (h : as.mapM f = some bs) {b : β} : b ∈ bs ↔ ∃ a ∈ as, f a = some b := by
  induction as generalizing bs with
  | nil =>
    cases h
    simp
  | cons a as ih =>
    rw [List.mapM_cons] at h
    obtain ⟨c, hc, h⟩ := Option.bind_eq_some_iff.mp h
    obtain ⟨cs, hcs, h⟩ := Option.bind_eq_some_iff.mp h
    cases h
    rw [List.mem_cons, ih hcs, List.exists_mem_cons_iff, hc, Option.some.injEq, eq_comm]

theorem loadFromSharedCache_eq_some {found : List GlobalMail}
    (h : loadFromSharedCache cache now = some found) :
    (cache.getActiveGlobalMailIDs now).mapM (fun mailID => cache.getGlobalMail mailID now) =
      some found := by
  unfold loadFromSharedCache at h
  split at h
  · cases h
  · exact h

theorem loadFromSharedCache_mem (hs : Sound mails cache) {found : List GlobalMail}
    (h : loadFromSharedCache cache now = some found) (hm : mail ∈ found) : mail ∈ mails.rows := by
  obtain ⟨id, _, hget⟩ := (mem_mapM (loadFromSharedCache_eq_some h)).mp hm
  obtain ⟨expireAt, hdetail, _⟩ := SharedCache.getGlobalMail_eq_some hget
  exact (hs.details id _ hdetail).1

theorem getGlobalMail_active (hs : Sound mails cache) {id : Int}
    (hid : id ∈ cache.getActiveGlobalMailIDs now) :
    ∃ mail ∈ mails.rows, mail.id = id ∧ cache.getGlobalMail id now = some mail := by
  -- an entry is read only until the second in which its mail expires, so its detail is still there
  obtain ⟨e, he, rfl, hscore⟩ := SharedCache.mem_getActiveGlobalMailIDs.mp hid
  obtain ⟨mail, hm, rfl, expireAt, hdetail⟩ := hs.index e he
  have hkept := (hs.details _ _ hdetail).2.2
  have hexpire := lt_of_unix_le hscore
  have hgrace : (second : Time) ≤ 10 * minute := by decide
  refine ⟨mail, hm, rfl, SharedCache.getGlobalMail_of_live hdetail fun t ht => ?_⟩
  have := hkept t ht
  linarith

theorem loadFromSharedCache_hit (hs : Sound mails cache) (hm : mail ∈ mails.rows)
    (hi : cache.Indexed mail) (hnow : now < mail.expireTime) :
    ∃ found, loadFromSharedCache cache now = some found ∧ mail ∈ found := by
  have hid : mail.id ∈ cache.getActiveGlobalMailIDs now :=
    SharedCache.mem_getActiveGlobalMailIDs.mpr ⟨_, hi.1, rfl, unix_mono (le_of_lt hnow)⟩
  have hsome : ∀ id ∈ cache.getActiveGlobalMailIDs now, ∃ m, cache.getGlobalMail id now = some m := by
    intro id hid
    obtain ⟨m, _, _, hget⟩ := getGlobalMail_active hs hid
    exact ⟨m, hget⟩
  obtain ⟨found, hfound⟩ := mapM_isSome hsome
  refine ⟨found, ?_, ?_⟩
  · unfold loadFromSharedCache
    split
    · rename_i hnil
      rw [hnil] at hid
      exact absurd hid List.not_mem_nil
    · exact hfound
  · obtain ⟨m, hrow, he, hget⟩ := getGlobalMail_active hs hid
    obtain rfl : m = mail := mails.row_unique hrow hm he
    exact (mem_mapM hfound).mpr ⟨_, hid, hget⟩

structure Loaded (mails : Table GlobalMail.id) (cache : SharedCache)
    (r : SharedCache × List GlobalMail) : Prop where
  sound : Sound mails r.1
  grows : SharedCache.Grows mails cache r.1
  stored : ∀ mail ∈ r.2, mail ∈ mails.rows

theorem Loaded.locks {r : SharedCache × List GlobalMail} (h : Loaded mails cache r)
    (locks : Int → Option RebuildLock) : Loaded mails cache ({ r.1 with locks }, r.2) where
  sound := ⟨h.sound.details, h.sound.index⟩
  grows := ⟨h.grows.details, h.grows.indexes, h.grows.version⟩
  stored := h.stored

theorem loadPublished_loaded (hs : Sound mails cache) (now : Time) :
    Loaded mails cache (loadPublishedFromMySQLAndRefill mails cache now) := by
  have hstored : ∀ mail ∈ getPublishedGlobalMails mails now, mail ∈ mails.rows :=
    fun mail hm => (mem_getPublishedGlobalMails.mp hm).1
  obtain ⟨hsound, hgrows⟩ := refill_sound hstored hs now
  exact ⟨hsound, hgrows, hstored⟩

theorem Loaded.of_locks {locks : Int → Option RebuildLock} {r : SharedCache × List GlobalMail}
    (h : Loaded mails { cache with locks } r) : Loaded mails cache r where
  sound := h.sound
  grows := ⟨h.grows.details, h.grows.indexes, h.grows.version⟩
  stored := h.stored

theorem loadFromSharedCache_loaded (hs : Sound mails cache) {found : List GlobalMail}
    (h : loadFromSharedCache cache now = some found) : Loaded mails cache (cache, found) where
  sound := hs
  grows := .refl _ _
  stored _ hm := loadFromSharedCache_mem hs h hm

theorem rebuildSharedCache_loaded (hs : Sound mails cache) (version : Int) (now : Time) (token : Int) :
    Loaded mails cache (rebuildSharedCache mails cache version now token) := by
  obtain ⟨locks, hlocks⟩ :=
    cache.tryAcquire_locks version token Refresh.globalMailRebuildLockTTL now
  have hlocked : Sound mails { cache with locks } := ⟨hs.details, hs.index⟩
  by_cases hacquired : (cache.tryAcquireGlobalMailRebuildLock version token
      Refresh.globalMailRebuildLockTTL now).2 = true
  · rw [rebuildSharedCache_acquired hacquired, hlocks]
    obtain ⟨released, hreleased⟩ := SharedCache.release_locks
      (loadPublishedFromMySQLAndRefill mails { cache with locks } now).1 version token now
    have hloaded := (loadPublished_loaded hlocked now).locks released
    rw [← hreleased] at hloaded
    exact hloaded.of_locks
  · rw [rebuildSharedCache_waiting hacquired, hlocks]
    split
    · rename_i found hfound
      exact (loadFromSharedCache_loaded hlocked hfound).of_locks
    · exact (loadPublished_loaded hlocked now).of_locks

theorem loadMails_loaded (hs : Sound mails cache) (version : Int) (now : Time) (token : Int) :
    Loaded mails cache (loadMails mails cache version now token) := by
  unfold loadMails
  split
  · rename_i found hfound
    exact loadFromSharedCache_loaded hs hfound
  · exact rebuildSharedCache_loaded hs version now token

structure Refreshed (mails : Table GlobalMail.id) (cache : SharedCache) (now : Time)
    (r : SharedCache × CacheSnapshot) : Prop where
  sound : Sound mails r.1
  grows : SharedCache.Grows mails cache r.1
  stored : ∀ id mail, r.2.mailsByID id = some mail → mail ∈ mails.rows ∧ mail.id = id
  time : r.2.lastRefreshTime = now
  shows : ∀ mail ∈ mails.rows, cache.Indexed mail → now < mail.expireTime →
    r.2.mailsByID mail.id = some mail

theorem refresh_refreshed (hs : Sound mails cache) (version : Int) (now : Time) (token : Int) :
    Refreshed mails cache now (refresh mails cache version now token) := by
  have hloaded := loadMails_loaded hs version now token
  have hstored : ∀ id mail, (refresh mails cache version now token).2.mailsByID id = some mail →
      mail ∈ mails.rows ∧ mail.id = id := by
    intro id mail hmail
    obtain ⟨hm, hid⟩ := CacheSnapshot.build_mailsByID_mem hmail
    exact ⟨hloaded.stored mail hm, hid⟩
  refine ⟨hloaded.sound, hloaded.grows, hstored, CacheSnapshot.build_lastRefreshTime _ _ _, ?_⟩
  intro mail hm hi hnow
  obtain ⟨found, hfound, hmem⟩ := loadFromSharedCache_hit hs hm hi hnow
  have hload : loadMails mails cache version now token = (cache, found) := by
    simp only [loadMails, hfound]
  obtain ⟨m, hbuilt⟩ := CacheSnapshot.build_mailsByID_isSome version now hmem
  rw [← show (refresh mails cache version now token).2 = CacheSnapshot.build version found now from by
    simp only [refresh, hload]] at hbuilt
  obtain ⟨hrow, hid⟩ := hstored mail.id m hbuilt
  rw [hbuilt, mails.row_unique hrow hm hid]

theorem refreshIfStale_cases (hs : Sound mails cache) (snapshot : CacheSnapshot) (now : Time)
    (token : Int) :
    (cache.version ≤ snapshot.version ∧
        refreshIfStale mails cache snapshot now token = (cache, snapshot)) ∨
      Refreshed mails cache now (refreshIfStale mails cache snapshot now token) := by
  simp only [refreshIfStale]
  split_ifs with hfresh
  · exact Or.inl ⟨hfresh, rfl⟩
  · exact Or.inr (refresh_refreshed hs _ now token)

theorem handle_cases (hs : Sound mails cache) (snapshot : CacheSnapshot)
    (event : GlobalMailChangedEvent) (now : Time) (token : Int) :
    (event.version ≤ snapshot.version ∧
        EventConsumer.handle mails cache snapshot event now token = (cache, snapshot)) ∨
      Refreshed mails cache now (EventConsumer.handle mails cache snapshot event now token) := by
  unfold EventConsumer.handle
  split_ifs with hfresh
  · exact Or.inl ⟨hfresh.2, rfl⟩
  · exact Or.inr (refresh_refreshed hs _ now token)

end Loads

end GlobalMailSystem.LocalCache
