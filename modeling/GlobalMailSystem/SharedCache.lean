import GlobalMailSystem.Snapshot
import GlobalMailSystem.Table

namespace GlobalMailSystem

structure CachedMail where
  mail : GlobalMail
  expireAt : Option Time

structure IndexEntry where
  member : Int
  score : Int
  deriving DecidableEq

structure RebuildLock where
  token : Int
  expireAt : Time
  deriving DecidableEq

/-- The keys `data/redis` keeps for global mails; a missing `GlobalMailVersion` reads as 0. -/
structure SharedCache where
  version : Int
  details : Int → Option CachedMail
  activeIndex : Table IndexEntry.member
  mailsByServer : Int → List Int
  locks : Int → Option RebuildLock

namespace SharedCache

def empty : SharedCache := ⟨0, fun _ => none, .empty, fun _ => [], fun _ => none⟩

def maxDuration : Time := 9223372036854775807

/-- `time.Until` stops at `maxDuration`. The sum wraps below zero beyond it, and then no TTL is sent. -/
def mailTTL (mail : GlobalMail) (now : Time) : Option Time :=
  let remaining := min (mail.expireTime - now) maxDuration
  let ttl := (if remaining ≤ 0 then 60 * minute else remaining) + 10 * minute
  if ttl ≤ maxDuration then some ttl else none

def setGlobalMail (c : SharedCache) (mail : GlobalMail) (now : Time) : SharedCache :=
  { c with details := Function.update c.details mail.id (some ⟨mail, (mailTTL mail now).map (now + ·)⟩) }

def getGlobalMail (c : SharedCache) (mailID : Int) (now : Time) : Option GlobalMail :=
  match c.details mailID with
  | none => none
  | some cached => if cached.expireAt.all (now < ·) then some cached.mail else none

def rankedBefore (a b : IndexEntry) : Bool :=
  a.score < b.score || (a.score = b.score && toString a.member ≤ toString b.member)

def getActiveGlobalMailIDs (c : SharedCache) (now : Time) : List Int :=
  ((c.activeIndex.rows.filter fun e => unix now ≤ e.score).insertionSort
    (fun a b => rankedBefore a b = true)).map (·.member)

def indexEntry (mail : GlobalMail) : IndexEntry := ⟨mail.id, unix mail.expireTime⟩

def addMember (mailID : Int) (sets : Int → List Int) (serverID : Int) : Int → List Int :=
  Function.update sets serverID ((sets serverID).insert mailID)

def addGlobalMailToIndexes (c : SharedCache) (mail : GlobalMail) : SharedCache :=
  { c with
    activeIndex := c.activeIndex.upsert (indexEntry mail)
    mailsByServer :=
      (serverIDsFromConditions mail.conditions).foldl (addMember mail.id) c.mailsByServer }

def advanceGlobalMailVersion (c : SharedCache) (target : Int) : SharedCache :=
  { c with version := if c.version < target then target else c.version }

def tryAcquireGlobalMailRebuildLock (c : SharedCache) (version token : Int) (ttl : Time) (now : Time) :
    SharedCache × Bool :=
  let held := match c.locks version with
    | none => false
    | some lock => now < lock.expireAt
  let ttl := if ttl ≤ 0 then 30 * second else ttl
  if held then (c, false)
  else ({ c with locks := Function.update c.locks version (some ⟨token, now + ttl⟩) }, true)

def releaseGlobalMailRebuildLock (c : SharedCache) (version token : Int) (now : Time) : SharedCache :=
  match c.locks version with
  | none => c
  | some lock =>
    if now < lock.expireAt ∧ lock.token = token then
      { c with locks := Function.update c.locks version none }
    else c

theorem tryAcquire_locks (c : SharedCache) (version token : Int) (ttl now : Time) :
    ∃ locks, (c.tryAcquireGlobalMailRebuildLock version token ttl now).1 = { c with locks } := by
  simp only [tryAcquireGlobalMailRebuildLock]
  split_ifs <;> exact ⟨_, rfl⟩

theorem release_locks (c : SharedCache) (version token : Int) (now : Time) :
    ∃ locks, c.releaseGlobalMailRebuildLock version token now = { c with locks } := by
  unfold releaseGlobalMailRebuildLock
  split
  · exact ⟨_, rfl⟩
  · split_ifs <;> exact ⟨_, rfl⟩

inductive Write
  | setGlobalMail (mail : GlobalMail) (now : Time)
  | addGlobalMailToIndexes (mail : GlobalMail)
  | advanceGlobalMailVersion (target : Int)

def apply (c : SharedCache) : Write → SharedCache
  | .setGlobalMail mail now => c.setGlobalMail mail now
  | .addGlobalMailToIndexes mail => c.addGlobalMailToIndexes mail
  | .advanceGlobalMailVersion target => c.advanceGlobalMailVersion target

theorem mem_getActiveGlobalMailIDs {c : SharedCache} {now : Time} {id : Int} :
    id ∈ c.getActiveGlobalMailIDs now ↔
      ∃ e ∈ c.activeIndex.rows, e.member = id ∧ unix now ≤ e.score := by
  simp only [getActiveGlobalMailIDs, List.mem_map, List.mem_insertionSort, List.mem_filter,
    decide_eq_true_eq]
  constructor
  · rintro ⟨e, ⟨he, hs⟩, rfl⟩
    exact ⟨e, he, rfl, hs⟩
  · rintro ⟨e, he, rfl, hs⟩
    exact ⟨e, ⟨he, hs⟩, rfl⟩

theorem mem_addMember (mailID : Int) (sets : Int → List Int) (serverID other id : Int) :
    id ∈ addMember mailID sets serverID other ↔ id ∈ sets other ∨ (id = mailID ∧ other = serverID) := by
  simp only [addMember, Function.update_apply]
  split_ifs with hs
  · simp [hs, or_comm]
  · simp [hs]

theorem le_advance (c : SharedCache) (target : Int) :
    c.version ≤ (c.advanceGlobalMailVersion target).version ∧
      target ≤ (c.advanceGlobalMailVersion target).version := by
  simp only [advanceGlobalMailVersion]
  split_ifs <;> omega

def Detailed (c : SharedCache) (mail : GlobalMail) : Prop :=
  ∃ expireAt, c.details mail.id = some ⟨mail, expireAt⟩

def Indexed (c : SharedCache) (mail : GlobalMail) : Prop :=
  indexEntry mail ∈ c.activeIndex.rows ∧
    ∀ serverID ∈ serverIDsFromConditions mail.conditions, mail.id ∈ c.mailsByServer serverID

theorem detailed_setGlobalMail (c : SharedCache) (mail : GlobalMail) (now : Time) :
    (c.setGlobalMail mail now).Detailed mail :=
  ⟨_, by simp only [setGlobalMail, Function.update_self]; rfl⟩

theorem indexed_addGlobalMailToIndexes (c : SharedCache) (mail : GlobalMail) :
    (c.addGlobalMailToIndexes mail).Indexed mail :=
  ⟨Table.mem_upsert.mpr (Or.inl rfl),
    fun _ h => (CacheSnapshot.mem_foldl_index (mem_addMember _) _ _ _ _).mpr (Or.inr ⟨rfl, h⟩)⟩

theorem Detailed.setGlobalMail {c : SharedCache} {mail other : GlobalMail} {now : Time}
    (h : c.Detailed mail) (hid : other.id = mail.id → other = mail) :
    (c.setGlobalMail other now).Detailed mail := by
  by_cases he : other.id = mail.id
  · rw [hid he]
    exact detailed_setGlobalMail c mail now
  · obtain ⟨expireAt, hd⟩ := h
    exact ⟨expireAt, by simp only [SharedCache.setGlobalMail, Function.update_of_ne (Ne.symm he), hd]⟩

theorem Indexed.addGlobalMailToIndexes {c : SharedCache} {mail other : GlobalMail}
    (h : c.Indexed mail) (hid : other.id = mail.id → other = mail) :
    (c.addGlobalMailToIndexes other).Indexed mail := by
  by_cases he : other.id = mail.id
  · rw [hid he]
    exact indexed_addGlobalMailToIndexes c mail
  · refine ⟨Table.mem_upsert.mpr (Or.inr ⟨h.1, Ne.symm he⟩), fun serverID hs => ?_⟩
    exact (CacheSnapshot.mem_foldl_index (mem_addMember _) _ _ _ _).mpr (Or.inl (h.2 serverID hs))

structure Grows (mails : Table GlobalMail.id) (c c' : SharedCache) : Prop where
  details : ∀ mail ∈ mails.rows, c.Detailed mail → c'.Detailed mail
  indexes : ∀ mail ∈ mails.rows, c.Indexed mail → c'.Indexed mail
  version : c.version ≤ c'.version

theorem Grows.refl (mails : Table GlobalMail.id) (c : SharedCache) : Grows mails c c :=
  ⟨fun _ _ h => h, fun _ _ h => h, le_refl _⟩

theorem Grows.trans {mails mails' : Table GlobalMail.id} {a b c : SharedCache} (hab : Grows mails a b)
    (hbc : Grows mails' b c) (hmails : ∀ mail ∈ mails.rows, mail ∈ mails'.rows) : Grows mails a c where
  details mail hm h := hbc.details mail (hmails mail hm) (hab.details mail hm h)
  indexes mail hm h := hbc.indexes mail (hmails mail hm) (hab.indexes mail hm h)
  version := hab.version.trans hbc.version

def Mirrors (mails : Table GlobalMail.id) (c : SharedCache) : Prop :=
  ∀ e ∈ c.activeIndex.rows, ∃ mail ∈ mails.rows, e = indexEntry mail ∧ c.Detailed mail

section Writes

variable {mails : Table GlobalMail.id} {c : SharedCache} {mail : GlobalMail}

theorem grows_setGlobalMail (hm : mail ∈ mails.rows) (now : Time) :
    Grows mails c (c.setGlobalMail mail now) where
  details _ ho h := h.setGlobalMail fun he => mails.row_unique hm ho he
  indexes _ _ h := h
  version := le_refl _

theorem grows_addGlobalMailToIndexes (hm : mail ∈ mails.rows) :
    Grows mails c (c.addGlobalMailToIndexes mail) where
  details _ _ h := h
  indexes _ ho h := h.addGlobalMailToIndexes fun he => mails.row_unique hm ho he
  version := le_refl _

theorem grows_advance (target : Int) : Grows mails c (c.advanceGlobalMailVersion target) where
  details _ _ h := h
  indexes _ _ h := h
  version := (le_advance c target).1

theorem Mirrors.setGlobalMail (h : c.Mirrors mails) (hm : mail ∈ mails.rows) (now : Time) :
    (c.setGlobalMail mail now).Mirrors mails := by
  intro e he
  obtain ⟨other, ho, rfl, hd⟩ := h e he
  exact ⟨other, ho, rfl, (grows_setGlobalMail hm now).details other ho hd⟩

theorem Mirrors.addGlobalMailToIndexes (h : c.Mirrors mails) (hm : mail ∈ mails.rows)
    (hd : c.Detailed mail) : (c.addGlobalMailToIndexes mail).Mirrors mails := by
  intro e he
  rcases Table.mem_upsert.mp he with rfl | ⟨he, _⟩
  · exact ⟨mail, hm, rfl, hd⟩
  · exact h e he

end Writes

theorem getGlobalMail_of_live {c : SharedCache} {id : Int} {now : Time} {cached : CachedMail}
    (hd : c.details id = some cached) (hlive : ∀ t ∈ cached.expireAt, now < t) :
    c.getGlobalMail id now = some cached.mail := by
  have hall : cached.expireAt.all (now < ·) = true :=
    (Option.all_eq_true ..).mpr fun t ht => decide_eq_true (hlive t ht)
  simp only [getGlobalMail, hd, if_pos hall]

theorem getGlobalMail_eq_some {c : SharedCache} {id : Int} {now : Time} {mail : GlobalMail}
    (h : c.getGlobalMail id now = some mail) :
    ∃ expireAt, c.details id = some ⟨mail, expireAt⟩ ∧ ∀ t ∈ expireAt, now < t := by
  unfold getGlobalMail at h
  cases hd : c.details id with
  | none => simp [hd] at h
  | some cached =>
    simp only [hd] at h
    split_ifs at h with hlive
    exact ⟨cached.expireAt, by rw [← Option.some.inj h], by simpa [Option.all_eq_true] using hlive⟩

end SharedCache

end GlobalMailSystem
