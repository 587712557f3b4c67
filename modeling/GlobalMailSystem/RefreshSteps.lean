import GlobalMailSystem.RefreshMachine

namespace GlobalMailSystem.Refresh

def Label.server : Label → Nat
  | .start k _ _ => k
  | .work k _ _ _ => k
  | .tick k => k
  | .timeout k => k
  | .cancel k => k

def Label.isStart : Label → Bool
  | .start _ _ _ => true
  | _ => false

inductive Next
  | goto (pc : PC)
  | fail
  | install (version : Int) (now : Time) (found : List GlobalMail)

def World.enter (w : World) (k : Nat) : Next → World
  | .goto pc => w.goto k pc
  | .fail => w.fail k
  | .install version now found => w.install k version now found

def detailNext (version : Int) (now : Time) (polling : Bool) (ids : List Int) (loaded : List GlobalMail) : Next :=
  match ids with
  | [] => .install version now loaded
  | ids => .goto (.readDetails version now polling ids loaded)

def refillNext (version : Int) (now : Time) (lock : Option Int) (found : List GlobalMail) :
    List GlobalMail → Next
  | mail :: rest => .goto (.setMail version now lock found mail rest)
  | [] =>
    match lock with
    | none => .install version now found
    | some token => .goto (.release version now token (some found))

def abortNext (version : Int) (now : Time) : Option Int → Next
  | none => .fail
  | some token => .goto (.release version now token none)

theorem abort_eq (w : World) (k : Nat) (version : Int) (now : Time) (lock : Option Int) :
    abort w k version now lock = w.enter k (abortNext version now lock) := by
  cases lock <;> rfl

theorem afterDetail_eq (w : World) (k : Nat) (version : Int) (now : Time) (polling : Bool) (ids : List Int)
    (loaded : List GlobalMail) :
    afterDetail w k version now polling ids loaded =
      w.enter k (detailNext version now polling ids loaded) := by
  cases ids <;> rfl

theorem refill_eq (w : World) (k : Nat) (version : Int) (now : Time) (lock : Option Int)
    (found rest : List GlobalMail) :
    refill w k version now lock found rest = w.enter k (refillNext version now lock found rest) := by
  cases rest with
  | cons mail rest => rfl
  | nil => cases lock <;> rfl

/-- Where a refresh may go from a stage, and what it leaves in Redis by it. `fail` is every return of
an error that is made without the rebuild lock. -/
inductive Moves (mails : Table GlobalMail.id) (c : SharedCache) : PC → SharedCache → Next → Prop
  | start {version : Int} {now : Time} : Moves mails c .idle c (.goto (.readIndex version now false))
  | fail {pc : PC} (h : pc ≠ .idle) : Moves mails c pc c .fail
  | indexMiss {version : Int} {now : Time} {polling : Bool} (h : c.getActiveGlobalMailIDs now = []) :
      Moves mails c (.readIndex version now polling) c (.goto (miss version now polling))
  | index {version : Int} {now : Time} {polling : Bool} (h : c.getActiveGlobalMailIDs now ≠ []) :
      Moves mails c (.readIndex version now polling) c
        (.goto (.readDetails version now polling (c.getActiveGlobalMailIDs now) []))
  | detailMiss {version : Int} {now : Time} {polling : Bool} {ids : List Int} {loaded : List GlobalMail} :
      Moves mails c (.readDetails version now polling ids loaded) c (.goto (miss version now polling))
  | detail {version : Int} {now clock : Time} {polling : Bool} {id : Int} {rest : List Int}
      {loaded : List GlobalMail} {mail : GlobalMail} (h : c.getGlobalMail id clock = some mail) :
      Moves mails c (.readDetails version now polling (id :: rest) loaded) c
        (detailNext version now polling rest (loaded ++ [mail]))
  | detailsDone {version : Int} {now : Time} {polling : Bool} {loaded : List GlobalMail} :
      Moves mails c (.readDetails version now polling [] loaded) c (.install version now loaded)
  | lock {version : Int} {now : Time} {locks : Int → Option RebuildLock} {pc : PC}
      (h : (∃ token, pc = .readMySQL version now (some token)) ∨ pc = .wait version now) :
      Moves mails c (.tryLock version now) { c with locks } (.goto pc)
  | lockFail {version : Int} {now : Time} {locks : Int → Option RebuildLock} :
      Moves mails c (.tryLock version now) { c with locks } .fail
  | tick {version : Int} {now : Time} :
      Moves mails c (.wait version now) c (.goto (.readIndex version now true))
  | timeout {version : Int} {now : Time} :
      Moves mails c (.wait version now) c (.goto (.readMySQL version now none))
  | mysql {version : Int} {now : Time} {lock : Option Int} :
      Moves mails c (.readMySQL version now lock) c
        (refillNext version now lock (getPublishedGlobalMails mails now) (getPublishedGlobalMails mails now))
  | mysqlFail {version : Int} {now : Time} {lock : Option Int} :
      Moves mails c (.readMySQL version now lock) c (abortNext version now lock)
  | setMail {version : Int} {now clock : Time} {lock : Option Int} {found rest : List GlobalMail}
      {mail : GlobalMail} :
      Moves mails c (.setMail version now lock found mail rest) (c.setGlobalMail mail clock)
        (.goto (.addIndexes version now lock found mail rest))
  | setMailFail {version : Int} {now : Time} {lock : Option Int} {found rest : List GlobalMail}
      {mail : GlobalMail} {c' : SharedCache} (h : c' = c ∨ ∃ clock, c' = c.setGlobalMail mail clock) :
      Moves mails c (.setMail version now lock found mail rest) c' (abortNext version now lock)
  | addIndexes {version : Int} {now : Time} {lock : Option Int} {found rest : List GlobalMail}
      {mail : GlobalMail} :
      Moves mails c (.addIndexes version now lock found mail rest) (c.addGlobalMailToIndexes mail)
        (refillNext version now lock found rest)
  | addIndexesFail {version : Int} {now : Time} {lock : Option Int} {found rest : List GlobalMail}
      {mail : GlobalMail} {c' : SharedCache} (h : c' = c ∨ c' = c.addGlobalMailToIndexes mail) :
      Moves mails c (.addIndexes version now lock found mail rest) c' (abortNext version now lock)
  | released {version token : Int} {now : Time} {found : List GlobalMail}
      {locks : Int → Option RebuildLock} :
      Moves mails c (.release version now token (some found)) { c with locks } (.install version now found)
  | givenUp {version token : Int} {now : Time} {locks : Int → Option RebuildLock} :
      Moves mails c (.release version now token none) { c with locks } .fail

def Moved (w : World) (k : Nat) (w' : World) : Prop :=
  ∃ cache next, Moves w.mails w.cache (w.refreshes k) cache next ∧ w' = { w with cache }.enter k next

section Inversion

variable {w w' : World} {k : Nat} {clock : Time} {token : Int} {outcome : Outcome}

theorem moved_to {pc : PC} {cache : SharedCache} {next : Next} (hk : w.refreshes k = pc)
    (h : Moves w.mails w.cache pc cache next) : Moved w k ({ w with cache }.enter k next) :=
  ⟨cache, next, hk ▸ h, rfl⟩

theorem moved_same {pc : PC} {next : Next} (hk : w.refreshes k = pc)
    (h : Moves w.mails w.cache pc w.cache next) : Moved w k (w.enter k next) :=
  moved_to hk h

theorem release_moved {version : Int} {now : Time} {held : Int} {result : Option (List GlobalMail)}
    (hk : w.refreshes k = .release version now held result)
    (h : work w k clock token outcome (.release version now held result) = some w') : Moved w k w' := by
  have hreleased : ∃ locks, (if outcome.executed then
      { w with cache := w.cache.releaseGlobalMailRebuildLock version held clock } else w) =
        { w with cache := { w.cache with locks } } := by
    split_ifs with hex
    · obtain ⟨locks, hlocks⟩ := SharedCache.release_locks w.cache version held clock
      exact ⟨locks, by rw [hlocks]⟩
    · exact ⟨_, rfl⟩
  obtain ⟨locks, hreleased⟩ := hreleased
  simp only [work, hreleased] at h
  cases result with
  | none =>
    cases h
    exact moved_to hk .givenUp
  | some found =>
    cases h
    exact moved_to hk .released

theorem readIndex_moved {version : Int} {now : Time} {polling : Bool}
    (hk : w.refreshes k = .readIndex version now polling)
    (h : work w k clock token outcome (.readIndex version now polling) = some w') : Moved w k w' := by
  have hfail := moved_same hk (.fail (fun he => by cases he))
  cases outcome with
  | failed err => cases h; exact hfail
  | lost err => cases h; exact hfail
  | ok =>
    simp only [work] at h
    split at h
    · rename_i hnil
      cases h
      exact moved_same hk (.indexMiss hnil)
    · rename_i hne
      cases h
      exact moved_same hk (.index fun he => hne he)

theorem readDetails_moved {version : Int} {now : Time} {polling : Bool} {ids : List Int} {loaded : List GlobalMail}
    (hk : w.refreshes k = .readDetails version now polling ids loaded)
    (h : work w k clock token outcome (.readDetails version now polling ids loaded) = some w') : Moved w k w' := by
  have hfail := moved_same hk (.fail (fun he => by cases he))
  cases outcome with
  | failed err => cases h; exact hfail
  | lost err => cases h; exact hfail
  | ok =>
    cases ids with
    | nil => cases h; exact moved_same hk .detailsDone
    | cons id rest =>
      simp only [work] at h
      split at h
      · cases h
        exact moved_same hk .detailMiss
      · rename_i mail hget
        cases h
        rw [afterDetail_eq]
        exact moved_same hk (.detail hget)

theorem tryLock_moved {version : Int} {now : Time} (hk : w.refreshes k = .tryLock version now)
    (h : work w k clock token outcome (.tryLock version now) = some w') : Moved w k w' := by
  obtain ⟨locks, hlocks⟩ := SharedCache.tryAcquire_locks w.cache version token globalMailRebuildLockTTL clock
  simp only [work, hlocks] at h
  cases outcome with
  | failed err => cases h; exact moved_same hk (.fail (fun he => by cases he))
  | lost err => cases h; exact moved_to hk .lockFail
  | ok =>
    cases h
    apply moved_to hk (.lock ?_)
    split_ifs
    · exact Or.inl ⟨token, rfl⟩
    · exact Or.inr rfl

theorem readMySQL_moved {version : Int} {now : Time} {lock : Option Int}
    (hk : w.refreshes k = .readMySQL version now lock)
    (h : work w k clock token outcome (.readMySQL version now lock) = some w') : Moved w k w' := by
  cases outcome with
  | failed err | lost err =>
    cases h
    rw [abort_eq]
    exact moved_same hk .mysqlFail
  | ok =>
    cases h
    rw [refill_eq]
    exact moved_same hk .mysql

theorem refill_moved {version : Int} {now : Time} {lock : Option Int} {found rest : List GlobalMail}
    {mail : GlobalMail} {pc : PC}
    (hpc : pc = .setMail version now lock found mail rest ∨ pc = .addIndexes version now lock found mail rest)
    (hk : w.refreshes k = pc) (h : work w k clock token outcome pc = some w') : Moved w k w' := by
  rcases hpc with rfl | rfl
  · cases outcome with
    | ok => cases h; exact moved_to hk .setMail
    | failed err =>
      cases h
      rw [abort_eq]
      exact moved_to hk (.setMailFail (Or.inl rfl))
    | lost err =>
      cases h
      rw [abort_eq]
      exact moved_to hk (.setMailFail (Or.inr ⟨clock, rfl⟩))
  · cases outcome with
    | ok =>
      cases h
      rw [refill_eq]
      exact moved_to hk .addIndexes
    | failed err =>
      cases h
      rw [abort_eq]
      exact moved_to hk (.addIndexesFail (Or.inl rfl))
    | lost err =>
      cases h
      rw [abort_eq]
      exact moved_to hk (.addIndexesFail (Or.inr rfl))

theorem work_moved (h : work w k clock token outcome (w.refreshes k) = some w') : Moved w k w' := by
  cases hk : w.refreshes k with
  | idle => simp [hk, work] at h
  | wait version now => simp [hk, work] at h
  | readIndex version now polling => exact readIndex_moved hk (hk ▸ h)
  | readDetails version now polling ids loaded => exact readDetails_moved hk (hk ▸ h)
  | tryLock version now => exact tryLock_moved hk (hk ▸ h)
  | readMySQL version now lock => exact readMySQL_moved hk (hk ▸ h)
  | setMail version now lock found mail rest => exact refill_moved (Or.inl rfl) hk (hk ▸ h)
  | addIndexes version now lock found mail rest => exact refill_moved (Or.inr rfl) hk (hk ▸ h)
  | release version now held result => exact release_moved hk (hk ▸ h)

theorem step_moved {l : Label} (h : step w l = some w') : Moved w l.server w' := by
  cases l with
  | start k version now =>
    simp only [step] at h
    split at h
    · rename_i hk
      cases h
      exact moved_same hk .start
    · cases h
  | work k clock token outcome => exact work_moved h
  | tick k =>
    simp only [step] at h
    split at h
    · rename_i hk
      cases h
      exact moved_same hk .tick
    · cases h
  | timeout k =>
    simp only [step] at h
    split at h
    · rename_i hk
      cases h
      exact moved_same hk .timeout
    · cases h
  | cancel k =>
    simp only [step] at h
    split at h
    · rename_i hk
      cases h
      exact moved_same hk (.fail fun he => by cases he)
    · cases h

theorem busy_of_not_start {l : Label} (hl : l.isStart = false) (h : step w l = some w') :
    w.refreshes l.server ≠ .idle := by
  intro hidle
  cases l with
  | start k version now => cases hl
  | work k clock token outcome =>
    change w.refreshes k = .idle at hidle
    simp [step, hidle, work] at h
  | tick k | timeout k | cancel k =>
    change w.refreshes k = .idle at hidle
    simp [step, hidle] at h

end Inversion

def PC.version? : PC → Option Int
  | .idle => none
  | .readIndex version _ _ => some version
  | .readDetails version _ _ _ _ => some version
  | .tryLock version _ => some version
  | .wait version _ => some version
  | .readMySQL version _ _ => some version
  | .setMail version _ _ _ _ _ => some version
  | .addIndexes version _ _ _ _ _ => some version
  | .release version _ _ _ => some version

def Next.version? : Next → Option Int
  | .goto pc => pc.version?
  | .fail => none
  | .install version _ _ => some version

section Frame

variable {mails : Table GlobalMail.id} {c c' : SharedCache} {pc : PC} {next : Next}

inductive Wrote (c : SharedCache) : PC → SharedCache → Prop
  | locks {pc : PC} {locks : Int → Option RebuildLock} : Wrote c pc { c with locks }
  | mail {version : Int} {now clock : Time} {lock : Option Int} {found rest : List GlobalMail} {mail : GlobalMail} :
      Wrote c (.setMail version now lock found mail rest) (c.setGlobalMail mail clock)
  | index {version : Int} {now : Time} {lock : Option Int} {found rest : List GlobalMail} {mail : GlobalMail} :
      Wrote c (.addIndexes version now lock found mail rest) (c.addGlobalMailToIndexes mail)

theorem Moves.wrote (h : Moves mails c pc c' next) : Wrote c pc c' := by
  cases h with
  | setMail => exact .mail
  | setMailFail h =>
    rcases h with rfl | ⟨clock, rfl⟩
    · exact .locks
    · exact .mail
  | addIndexes => exact .index
  | addIndexesFail h =>
    rcases h with rfl | rfl
    · exact .locks
    · exact .index
  | _ => exact .locks

theorem Moves.cache_version (h : Moves mails c pc c' next) : c'.version = c.version := by
  cases h.wrote with
  | locks | mail | index => rfl

theorem refillNext_version (version : Int) (now : Time) (lock : Option Int) (found rest : List GlobalMail) :
    (refillNext version now lock found rest).version? = some version := by
  cases rest with
  | cons mail rest => rfl
  | nil => cases lock <;> rfl

theorem Moves.version (h : Moves mails c pc c' next) {version : Int} (hpc : pc.version? = some version) :
    next = .fail ∨ next.version? = some version := by
  have miss_version (version : Int) (now : Time) (polling : Bool) :
      (miss version now polling).version? = some version := by cases polling <;> rfl
  have abort_version (version : Int) (now : Time) (lock : Option Int) :
      abortNext version now lock = .fail ∨ (abortNext version now lock).version? = some version := by
    cases lock with
    | none => exact Or.inl rfl
    | some token => exact Or.inr rfl
  cases h with
  | start => cases hpc
  | fail h => exact Or.inl rfl
  | givenUp | lockFail => exact Or.inl rfl
  | indexMiss h => exact Or.inr ((miss_version _ _ _).trans hpc)
  | detailMiss => exact Or.inr ((miss_version _ _ _).trans hpc)
  | @detail _ _ _ _ _ rest => cases rest <;> exact Or.inr hpc
  | lock h =>
    rcases h with ⟨token, rfl⟩ | rfl
    · exact Or.inr hpc
    · exact Or.inr hpc
  | mysql => exact Or.inr ((refillNext_version _ _ _ _ _).trans hpc)
  | addIndexes => exact Or.inr ((refillNext_version _ _ _ _ _).trans hpc)
  | mysqlFail => exact (abort_version _ _ _).imp id fun he => he.trans hpc
  | setMailFail h => exact (abort_version _ _ _).imp id fun he => he.trans hpc
  | addIndexesFail h => exact (abort_version _ _ _).imp id fun he => he.trans hpc
  | index | detailsDone | tick | timeout | setMail | released => exact Or.inr hpc

end Frame

end GlobalMailSystem.Refresh
