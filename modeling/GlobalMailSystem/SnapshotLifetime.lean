import GlobalMailSystem.LocalCache
import GlobalMailSystem.RefreshSteps

namespace GlobalMailSystem.Refresh

open Transition

/-- `GetPublishedGlobalMails` is about to be asked while a mail is published whose window opens later. -/
def missesScheduled (w : World) (l : Label) : Bool :=
  match w.refreshes l.server with
  | .readMySQL _ now _ => w.mails.rows.any fun mail =>
    mail.status = .published && now < mail.startTime && mail.startTime < mail.expireTime
  | _ => false

def Due (mails : Table GlobalMail.id) (t0 : Time) (mail : GlobalMail) : Prop :=
  mail ∈ mails.rows ∧ mail.status = .published ∧ mail.startTime < mail.expireTime ∧ t0 < mail.expireTime

theorem due_of_inWindow {mails : Table GlobalMail.id} {t0 t : Time} {mail : GlobalMail}
    (hm : mail ∈ mails.rows) (hpublished : mail.status = .published) (ht : t0 ≤ t)
    (hwindow : mail.inWindow t) : Due mails t0 mail :=
  ⟨hm, hpublished, lt_of_le_of_lt hwindow.1 hwindow.2, lt_of_le_of_lt ht hwindow.2⟩

structure Redis (mails : Table GlobalMail.id) (t0 : Time) (c : SharedCache) : Prop where
  details : ∀ id cached, c.details id = some cached → mails.find? id = some cached.mail
  index : c.getActiveGlobalMailIDs t0 = [] ∨
    ∀ mail ∈ mails.rows, mail.status = .published → t0 < mail.expireTime →
      mail.id ∈ c.getActiveGlobalMailIDs t0

structure Brings (mails : Table GlobalMail.id) (t0 : Time) (found : List GlobalMail) : Prop where
  rows : ∀ mail ∈ found, mail ∈ mails.rows
  due : ∀ mail, Due mails t0 mail → mail ∈ found

def Serves (mails : Table GlobalMail.id) (version : Int) (t0 : Time) (c : SharedCache) : PC → Prop
  | .idle => True
  | .readIndex v now _ => v = version ∧ now = t0 ∧ Redis mails t0 c
  | .readDetails v now _ ids loaded =>
    v = version ∧ now = t0 ∧ Redis mails t0 c ∧ (∀ mail ∈ loaded, mail ∈ mails.rows) ∧
      ∀ mail, Due mails t0 mail → mail ∈ loaded ∨ mail.id ∈ ids
  | .tryLock v now => v = version ∧ now = t0 ∧ Redis mails t0 c
  | .wait v now => v = version ∧ now = t0 ∧ Redis mails t0 c
  | .readMySQL v now _ => v = version ∧ now = t0 ∧ Redis mails t0 c
  | .setMail v _ _ found _ _ => v = version ∧ Brings mails t0 found
  | .addIndexes v _ _ found _ _ => v = version ∧ Brings mails t0 found
  | .release v _ _ (some found) => v = version ∧ Brings mails t0 found
  | .release _ _ _ none => True

def NextServes (mails : Table GlobalMail.id) (version : Int) (t0 : Time) (c : SharedCache) : Next → Prop
  | .goto pc => Serves mails version t0 c pc
  | .fail => True
  | .install v _ found => v = version ∧ Brings mails t0 found

section Stages

variable {mails : Table GlobalMail.id} {version : Int} {t0 : Time} {c c' : SharedCache}

theorem serves_miss (h : Redis mails t0 c) (polling : Bool) :
    Serves mails version t0 c (miss version t0 polling) := by
  cases polling with
  | false => exact ⟨rfl, rfl, h⟩
  | true => exact ⟨rfl, rfl, h⟩

theorem serves_abort (v : Int) (now : Time) (lock : Option Int) :
    NextServes mails version t0 c (abortNext v now lock) := by
  cases lock with
  | none => trivial
  | some token => trivial

theorem serves_refill (now : Time) (lock : Option Int) {found : List GlobalMail}
    (h : Brings mails t0 found) (rest : List GlobalMail) :
    NextServes mails version t0 c (refillNext version now lock found rest) := by
  cases rest with
  | cons mail rest => exact ⟨rfl, h⟩
  | nil =>
    cases lock with
    | none => exact ⟨rfl, h⟩
    | some token => exact ⟨rfl, h⟩

theorem brings_published
    (h : (mails.rows.any fun mail =>
      mail.status = .published && t0 < mail.startTime && mail.startTime < mail.expireTime) = false) :
    Brings mails t0 (getPublishedGlobalMails mails t0) where
  rows mail hm := (mem_getPublishedGlobalMails.mp hm).1
  due mail hdue := by
    obtain ⟨hm, hpublished, hopens, hexpire⟩ := hdue
    refine mem_getPublishedGlobalMails.mpr ⟨hm, hpublished, ?_, hexpire⟩
    have hnot := List.any_eq_false.mp h mail hm
    simp only [hpublished, hopens, decide_true, Bool.true_and, Bool.and_true, decide_eq_true_eq,
      not_lt] at hnot
    exact hnot

theorem serves_detail (polling : Bool) {id : Int} {rest : List Int} {loaded : List GlobalMail}
    {mail : GlobalMail} {clock : Time} (hredis : Redis mails t0 c)
    (hrows : ∀ m ∈ loaded, m ∈ mails.rows)
    (hdue : ∀ m, Due mails t0 m → m ∈ loaded ∨ m.id ∈ id :: rest)
    (hget : c.getGlobalMail id clock = some mail) :
    NextServes mails version t0 c (detailNext version t0 polling rest (loaded ++ [mail])) := by
  -- the detail read belongs to the mail whose id was asked for, so no mail is dropped from the plan
  obtain ⟨expireAt, hdetail, -⟩ := SharedCache.getGlobalMail_eq_some hget
  obtain ⟨hmem, hid⟩ := Table.find?_eq_some.mp (hredis.details id _ hdetail)
  have hrows' : ∀ m ∈ loaded ++ [mail], m ∈ mails.rows := by
    intro m hm
    rcases List.mem_append.mp hm with hm | hm
    · exact hrows m hm
    · exact List.mem_singleton.mp hm ▸ hmem
  have hdue' : ∀ m, Due mails t0 m → m ∈ loaded ++ [mail] ∨ m.id ∈ rest := by
    intro m hm
    rcases hdue m hm with hl | hl
    · exact Or.inl (List.mem_append_left _ hl)
    · rcases List.mem_cons.mp hl with hl | hl
      · have he : m = mail := mails.row_unique hm.1 hmem (hl.trans hid.symm)
        exact Or.inl (List.mem_append_right _ (List.mem_singleton.mpr he))
      · exact Or.inr hl
  cases rest with
  | nil => exact ⟨rfl, hrows', fun m hm => (hdue' m hm).resolve_right List.not_mem_nil⟩
  | cons next rest => exact ⟨rfl, rfl, hredis, hrows', hdue'⟩

theorem Redis.locks (h : Redis mails t0 c) (locks : Int → Option RebuildLock) :
    Redis mails t0 { c with locks } := ⟨h.details, h.index⟩

theorem moves_serves {pc : PC} {next : Next} (h : Moves mails c pc c' next) (hpc : Serves mails version t0 c pc)
    (hbusy : pc ≠ .idle)
    (hscheduled : ∀ v now lock, pc = .readMySQL v now lock → (mails.rows.any fun mail =>
      mail.status = .published && now < mail.startTime && mail.startTime < mail.expireTime) = false) :
    NextServes mails version t0 c' next := by
  cases h with
  | start => exact absurd rfl hbusy
  | fail _ => trivial
  | indexMiss _ =>
    obtain ⟨rfl, rfl, hredis⟩ := hpc
    exact serves_miss hredis _
  | @index _ now polling hne =>
    obtain ⟨rfl, rfl, hredis⟩ := hpc
    refine ⟨rfl, rfl, hredis, fun m hm => absurd hm List.not_mem_nil, fun m hm => Or.inr ?_⟩
    exact hredis.index.resolve_left hne m hm.1 hm.2.1 hm.2.2.2
  | detailMiss =>
    obtain ⟨rfl, rfl, hredis, -⟩ := hpc
    exact serves_miss hredis _
  | detail hget =>
    obtain ⟨rfl, rfl, hredis, hrows, hdue⟩ := hpc
    exact serves_detail _ hredis hrows hdue hget
  | detailsDone =>
    obtain ⟨rfl, rfl, hredis, hrows, hdue⟩ := hpc
    exact ⟨rfl, hrows, fun m hm => (hdue m hm).resolve_right List.not_mem_nil⟩
  | lock hnext =>
    obtain ⟨rfl, rfl, hredis⟩ := hpc
    rcases hnext with ⟨token, rfl⟩ | rfl
    · exact ⟨rfl, rfl, hredis.locks _⟩
    · exact ⟨rfl, rfl, hredis.locks _⟩
  | tick => exact hpc
  | timeout => exact hpc
  | mysql =>
    obtain ⟨rfl, rfl, -⟩ := hpc
    exact serves_refill _ _ (brings_published (hscheduled _ _ _ rfl)) _
  | mysqlFail => exact serves_abort _ _ _
  | setMail => exact hpc
  | setMailFail _ => exact serves_abort _ _ _
  | addIndexes =>
    obtain ⟨rfl, hbrings⟩ := hpc
    exact serves_refill _ _ hbrings _
  | addIndexesFail _ => exact serves_abort _ _ _
  | released => exact hpc
  | lockFail | givenUp => trivial

end Stages

def Lasting (mails : Table GlobalMail.id) (version : Int) (t0 : Time) (snapshot : CacheSnapshot) : Prop :=
  snapshot.version = version ∧ ∀ mail, Due mails t0 mail → snapshot.mailsByID mail.id = some mail

theorem lasting_build {mails : Table GlobalMail.id} {version : Int} {t0 now : Time}
    {found : List GlobalMail} (h : Brings mails t0 found) :
    Lasting mails version t0 (.build version found now) := by
  refine ⟨CacheSnapshot.build_version _ _ _, fun mail hdue => ?_⟩
  obtain ⟨m, hm⟩ := CacheSnapshot.build_mailsByID_isSome version now (h.due mail hdue)
  obtain ⟨hmem, hid⟩ := CacheSnapshot.build_mailsByID_mem hm
  rw [hm, mails.row_unique (h.rows m hmem) hdue.1 hid]

structure Underway (u : World) (k : Nat) (version : Int) (t0 : Time) (w : World) : Prop where
  mails : w.mails = u.mails
  stage : Serves w.mails version t0 w.cache (w.refreshes k)
  installed : w.installed = u.installed ∨ Lasting u.mails version t0 (w.snapshots k)

theorem underway_step {u w w' : World} {version : Int} {t0 : Time} {l : Label}
    (hw : Underway u l.server version t0 w) (hok : missesScheduled w l = false) (hl : l.isStart = false)
    (h : step w l = some w') : Underway u l.server version t0 w' := by
  have hbusy := busy_of_not_start hl h
  obtain ⟨cache, next, hmoves, rfl⟩ := step_moved h
  have hnext := moves_serves hmoves hw.stage hbusy (fun v now lock hpc => by
    simpa only [missesScheduled, hpc] using hok)
  cases next with
  | goto pc =>
    refine ⟨hw.mails, ?_, hw.installed⟩
    simp only [World.enter, World.goto, Function.update_self]
    exact hnext
  | fail =>
    refine ⟨hw.mails, ?_, hw.installed⟩
    simp only [World.enter, World.fail, Function.update_self]
    trivial
  | install v now found =>
    obtain ⟨rfl, hbrings⟩ := hnext
    refine ⟨hw.mails, ?_, Or.inr ?_⟩
    · simp only [World.enter, World.install, Function.update_self]
      trivial
    · simp only [World.enter, World.install, Function.update_self]
      exact lasting_build (hw.mails ▸ hbrings)

section Losing

variable {mails : Table GlobalMail.id} {version : Int} {t0 : Time} {mail : GlobalMail}

def Clocked (version : Int) (t0 : Time) : PC → Prop
  | .readIndex v now _ => v = version ∧ now = t0
  | .readDetails v now _ _ _ => v = version ∧ now = t0
  | .tryLock v now => v = version ∧ now = t0
  | .wait v now => v = version ∧ now = t0
  | .readMySQL v now _ => v = version ∧ now = t0
  | _ => True

def Omits (mails : Table GlobalMail.id) (mail : GlobalMail) (found : List GlobalMail) : Prop :=
  (∀ m ∈ found, m ∈ mails.rows) ∧ mail ∉ found

def Loses (mails : Table GlobalMail.id) (mail : GlobalMail) (version : Int) : PC → Prop
  | .idle => True
  | .setMail v _ _ found _ _ => v = version ∧ Omits mails mail found
  | .addIndexes v _ _ found _ _ => v = version ∧ Omits mails mail found
  | .release v _ _ (some found) => v = version ∧ Omits mails mail found
  | .release _ _ _ none => True
  | _ => False

def NextLoses (mails : Table GlobalMail.id) (mail : GlobalMail) (version : Int) : Next → Prop
  | .goto pc => Loses mails mail version pc
  | .fail => True
  | .install v _ found => v = version ∧ Omits mails mail found

def NextClocked (version : Int) (t0 : Time) : Next → Prop
  | .goto pc => Clocked version t0 pc
  | _ => True

theorem clocked_refill (v : Int) (now : Time) (lock : Option Int) (found rest : List GlobalMail) :
    NextClocked version t0 (refillNext v now lock found rest) := by
  cases rest with
  | cons mail rest => trivial
  | nil => cases lock <;> trivial

theorem moves_clocked {c c' : SharedCache} {pc : PC} {next : Next} (h : Moves mails c pc c' next)
    (hpc : Clocked version t0 pc) (hbusy : pc ≠ .idle) : NextClocked version t0 next := by
  have hmiss {v : Int} {now : Time} (hv : v = version ∧ now = t0) (polling : Bool) :
      Clocked version t0 (miss v now polling) := by cases polling <;> exact hv
  cases h with
  | start => exact absurd rfl hbusy
  | indexMiss | detailMiss => exact hmiss hpc _
  | index => exact hpc
  | @detail _ _ _ _ _ rest =>
    cases rest with
    | nil => trivial
    | cons id rest => exact hpc
  | lock hnext => rcases hnext with ⟨token, rfl⟩ | rfl <;> exact hpc
  | tick | timeout => exact hpc
  | mysql | addIndexes => exact clocked_refill _ _ _ _ _
  | @mysqlFail _ _ lock | @setMailFail _ _ lock | @addIndexesFail _ _ lock => cases lock <;> trivial
  | fail | detailsDone | lockFail | setMail | released | givenUp => trivial

theorem loses_refill (now : Time) (lock : Option Int) {found : List GlobalMail} (h : Omits mails mail found)
    (rest : List GlobalMail) : NextLoses mails mail version (refillNext version now lock found rest) := by
  cases rest with
  | cons mail rest => exact ⟨rfl, h⟩
  | nil => cases lock <;> exact ⟨rfl, h⟩

theorem moves_loses {c c' : SharedCache} {pc : PC} {next : Next} (h : Moves mails c pc c' next)
    (hpc : Loses mails mail version pc) (hbusy : pc ≠ .idle) : NextLoses mails mail version next := by
  cases h with
  | start => exact absurd rfl hbusy
  | setMail => exact hpc
  | addIndexes =>
    obtain ⟨rfl, homits⟩ := hpc
    exact loses_refill _ _ homits _
  | @setMailFail _ _ lock | @addIndexesFail _ _ lock => cases lock <;> trivial
  | released => exact hpc
  | fail | givenUp => trivial
  | indexMiss | index | detailMiss | detail | detailsDone | lock | lockFail | tick | timeout | mysql | mysqlFail =>
    exact hpc.elim

theorem omits_published (hlater : t0 < mail.startTime) : Omits mails mail (getPublishedGlobalMails mails t0) := by
  refine ⟨fun m hm => (mem_getPublishedGlobalMails.mp hm).1, fun hm => ?_⟩
  exact absurd (mem_getPublishedGlobalMails.mp hm).2.2.1 (not_le.mpr hlater)

theorem omits_build {found : List GlobalMail} (homits : Omits mails mail found) (hmail : mail ∈ mails.rows) (now : Time) :
    (CacheSnapshot.build version found now).mailsByID mail.id = none := by
  by_contra hsome
  obtain ⟨m, hm⟩ := Option.ne_none_iff_exists'.mp hsome
  obtain ⟨hmem, hid⟩ := CacheSnapshot.build_mailsByID_mem hm
  exact homits.2 (mails.row_unique (homits.1 m hmem) hmail hid ▸ hmem)

structure Started (u : World) (k : Nat) (version : Int) (t0 : Time) (w : World) : Prop where
  mails : w.mails = u.mails
  stage : Clocked version t0 (w.refreshes k)
  installed : w.refreshes k = .idle ∨ w.installed = u.installed

theorem started_step {u w w' : World} {l : Label} (hw : Started u l.server version t0 w) (hl : l.isStart = false)
    (h : step w l = some w') : Started u l.server version t0 w' := by
  have hbusy := busy_of_not_start hl h
  obtain ⟨cache, next, hmoves, rfl⟩ := step_moved h
  have hnext := moves_clocked hmoves hw.stage hbusy
  have hsame := hw.installed.resolve_left hbusy
  cases next with
  | goto pc => exact ⟨hw.mails, by simpa [World.enter, World.goto, NextClocked] using hnext, Or.inr hsame⟩
  | fail => exact ⟨hw.mails, by simp [World.enter, World.fail, Clocked], Or.inr hsame⟩
  | install v now found =>
    refine ⟨hw.mails, by simp [World.enter, World.install, Clocked], Or.inl ?_⟩
    simp [World.enter, World.install]

structure Lost (u : World) (k : Nat) (version : Int) (mail : GlobalMail) (w : World) : Prop where
  mails : w.mails = u.mails
  stage : Loses w.mails mail version (w.refreshes k)
  installed : w.installed = u.installed ∨
    (w.snapshots k).version = version ∧ (w.snapshots k).mailsByID mail.id = none

theorem lost_enter {u w : World} {k : Nat} (hmails : w.mails = u.mails)
    (hinstalled : w.installed = u.installed ∨
      (w.snapshots k).version = version ∧ (w.snapshots k).mailsByID mail.id = none)
    (hmail : mail ∈ w.mails.rows) (cache : SharedCache) {next : Next}
    (hnext : NextLoses w.mails mail version next) : Lost u k version mail ({ w with cache }.enter k next) := by
  cases next with
  | goto pc => exact ⟨hmails, by simpa [World.enter, World.goto, NextLoses] using hnext, hinstalled⟩
  | fail => exact ⟨hmails, by simp [World.enter, World.fail, Loses], hinstalled⟩
  | install v now found =>
    obtain ⟨rfl, homits⟩ := hnext
    refine ⟨hmails, by simp [World.enter, World.install, Loses], Or.inr ?_⟩
    simp only [World.enter, World.install, Function.update_self]
    exact ⟨CacheSnapshot.build_version _ _ _, omits_build homits hmail now⟩

theorem lost_step {u w w' : World} {l : Label} (hw : Lost u l.server version mail w) (hmail : mail ∈ u.mails.rows)
    (hl : l.isStart = false) (h : step w l = some w') : Lost u l.server version mail w' := by
  have hbusy := busy_of_not_start hl h
  obtain ⟨cache, next, hmoves, rfl⟩ := step_moved h
  exact lost_enter hw.mails hw.installed (hw.mails ▸ hmail) cache (moves_loses hmoves hw.stage hbusy)

theorem lost_of_missed {u w w' : World} {l : Label} (hw : Started u l.server version t0 w)
    (hmissed : missesScheduled w l = true) (h : step w l = some w') :
    ∃ mail ∈ u.mails.rows, mail.status = .published ∧ t0 < mail.startTime ∧ mail.startTime < mail.expireTime ∧
      Lost u l.server version mail w' := by
  -- a read of MySQL that comes before a mail has started loses the mail, or fails
  unfold missesScheduled at hmissed
  split at hmissed
  · rename_i v now lock hpc
    obtain ⟨hv, hnow⟩ : v = version ∧ now = t0 := by simpa [hpc, Clocked] using hw.stage
    subst hv hnow
    obtain ⟨mail, hmail, hscheduled⟩ := List.any_eq_true.mp hmissed
    simp only [Bool.and_eq_true, decide_eq_true_eq] at hscheduled
    obtain ⟨⟨hpublished, hlater⟩, hopens⟩ := hscheduled
    refine ⟨mail, hw.mails ▸ hmail, hpublished, hlater, hopens, ?_⟩
    obtain ⟨cache, next, hmoves, rfl⟩ := step_moved h
    have hsame := hw.installed.resolve_left fun hidle => by rw [hpc] at hidle; cases hidle
    apply lost_enter hw.mails (Or.inl hsame) hmail cache
    rw [hpc] at hmoves
    cases hmoves with
    | fail _ => trivial
    | mysql => exact loses_refill _ _ (omits_published hlater) _
    | mysqlFail => cases lock <;> trivial
  · cases hmissed

end Losing

section Own

variable {u w : World} {k : Nat} {version : Int} {t0 : Time} {ls : List Label}

theorem own_labels (hown : ∀ l ∈ ls, l.server = k ∧ l.isStart = false) (v : World) :
    Guarded step (fun _ l => l.server = k ∧ l.isStart = false) v ls := by
  apply guarded_of_forall
  rintro as l bs t rfl -
  exact hown l (List.mem_append_right _ List.mem_cons_self)

theorem start_eq {v : World} (h : step u (.start k version t0) = some v) :
    u.refreshes k = .idle ∧ v = u.goto k (.readIndex version t0 false) := by
  simp only [step] at h
  split at h
  · rename_i hidle
    exact ⟨hidle, (Option.some.inj h).symm⟩
  · cases h

theorem lasts_of_guarded (hredis : Redis u.mails t0 u.cache) (hown : ∀ l ∈ ls, l.server = k ∧ l.isStart = false)
    (hrun : run step (u.goto k (.readIndex version t0 false)) ls = some w) (hdone : w.installed ≠ u.installed)
    (hg : Guarded step (fun w l => missesScheduled w l = false) (u.goto k (.readIndex version t0 false)) ls) :
    Lasting u.mails version t0 (w.snapshots k) := by
  have hv : Underway u k version t0 (u.goto k (.readIndex version t0 false)) := by
    refine ⟨rfl, ?_, Or.inl rfl⟩
    simp only [World.goto, Function.update_self]
    exact ⟨rfl, rfl, hredis⟩
  have hw : Underway u k version t0 w := by
    refine guarded_invariant ?_ hv (guarded_and hg (own_labels hown _)) hrun
    rintro x l y hx ⟨hok, rfl, hl⟩ hstep
    exact underway_step hx hok hl hstep
  exact hw.installed.resolve_left hdone

theorem lost_of_unguarded (hown : ∀ l ∈ ls, l.server = k ∧ l.isStart = false)
    (hrun : run step (u.goto k (.readIndex version t0 false)) ls = some w) (hdone : w.installed ≠ u.installed)
    (hg : ¬ Guarded step (fun w l => missesScheduled w l = false) (u.goto k (.readIndex version t0 false)) ls) :
    ∃ mail ∈ u.mails.rows, mail.status = .published ∧ t0 < mail.startTime ∧ mail.startTime < mail.expireTime ∧
      (w.snapshots k).version = version ∧ (w.snapshots k).mailsByID mail.id = none := by
  by_contra hkept
  apply hg
  apply guarded_of_forall
  rintro as l bs x rfl hx
  by_contra hmissed
  obtain ⟨rfl, hl⟩ := hown l (List.mem_append_right _ List.mem_cons_self)
  obtain ⟨hbefore, hafter⟩ := guarded_append (own_labels hown _) hx
  have hbegun : Started u l.server version t0 (u.goto l.server (.readIndex version t0 false)) :=
    ⟨rfl, by simp [World.goto, Clocked], Or.inr rfl⟩
  have hstarted : Started u l.server version t0 x := by
    refine guarded_invariant ?_ hbegun hbefore hx
    rintro y m z hy ⟨hserver, hm⟩ hstep
    exact hserver ▸ started_step (hserver ▸ hy) hm hstep
  obtain ⟨x', hx', hend⟩ := run_append.mp hrun
  cases hx.symm.trans hx'
  obtain ⟨y, hstep, hend⟩ := run_cons.mp hend
  obtain ⟨mail, hmail, hpublished, hlater, hopens, hlost⟩ := lost_of_missed hstarted (by simpa using hmissed) hstep
  have hw : Lost u l.server version mail w := by
    refine guarded_invariant ?_ hlost (hafter.2 y hstep) hend
    rintro y m z hy ⟨hserver, hm⟩ hstep
    exact hserver ▸ lost_step (hserver ▸ hy) hmail hm hstep
  exact hkept ⟨mail, hmail, hpublished, hlater, hopens, hw.installed.resolve_left hdone⟩

end Own

theorem snapshot_lasts (u w : World) (k : Nat) (version : Int) (t0 : Time) (ls : List Label)
    (hredis : Redis u.mails t0 u.cache) (hown : ∀ l ∈ ls, l.server = k ∧ l.isStart = false)
    (hrun : run step u (.start k version t0 :: ls) = some w) (hdone : w.installed ≠ u.installed) :
    (∀ (t : Time) (cache : SharedCache) (token : Int), t0 ≤ t → cache.version = version →
      ∀ mail ∈ u.mails.rows, mail.status = .published → mail.inWindow t →
        (LocalCache.refreshIfStale u.mails cache (w.snapshots k) t token).2.mailsByID mail.id = some mail) ↔
    Guarded step (fun w l => missesScheduled w l = false) u (.start k version t0 :: ls) := by
  obtain ⟨v, hstart, hrest⟩ := run_cons.mp hrun
  obtain ⟨hidle, rfl⟩ := start_eq hstart
  constructor
  · intro hserved
    refine ⟨by simp [missesScheduled, Label.server, hidle], fun v hv => ?_⟩
    rw [← Option.some.inj (hstart.symm.trans hv)]
    by_contra hg
    obtain ⟨mail, hmail, hpublished, hlater, hopens, hversion, hnone⟩ := lost_of_unguarded hown hrest hdone hg
    have hsome := hserved mail.startTime { SharedCache.empty with version } 0 hlater.le rfl mail hmail hpublished
      ⟨le_refl _, hopens⟩
    have hfresh : (w.snapshots k).version ≥ version := hversion.ge
    simp only [LocalCache.refreshIfStale, if_pos hfresh] at hsome
    rw [hnone] at hsome
    cases hsome
  · intro hg t cache token ht hversion mail hm hpublished hwindow
    obtain ⟨hsame, hlasts⟩ := lasts_of_guarded hredis hown hrest hdone (hg.2 _ hstart)
    have hfresh : (w.snapshots k).version ≥ cache.version := by rw [hsame, hversion]
    simp only [LocalCache.refreshIfStale, if_pos hfresh]
    exact hlasts mail (due_of_inWindow hm hpublished ht hwindow)

def scheduledMail : GlobalMail :=
  { (default : GlobalMail) with
    id := 5, status := .published, startTime := 100 * second, expireTime := 200 * second }

def scheduledTable : Table GlobalMail.id := ⟨[scheduledMail], by decide⟩

def projectedCache : SharedCache :=
  (SharedCache.empty.setGlobalMail scheduledMail 0).addGlobalMailToIndexes scheduledMail

def servedFromRedis : World :=
  (run step (init scheduledTable projectedCache)
    [.start 0 1 0, .work 0 0 7 .ok, .work 0 0 7 .ok]).get (by decide)

theorem servedFromRedis_lasts :
    (LocalCache.refreshIfStale scheduledTable { SharedCache.empty with version := 1 }
      (servedFromRedis.snapshots 0) (150 * second) 7).2.mailsByID scheduledMail.id = some scheduledMail := by
  have hrun : run step (init scheduledTable projectedCache)
      [.start 0 1 0, .work 0 0 7 .ok, .work 0 0 7 .ok] = some servedFromRedis := (Option.some_get _).symm
  have hredis : Redis scheduledTable 0 projectedCache := by
    refine ⟨fun id cached h => ?_, Or.inr (by decide)⟩
    simp only [projectedCache, SharedCache.addGlobalMailToIndexes, SharedCache.setGlobalMail,
      Function.update_apply] at h
    split_ifs at h with hid
    · rw [hid, ← Option.some.inj h]
      rfl
    · cases h
  refine (snapshot_lasts (init scheduledTable projectedCache) servedFromRedis 0 1 0 _ hredis ?_ hrun ?_).mpr
    (by decide) (150 * second) { SharedCache.empty with version := 1 } 7 (by decide) rfl scheduledMail
    List.mem_cons_self rfl (by decide)
  · simp [Label.server, Label.isStart]
  · exact fun he => absurd (congrArg List.length he) (by decide)

def servedFromMySQL : World :=
  (run step (init scheduledTable .empty)
    (.start 0 1 0 :: List.replicate 4 (.work 0 0 7 .ok))).get (by decide)

theorem servedFromMySQL_misses :
    run step (init scheduledTable .empty) (.start 0 1 0 :: List.replicate 4 (.work 0 0 7 .ok)) =
        some servedFromMySQL ∧
      Redis scheduledTable 0 .empty ∧ servedFromMySQL.installed.length = 1 ∧
      ¬ ∀ mail ∈ scheduledTable.rows, mail.status = .published → mail.inWindow (150 * second) →
        (LocalCache.refreshIfStale scheduledTable { SharedCache.empty with version := 1 }
          (servedFromMySQL.snapshots 0) (150 * second) 7).2.mailsByID mail.id = some mail := by
  refine ⟨(Option.some_get _).symm, ⟨fun id cached h => (by cases h), Or.inl rfl⟩, by decide, fun h => ?_⟩
  have hsome := h scheduledMail List.mem_cons_self rfl (by decide)
  have hnone : (LocalCache.refreshIfStale scheduledTable { SharedCache.empty with version := 1 }
      (servedFromMySQL.snapshots 0) (150 * second) 7).2.mailsByID 5 = none := by decide
  cases hnone.symm.trans hsome

end GlobalMailSystem.Refresh
