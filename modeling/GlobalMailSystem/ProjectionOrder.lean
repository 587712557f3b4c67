import GlobalMailSystem.CommutingFold
import GlobalMailSystem.PublishedAbsorbing

namespace GlobalMailSystem.Projection

open SharedCache Publisher CommutingFold Transition

/-- The content of Redis without the expiry times of its keys. -/
@[ext]
structure View where
  details : Int → Option GlobalMail
  scores : Int → Option Int
  mailsByServer : Int → Set Int
  version : Int

def view (c : SharedCache) : View where
  details id := (c.details id).map (·.mail)
  scores id := (c.activeIndex.find? id).map (·.score)
  mailsByServer serverID := {id | id ∈ c.mailsByServer serverID}
  version := c.version

inductive Change
  | detail (mail : GlobalMail)
  | indexes (mail : GlobalMail)
  | version (target : Int)

def View.apply (v : View) : Change → View
  | .detail mail => { v with details := Function.update v.details mail.id (some mail) }
  | .indexes mail =>
    { v with
      scores := Function.update v.scores mail.id (some (unix mail.expireTime))
      mailsByServer := fun serverID =>
        v.mailsByServer serverID ∪ {id | id = mail.id ∧ serverID ∈ serverIDsFromConditions mail.conditions} }
  | .version target => { v with version := max v.version target }

def change : Write → Change
  | .setGlobalMail mail _ => .detail mail
  | .addGlobalMailToIndexes mail => .indexes mail
  | .advanceGlobalMailVersion target => .version target

theorem view_apply (c : SharedCache) (w : Write) : view (c.apply w) = (view c).apply (change w) := by
  cases w with
  | setGlobalMail mail now =>
    refine View.ext ?_ rfl rfl rfl
    funext id
    simp only [view, SharedCache.apply, setGlobalMail, View.apply, change, Function.update_apply]
    split_ifs <;> rfl
  | addGlobalMailToIndexes mail =>
    refine View.ext rfl ?_ ?_ rfl
    · funext id
      simp only [view, SharedCache.apply, addGlobalMailToIndexes, View.apply, change, Table.find?_upsert,
        Function.update_apply, indexEntry]
      split_ifs <;> rfl
    · funext serverID
      ext id
      exact CacheSnapshot.mem_foldl_index (mem_addMember _) _ _ _ _
  | advanceGlobalMailVersion target =>
    refine View.ext rfl rfl rfl ?_
    simp only [view, SharedCache.apply, advanceGlobalMailVersion, View.apply, change]
    split_ifs <;> omega

def Change.Of (mails : Table GlobalMail.id) : Change → Prop
  | .detail mail => mail ∈ mails.rows
  | .indexes mail => mail ∈ mails.rows
  | .version _ => True

theorem update_swap {β : Type} (mails : Table GlobalMail.id) {m m' : GlobalMail} (hm : m ∈ mails.rows)
    (hm' : m' ∈ mails.rows) (g : GlobalMail → β) (f : Int → β) :
    Function.update (Function.update f m.id (g m)) m'.id (g m') =
      Function.update (Function.update f m'.id (g m')) m.id (g m) := by
  by_cases hid : m.id = m'.id
  · rw [mails.row_unique hm hm' hid]
  · exact Function.update_comm hid _ _ _

theorem view_commutes (mails : Table GlobalMail.id) : Commutes View.apply (Change.Of mails) where
  swap a c ha hc v := by
  -- a mail id stands for one mail, so the writes of different events never disagree
    cases a with
    | detail m =>
      cases c with
      | detail m' => exact View.ext (update_swap mails ha hc some _) rfl rfl rfl
      | indexes m' => rfl
      | version target => rfl
    | indexes m =>
      cases c with
      | detail m' => rfl
      | indexes m' =>
        refine View.ext rfl ?_ ?_ rfl
        · exact update_swap mails ha hc (fun mail => some (unix mail.expireTime)) _
        · funext serverID
          exact Set.union_right_comm _ _ _
      | version target => rfl
    | version target =>
      cases c with
      | detail m' => rfl
      | indexes m' => rfl
      | version target' => exact View.ext rfl rfl rfl (max_right_comm _ _ _)
  repeated a ha v := by
    cases a with
    | detail m => exact View.ext (Function.update_idem _ _ _) rfl rfl rfl
    | indexes m =>
      refine View.ext rfl (Function.update_idem _ _ _) ?_ rfl
      funext serverID
      simp only [View.apply, Set.union_assoc, Set.union_self]
    | version target =>
      refine View.ext rfl rfl rfl ?_
      simp only [View.apply, max_assoc, max_self]

inductive Stage
  | setGlobalMail
  | addGlobalMailToIndexes
  | advanceGlobalMailVersion
  deriving DecidableEq

structure Step where
  eventID : Int
  stage : Stage
  now : Time

def stageWrite (event : OutboxEvent) (mail : GlobalMail) (now : Time) : Stage → Write
  | .setGlobalMail => .setGlobalMail mail now
  | .addGlobalMailToIndexes => .addGlobalMailToIndexes mail
  | .advanceGlobalMailVersion => .advanceGlobalMailVersion event.version

def Step.write (db : Database) (s : Step) : Option Write :=
  match db.outbox.find? s.eventID with
  | none => none
  | some event =>
    match db.mails.find? event.aggregateID with
    | none => none
    | some mail => some (stageWrite event mail s.now s.stage)

def project (db : Database) (schedule : List Step) (c : SharedCache) : SharedCache :=
  (schedule.filterMap (Step.write db)).foldl SharedCache.apply c

def Processes (schedule : List Step) (event : OutboxEvent) : Prop :=
  ∀ stage, ∃ s ∈ schedule, s.eventID = event.id ∧ s.stage = stage

theorem view_foldl (ws : List Write) (c : SharedCache) :
    view (ws.foldl SharedCache.apply c) = (ws.map change).foldl View.apply (view c) := by
  induction ws generalizing c with
  | nil => rfl
  | cons w ws ih => rw [List.foldl_cons, ih, view_apply, List.map_cons, List.foldl_cons]

theorem write_eq_some {db : Database} {s : Step} {w : Write} :
    s.write db = some w ↔ ∃ event mail, db.outbox.find? s.eventID = some event ∧
      db.mails.find? event.aggregateID = some mail ∧ stageWrite event mail s.now s.stage = w := by
  unfold Step.write
  cases hevent : db.outbox.find? s.eventID with
  | none => simp
  | some event =>
    cases hmail : db.mails.find? event.aggregateID with
    | none => simp [hmail]
    | some mail => simp [hmail]

theorem change_of {db : Database} {s : Step} {w : Write} (h : s.write db = some w) :
    (change w).Of db.mails := by
  obtain ⟨event, mail, -, hmail, rfl⟩ := write_eq_some.mp h
  have hm := (Table.find?_eq_some.mp hmail).1
  cases s.stage with
  | setGlobalMail => exact hm
  | addGlobalMailToIndexes => exact hm
  | advanceGlobalMailVersion => trivial

theorem change_stageWrite (event : OutboxEvent) (mail : GlobalMail) (now now' : Time) (stage : Stage) :
    change (stageWrite event mail now stage) = change (stageWrite event mail now' stage) := by
  cases stage <;> rfl

def changes (db : Database) (schedule : List Step) : List Change :=
  (schedule.filterMap (Step.write db)).map change

theorem changes_subset {db : Database} {first second : List Step}
    (h : ∀ event ∈ db.outbox.rows, Processes second event) {a : Change} (ha : a ∈ changes db first) :
    a ∈ changes db second := by
  obtain ⟨w, hw, rfl⟩ := List.mem_map.mp ha
  obtain ⟨s, -, hs⟩ := List.mem_filterMap.mp hw
  obtain ⟨event, mail, hevent, hmail, rfl⟩ := write_eq_some.mp hs
  obtain ⟨hmem, hid⟩ := Table.find?_eq_some.mp hevent
  obtain ⟨s', hs', hid', hstage⟩ := h event hmem s.stage
  apply List.mem_map.mpr
  refine ⟨stageWrite event mail s'.now s.stage, List.mem_filterMap.mpr ⟨s', hs', ?_⟩,
    change_stageWrite event mail _ _ _⟩
  rw [hid] at hid'
  exact write_eq_some.mpr ⟨event, mail, hid' ▸ hevent, hmail, by rw [hstage]⟩

theorem projection_order_independent (db : Database) (c : SharedCache) (first second : List Step)
    (hfirst : ∀ event ∈ db.outbox.rows, Processes first event)
    (hsecond : ∀ event ∈ db.outbox.rows, Processes second event) :
    view (project db first c) = view (project db second c) := by
  simp only [project, view_foldl]
  apply foldl_eq_of_mem_iff (view_commutes db.mails)
  · intro a ha
    obtain ⟨w, hw, rfl⟩ := List.mem_map.mp ha
    obtain ⟨s, -, hs⟩ := List.mem_filterMap.mp hw
    exact change_of hs
  · exact fun a => ⟨changes_subset hsecond, changes_subset hfirst⟩

def twoPublished : Database :=
  ((run (Relay.step (fun _ => "") Relay.twoWorkers) Relay.init
    [.publishBegin 0 ⟨Relay.noticeMail, [], "", ""⟩ 0 100 7 none, .publishCreate 0 .first .ok,
      .publishBegin 1 ⟨Relay.noticeMail, [], "", ""⟩ 0 101 8 none, .publishCreate 1 .first .ok]).get (by decide)).store.db

def flushed (eventID : Int) (now : Time) : List Step :=
  [⟨eventID, .setGlobalMail, now⟩, ⟨eventID, .addGlobalMailToIndexes, now⟩,
    ⟨eventID, .advanceGlobalMailVersion, now⟩]

theorem twoPublished_order_independent :
    twoPublished.outbox.rows.length = 2 ∧
      view (project twoPublished (flushed 7 1 ++ flushed 8 2) .empty) =
        view (project twoPublished ((flushed 7 1).take 2 ++ flushed 8 5 ++ flushed 7 9) .empty) := by
  refine ⟨by decide, projection_order_independent twoPublished .empty _ _ ?_ ?_⟩
  · intro event hevent stage
    revert event
    cases stage <;> decide
  · intro event hevent stage
    revert event
    cases stage <;> decide

section Relays

open Relay

variable {sha256 : PublishPayload → String} {config : Nat → Config}

theorem write_mono {s t : Store} (hg : Relay.Grows s t) {x : Step} {w : Write} (h : x.write s.db = some w) :
    x.write t.db = some w := by
  obtain ⟨event, mail, hevent, hmail, rfl⟩ := write_eq_some.mp h
  obtain ⟨hmem, hid⟩ := Table.find?_eq_some.mp hevent
  obtain ⟨row, hrow, hsame⟩ := hg.events event ⟨event, hmem, SameEvent.refl event⟩
  obtain ⟨hmmem, hmid⟩ := Table.find?_eq_some.mp hmail
  refine write_eq_some.mpr ⟨row, mail, Table.find?_eq_some.mpr ⟨hrow, hsame.id.trans hid⟩,
    Table.find?_eq_some.mpr ⟨hg.mails mail hmmem, hmid.trans hsame.aggregateID.symm⟩, ?_⟩
  cases x.stage with
  | setGlobalMail => rfl
  | addGlobalMailToIndexes => rfl
  | advanceGlobalMailVersion => exact congrArg Write.advanceGlobalMailVersion hsame.version

def Projects (s : Store) : Prop :=
  ∃ schedule, (∀ x ∈ schedule, ∃ w, Step.write s.db x = some w) ∧ s.cache = project s.db schedule .empty

theorem Projects.mono {s t : Store} (h : Projects s) (hg : Relay.Grows s t) (hcache : t.cache = s.cache) :
    Projects t := by
  obtain ⟨schedule, hall, he⟩ := h
  refine ⟨schedule, fun x hx => (hall x hx).imp fun w hw => write_mono hg hw, ?_⟩
  have hsame : schedule.filterMap (Step.write t.db) = schedule.filterMap (Step.write s.db) := by
    apply List.filterMap_congr
    intro x hx
    obtain ⟨w, hw⟩ := hall x hx
    rw [hw, write_mono hg hw]
  rw [hcache, he, project, project, hsame]

theorem Projects.write {s : Store} (h : Projects s) {x : Step} {w : Write} (hx : x.write s.db = some w) :
    Projects (s.act (.write w)) := by
  obtain ⟨schedule, hall, he⟩ := h
  refine ⟨schedule ++ [x], fun y hy => ?_, ?_⟩
  · rcases List.mem_append.mp hy with hy | hy
    · exact hall y hy
    · exact ⟨w, List.mem_singleton.mp hy ▸ hx⟩
  · have hfold : project s.db (schedule ++ [x]) .empty = (project s.db schedule .empty).apply w := by
      simp [project, List.filterMap_append, hx]
    exact (congrArg (SharedCache.apply · w) he).trans hfold.symm

theorem task_write {s : Store} {t : Task} (h : TaskOk s t) (now : Time) (stage : Stage) :
    Step.write s.db ⟨t.event.id, stage, now⟩ = some (stageWrite t.event t.mail now stage) := by
  obtain ⟨row, hrow, hsame⟩ := h.stored
  refine write_eq_some.mpr ⟨row, t.mail, Table.find?_eq_some.mpr ⟨hrow, hsame.id⟩,
    Table.find?_eq_some.mpr ⟨h.mail, h.aggregate.trans hsame.aggregateID.symm⟩, ?_⟩
  cases stage with
  | setGlobalMail => rfl
  | addGlobalMailToIndexes => rfl
  | advanceGlobalMailVersion => exact congrArg Write.advanceGlobalMailVersion hsame.version

theorem projects_step {w w' : World} {l : Label} (hinv : Relay.Inv w) (hw : Projects w.store)
    (h : step sha256 config w l = some w') : Projects w'.store := by
  have hg := (inv_step hinv h).2
  rcases step_store h with hs | ⟨a, hi, hs⟩
  · exact hs ▸ hw
  · cases hi with
    | @setMail k now outcome task hk =>
      have hpc := hinv.workers k
      rw [hk] at hpc
      exact hs ▸ hw.write (task_write hpc now .setGlobalMail)
    | @addIndexes k now outcome task hk =>
      have hpc := hinv.workers k
      rw [hk] at hpc
      exact hs ▸ hw.write (task_write hpc.1 now .addGlobalMailToIndexes)
    | @advance k now outcome task hk =>
      have hpc := hinv.workers k
      rw [hk] at hpc
      exact hs ▸ hw.write (task_write hpc.1 now .advanceGlobalMailVersion)
    | create hp =>
      refine hw.mono hg ?_
      rw [hs]
      simp only [Store.act]
      split <;> rfl
    | fetch | accept | markPublished | markFailed => exact hw.mono hg (hs ▸ rfl)

theorem relay_projects {w : World} {ls : List Label} (h : run (step sha256 config) init ls = some w) :
    Projects w.store := by
  have hboth : Relay.Inv w ∧ Projects w.store := by
    apply run_invariant (I := fun w => Relay.Inv w ∧ Projects w.store) ?_ ?_ h
    · exact fun _ _ _ hs hstep => ⟨(inv_step hs.1 hstep).1, projects_step hs.1 hs.2 hstep⟩
    · exact ⟨Relay.inv_init, [], fun x hx => absurd hx List.not_mem_nil, rfl⟩
  exact hboth.2

end Relays

end GlobalMailSystem.Projection
