import GlobalMailSystem.QueueWork

/-!
The queue comes to rest: where no call, lane or handler goroutine can take a step, every call has returned
and every token is back. Until then someone attends to each call. A panic of the WaitGroup on its reuse by a lane
that starts while `Close` returns is not modelled.
-/

namespace GlobalMailSystem.CommandQueue

open Rpc.Wire Transition

def Handler.replied : Handler → Bool
  | .deferred | .finished => true
  | .none | .spawned _ | .invoking _ | .replying _ => false

def HoldsIn (lanes : Table Lane.roleID) (c : Nat) (place : Place) : Prop :=
  ∃ lane ∈ lanes.rows, ∃ req, ((⟨c, req⟩ : Job), place) ∈ lane.held

structure Tended (lanes : Table Lane.roleID) (c : Nat) (call : Call) : Prop where
  laned : call.pc = .enqueue → ∃ lane ∈ lanes.rows, lane.roleID = commandRoleID call.req
  awaited : call.pc = .await → call.result = none → ∃ place, HoldsIn lanes c place ∧ place ≠ .handling .finish
  spawning : holdsSlot call = true → call.handler = .none → HoldsIn lanes c (.handling .spawn)
  answered : HoldsIn lanes c (.handling .wait) → call.handler.replied = true → call.inner ≠ none

structure Attended (w : World) : Prop where
  calls : ∀ (c : Nat) (call : Call), w.calls[c]? = some call → Tended w.lanes c call
  stopped : ∀ lane ∈ w.lanes.rows, lane.pc = .stopped → w.closed = true

section Holds

variable {lanes : Table Lane.roleID} {lane lane' : Lane} {c : Nat} {place : Place} {call : Call}

theorem mem_held {job : Job} :
    (job, place) ∈ lane.held ↔
      (∃ stage, lane.pc = .handle job stage ∧ place = .handling stage) ∨ (job ∈ lane.jobs ∧ place = .queued) := by
  cases hpc : lane.pc with
  | handle other stage =>
    rw [Lane.held_handle hpc]
    simp only [List.mem_cons, Prod.mk.injEq, List.mem_map, LanePC.handle.injEq]
    grind
  | idle =>
    rw [Lane.held_quiet (Or.inl hpc)]
    simp only [List.mem_map, Prod.mk.injEq]
    grind
  | stopped =>
    rw [Lane.held_quiet (Or.inr hpc)]
    simp only [List.mem_map, Prod.mk.injEq]
    grind

theorem holdsIn_upsert :
    HoldsIn (lanes.upsert lane') c place ↔ (∃ req, ((⟨c, req⟩ : Job), place) ∈ lane'.held) ∨
      ∃ lane ∈ lanes.rows, lane.roleID ≠ lane'.roleID ∧ ∃ req, ((⟨c, req⟩ : Job), place) ∈ lane.held := by
  simp only [HoldsIn, Table.mem_upsert]
  constructor
  · rintro ⟨lane, rfl | ⟨hlane, hne⟩, hheld⟩
    · exact Or.inl hheld
    · exact Or.inr ⟨lane, hlane, hne, hheld⟩
  · rintro (hheld | ⟨lane, hlane, hne, hheld⟩)
    · exact ⟨lane', Or.inl rfl, hheld⟩
    · exact ⟨lane, Or.inr ⟨hlane, hne⟩, hheld⟩

theorem holdsIn_replaced (hlane : lane ∈ lanes.rows) (hrole : lane'.roleID = lane.roleID)
    (hheld : ∀ req, ((⟨c, req⟩ : Job), place) ∈ lane'.held ↔ ((⟨c, req⟩ : Job), place) ∈ lane.held) :
    HoldsIn (lanes.upsert lane') c place ↔ HoldsIn lanes c place := by
  rw [holdsIn_upsert, exists_congr hheld, hrole]
  constructor
  · rintro (hown | ⟨other, hother, _, hholds⟩)
    · exact ⟨lane, hlane, hown⟩
    · exact ⟨other, hother, hholds⟩
  · rintro ⟨other, hother, hholds⟩
    by_cases he : other.roleID = lane.roleID
    · exact Or.inl (lanes.row_unique hother hlane he ▸ hholds)
    · exact Or.inr ⟨other, hother, he, hholds⟩

theorem holdsIn_created (hnone : lanes.find? lane'.roleID = none) (hempty : lane'.held = []) :
    HoldsIn (lanes.upsert lane') c place ↔ HoldsIn lanes c place := by
  rw [holdsIn_upsert, hempty]
  constructor
  · rintro (⟨_, hheld⟩ | ⟨lane, hlane, _, hholds⟩)
    · cases hheld
    · exact ⟨lane, hlane, hholds⟩
  · rintro ⟨lane, hlane, hholds⟩
    exact Or.inr ⟨lane, hlane, Table.find?_eq_none.mp hnone lane hlane, hholds⟩

theorem roles_upsert (lane' : Lane) (hlane : lane ∈ lanes.rows) :
    ∃ kept ∈ (lanes.upsert lane').rows, kept.roleID = lane.roleID := by
  by_cases he : lane.roleID = lane'.roleID
  · exact ⟨lane', Table.mem_upsert.mpr (Or.inl rfl), he.symm⟩
  · exact ⟨lane, Table.mem_upsert.mpr (Or.inr ⟨hlane, he⟩), rfl⟩

theorem Tended.upsert (h : Tended lanes c call)
    (hheld : ∀ place, HoldsIn (lanes.upsert lane') c place ↔ HoldsIn lanes c place) :
    Tended (lanes.upsert lane') c call where
  laned hpc := by
    obtain ⟨lane, hlane, hrole⟩ := h.laned hpc
    obtain ⟨kept, hkept, he⟩ := roles_upsert lane' hlane
    exact ⟨kept, hkept, he.trans hrole⟩
  awaited hpc hres := by
    obtain ⟨place, hplace, hne⟩ := h.awaited hpc hres
    exact ⟨place, (hheld place).mpr hplace, hne⟩
  spawning hslot hh := (hheld _).mpr (h.spawning hslot hh)
  answered hwait := h.answered ((hheld _).mp hwait)

theorem QueueInv.place_unique {o : CommandQueueOptions} {w : World} (hw : QueueInv o w) {job : Job}
    (hlane : lane ∈ w.lanes.rows) (hheld : (job, place) ∈ lane.held) {place' : Place} :
    HoldsIn w.lanes job.call place' ↔ place' = place := by
  -- a call is in one place of one lane
  constructor
  · rintro ⟨other, hother, req, hheld'⟩
    have hrole := (hw.lanes other hother).other (hw.lanes lane hlane) hheld' hheld rfl
    rw [w.lanes.row_unique hother hlane hrole] at hheld'
    have hpair := List.inj_on_of_nodup_map (hw.lanes lane hlane).nodup hheld' hheld rfl
    exact congrArg Prod.snd hpair
  · rintro rfl
    exact ⟨lane, hlane, job.req, hheld⟩

end Holds

section Steps

variable {o : CommandQueueOptions} {w w' : World} {c : Nat} {call : Call} {change : Change}

theorem attended_call (hw : Attended w) (hc : w.calls[c]? = some call) (hlane : change.lane = none)
    (hown : Tended w.lanes c change.call) : Attended (w.commit c change) := by
  have hlanes : (w.commit c change).lanes = w.lanes := by simp only [World.commit, hlane]
  constructor
  · intro j call' hj
    rw [hlanes]
    rcases commit_call hc hj with ⟨rfl, rfl⟩ | ⟨_, hj⟩
    · exact hown
    · exact hw.calls j call' hj
  · rw [hlanes]
    exact hw.stopped

theorem attended_lane {lane' : Lane} (hw : Attended w) (hc : w.calls[c]? = some call)
    (hlane : change.lane = some lane') (hstopped : lane'.pc = .stopped → w.closed = true)
    (hheld : ∀ j, j ≠ c → ∀ place, HoldsIn (w.lanes.upsert lane') j place ↔ HoldsIn w.lanes j place)
    (hown : Tended (w.lanes.upsert lane') c change.call) : Attended (w.commit c change) := by
  have hlanes : (w.commit c change).lanes = w.lanes.upsert lane' := by simp only [World.commit, hlane]
  constructor
  · intro j call' hj
    rw [hlanes]
    rcases commit_call hc hj with ⟨rfl, rfl⟩ | ⟨hne, hj⟩
    · exact hown
    · exact (hw.calls j call' hj).upsert (hheld j hne)
  · rw [hlanes]
    intro lane hmem
    rcases Table.mem_upsert.mp hmem with rfl | ⟨hmem, _⟩
    · exact hstopped
    · exact hw.stopped lane hmem

theorem CallerMove.attended (h : CallerMove w c call change) (hw : Attended w) (hc : w.calls[c]? = some call) :
    Attended (w.commit c change) := by
  have htended := hw.calls c call hc
  cases h with
  | goes pc _ hawait hlane =>
    apply attended_call hw hc rfl
    exact ⟨hlane, fun hpc => absurd hpc hawait, htended.spawning, htended.answered⟩
  | admitted hpc =>
    apply attended_call hw hc rfl
    exact ⟨fun h => (by cases h), fun h => (by cases h), htended.spawning, htended.answered⟩
  | created hpc hnone =>
    have hsame (j : Nat) (place : Place) :
        HoldsIn (w.lanes.upsert ⟨commandRoleID call.req, [], .idle⟩) j place ↔ HoldsIn w.lanes j place :=
      holdsIn_created hnone rfl
    apply attended_lane hw hc rfl (fun h => by cases h) fun j _ => hsame j
    have hkept := htended.upsert (hsame c)
    exact ⟨fun _ => ⟨_, Table.mem_upsert.mpr (Or.inl rfl), rfl⟩, fun h => (by cases h), hkept.spawning, hkept.answered⟩
  | queued lane hpc hlane hrole =>
    have hheld {j : Nat} {place : Place} (h : j ≠ c ∨ place ≠ .queued) (req : CommandRequest) :
        ((⟨j, req⟩ : Job), place) ∈ ({ lane with jobs := lane.jobs ++ [⟨c, call.req⟩] } : Lane).held ↔
          ((⟨j, req⟩ : Job), place) ∈ lane.held := by
      simp only [mem_held, List.mem_append, List.mem_singleton, Job.mk.injEq]
      grind
    have hkept {j : Nat} {place : Place} (h : j ≠ c ∨ place ≠ .queued) :
        HoldsIn (w.lanes.upsert { lane with jobs := lane.jobs ++ [⟨c, call.req⟩] }) j place ↔
          HoldsIn w.lanes j place :=
      holdsIn_replaced hlane rfl (hheld h)
    apply attended_lane hw hc rfl (by exact hw.stopped lane hlane) fun j hne place => hkept (Or.inl hne)
    refine ⟨fun h => (by cases h), fun _ _ => ⟨.queued, holdsIn_upsert.mpr (Or.inl ⟨call.req, ?_⟩), by simp⟩, ?_, ?_⟩
    · exact mem_held.mpr (Or.inr ⟨List.mem_append_right _ (List.mem_singleton.mpr rfl), rfl⟩)
    · intro hslot hh
      exact (hkept (Or.inr (by simp))).mpr (htended.spawning hslot hh)
    · intro hwait
      exact htended.answered ((hkept (Or.inr (by simp))).mp hwait)
  | received res hpc =>
    apply attended_call hw hc rfl
    exact ⟨fun h => (by cases h), fun h => (by cases h), htended.spawning, htended.answered⟩
  | released exit hpc extra tokens =>
    apply attended_call hw hc rfl
    refine ⟨fun h => ?_, fun h => ?_, htended.spawning, htended.answered⟩ <;> cases exit <;> cases h

theorem HandlerMove.attended (h : HandlerMove w call change) (hw : Attended w) (hc : w.calls[c]? = some call) :
    Attended (w.commit c change) := by
  have htended := hw.calls c call hc
  cases h with
  | begins | completes =>
    apply attended_call hw hc rfl
    exact ⟨htended.laned, htended.awaited, fun _ h => (by cases h), fun _ h => (by cases h)⟩
  | replies =>
    apply attended_call hw hc rfl
    exact ⟨htended.laned, htended.awaited, fun _ h => (by cases h), fun _ _ h => (by cases h)⟩
  | releases hh =>
    apply attended_call hw hc rfl
    exact ⟨htended.laned, htended.awaited, fun _ h => (by cases h),
      fun hwait _ => htended.answered hwait (by rw [hh]; rfl)⟩

theorem QueueInv.holdsIn_handled (hq : QueueInv o w) {lane : Lane} {job : Job} {stage : Stage} {place : Place}
    (hlane : lane ∈ w.lanes.rows) (hpc : lane.pc = .handle job stage) (pc : LanePC) :
    HoldsIn (w.lanes.upsert { lane with pc }) job.call place ↔
      ∃ req next, pc = .handle ⟨job.call, req⟩ next ∧ place = .handling next := by
  have hheld : (job, Place.handling stage) ∈ lane.held := mem_held.mpr (Or.inl ⟨stage, hpc, rfl⟩)
  rw [holdsIn_upsert]
  constructor
  · rintro (⟨req, hown⟩ | ⟨other, hother, hne, req, hother'⟩)
    · rcases mem_held.mp hown with ⟨next, hnext, rfl⟩ | ⟨hjob, rfl⟩
      · exact ⟨req, next, hnext, rfl⟩
      · have hqueued : HoldsIn w.lanes job.call .queued :=
          ⟨lane, hlane, req, mem_held.mpr (Or.inr ⟨hjob, rfl⟩)⟩
        cases (hq.place_unique hlane hheld).mp hqueued
    · exact absurd ((hq.lanes other hother).other (hq.lanes lane hlane) hother' hheld rfl) hne
  · rintro ⟨req, next, hnext, rfl⟩
    exact Or.inl ⟨req, mem_held.mpr (Or.inl ⟨next, hnext, rfl⟩)⟩

theorem attended_handle {lane : Lane} {job : Job} {stage : Stage} {pc : LanePC} (hw : Attended w) (hq : QueueInv o w)
    (hlane : lane ∈ w.lanes.rows) (hpc : lane.pc = .handle job stage) (hc : w.calls[job.call]? = some call)
    (hnew : change.lane = some { lane with pc }) (hnext : pc = .idle ∨ ∃ next, pc = .handle job next)
    (hcaller : change.call.req = call.req ∧ change.call.pc = call.pc)
    (hawait : call.pc = .await → change.call.result = none → ∃ next, pc = .handle job next ∧ next ≠ .finish)
    (hspawn : holdsSlot change.call = true → change.call.handler = .none → pc = .handle job .spawn)
    (hwait : pc = .handle job .wait → change.call.handler.replied = true → change.call.inner ≠ none) :
    Attended (w.commit job.call change) := by
  have hafter {place : Place} : HoldsIn (w.lanes.upsert { lane with pc }) job.call place ↔
      ∃ req next, pc = .handle ⟨job.call, req⟩ next ∧ place = .handling next := hq.holdsIn_handled hlane hpc pc
  have hstopped : pc ≠ .stopped := by
    rcases hnext with rfl | ⟨next, rfl⟩ <;> simp
  apply attended_lane hw hc hnew fun h => absurd h hstopped
  · intro j hne place
    apply holdsIn_replaced hlane (by rfl)
    intro req
    simp only [mem_held, hpc]
    rcases hnext with rfl | ⟨next, rfl⟩ <;> grind
  · obtain ⟨hreq, hsame⟩ := hcaller
    refine ⟨fun h => ?_, fun h hres => ?_, fun hslot hh => ?_, fun hholds => ?_⟩
    · rw [hsame] at h
      obtain ⟨other, hother, hrole⟩ := (hw.calls job.call call hc).laned h
      obtain ⟨kept, hkept, he⟩ := roles_upsert { lane with pc } hother
      exact ⟨kept, hkept, he.trans (hrole.trans (by rw [hreq]))⟩
    · rw [hsame] at h
      obtain ⟨next, rfl, hne⟩ := hawait h hres
      exact ⟨.handling next, hafter.mpr ⟨job.req, next, rfl, rfl⟩, fun he => hne (Place.handling.inj he)⟩
    · exact hafter.mpr ⟨job.req, .spawn, hspawn hslot hh, rfl⟩
    · obtain ⟨req, next, hpc', he⟩ := hafter.mp hholds
      cases he
      apply hwait
      rcases hnext with rfl | ⟨next, rfl⟩
      · cases hpc'
      · rw [(LanePC.handle.inj hpc').2]

theorem HandleMove.attended {lane : Lane} {job : Job} {stage : Stage} (h : HandleMove w lane job call stage change)
    (hw : Attended w) (hq : QueueInv o w) (hlane : lane ∈ w.lanes.rows) (hpc : lane.pc = .handle job stage)
    (hc : w.calls[job.call]? = some call) : Attended (w.commit job.call change) := by
  have htended := hw.calls job.call call hc
  have hbefore {place : Place} : HoldsIn w.lanes job.call place ↔ place = .handling stage :=
    hq.place_unique hlane (mem_held.mpr (Or.inl ⟨stage, hpc, rfl⟩))
  have hspawned (hne : stage ≠ .spawn) (hslot : holdsSlot call = true) : call.handler ≠ .none := by
    intro hh
    exact hne (Place.handling.inj (hbefore.mp (htended.spawning hslot hh))).symm
  cases h with
  | goes next _ hspawn hwait hfinish =>
    apply attended_handle hw hq hlane hpc hc rfl (Or.inr ⟨next, rfl⟩) ⟨rfl, rfl⟩
    · exact fun _ _ => ⟨next, rfl, hfinish⟩
    · exact fun hslot hh => absurd hh (hspawned hspawn hslot)
    · exact fun he => absurd (LanePC.handle.inj he).2 hwait
  | acquired =>
    apply attended_handle hw hq hlane hpc hc rfl (Or.inr ⟨.spawn, rfl⟩) ⟨rfl, rfl⟩
    · exact fun _ _ => ⟨.spawn, rfl, by simp⟩
    · exact fun _ _ => rfl
    · exact fun he => by cases he
  | spawned =>
    apply attended_handle hw hq hlane hpc hc rfl (Or.inr ⟨.wait, rfl⟩) ⟨rfl, rfl⟩
    · exact fun _ _ => ⟨.wait, rfl, by simp⟩
    · exact fun _ hh => by cases hh
    · exact fun _ hh => by cases hh
  | received res =>
    apply attended_handle hw hq hlane hpc hc rfl (Or.inr ⟨.send res, rfl⟩) ⟨rfl, rfl⟩
    · exact fun _ _ => ⟨.send res, rfl, by simp⟩
    · exact fun hslot hh => absurd hh (hspawned (by simp) hslot)
    · exact fun he => by cases he
  | slotReleased err extra tokens =>
    apply attended_handle hw hq hlane hpc hc rfl (Or.inr ⟨_, rfl⟩) ⟨rfl, rfl⟩
    · exact fun _ _ => ⟨_, rfl, by simp⟩
    · exact fun hslot => by simp [holdsSlot] at hslot
    · exact fun he => by cases he
  | sent res =>
    apply attended_handle hw hq hlane hpc hc rfl (Or.inr ⟨.finish, rfl⟩) ⟨rfl, rfl⟩
    · exact fun _ hres => by cases hres
    · exact fun hslot hh => absurd hh (hspawned (by simp) hslot)
    · exact fun he => by cases he
  | finished extra tokens =>
    apply attended_handle hw hq hlane hpc hc rfl (Or.inl rfl) ⟨rfl, rfl⟩
    · intro hpc hres
      obtain ⟨place, hholds, hne⟩ := htended.awaited hpc hres
      exact absurd (hbefore.mp hholds) hne
    · exact fun hslot hh => absurd hh (hspawned (by simp) hslot)
    · exact fun he => by cases he

theorem attended_setLane {lane' : Lane} (hw : Attended w) (hstopped : lane'.pc = .stopped → w.closed = true)
    (hcalls : ∀ (c : Nat) (call : Call), w.calls[c]? = some call → Tended (w.lanes.upsert lane') c call) :
    Attended (w.setLane lane') := by
  refine ⟨hcalls, fun lane hmem => ?_⟩
  rcases Table.mem_upsert.mp hmem with rfl | ⟨hmem, _⟩
  · exact hstopped
  · exact hw.stopped lane hmem

theorem attended_take {lane : Lane} {job : Job} {rest : List Job} (hw : Attended w) (hq : QueueInv o w)
    (hlane : lane ∈ w.lanes.rows) (hpc : lane.pc = .idle) (hjobs : lane.jobs = job :: rest) :
    Attended (w.setLane { lane with jobs := rest, pc := .handle job .check }) := by
  have hbefore {place : Place} : HoldsIn w.lanes job.call place ↔ place = .queued :=
    hq.place_unique hlane (mem_held.mpr (Or.inr ⟨hjobs ▸ List.mem_cons_self, rfl⟩))
  apply attended_setLane hw (fun h => by cases h)
  intro c call hc
  have htended := hw.calls c call hc
  by_cases he : c = job.call
  · subst he
    refine ⟨fun h => ?_, fun _ _ => ?_, fun hslot hh => ?_, fun hwait => ?_⟩
    · obtain ⟨other, hother, hrole⟩ := htended.laned h
      obtain ⟨kept, hkept, hsame⟩ := roles_upsert { lane with jobs := rest, pc := .handle job .check } hother
      exact ⟨kept, hkept, hsame.trans hrole⟩
    · refine ⟨.handling .check, holdsIn_upsert.mpr (Or.inl ⟨job.req, ?_⟩), by simp⟩
      exact mem_held.mpr (Or.inl ⟨.check, rfl, rfl⟩)
    · cases hbefore.mp (htended.spawning hslot hh)
    · rcases holdsIn_upsert.mp hwait with ⟨req, hown⟩ | ⟨other, hother, _, hholds⟩
      · simp [mem_held] at hown
      · cases hbefore.mp ⟨other, hother, hholds⟩
  · apply htended.upsert
    intro place
    apply holdsIn_replaced hlane (by rfl)
    intro req
    simp only [mem_held, hpc, hjobs]
    grind

theorem attended_step {l : Label} (hw : Attended w) (hq : QueueInv o w) (h : step o w l = some w') : Attended w' := by
  cases step_moves h with
  | @dispatch req =>
    refine ⟨fun c call hc => ?_, hw.stopped⟩
    rw [List.getElem?_append] at hc
    split_ifs at hc
    · exact hw.calls c call hc
    · rw [List.mem_singleton.mp (List.mem_of_getElem? hc)]
      exact ⟨fun h => (by cases h), fun h => (by cases h), fun h => (by cases h), fun _ h => by cases h⟩
  | context hc hstep =>
    obtain ⟨parent, ctx, rfl⟩ := contextStep_spec hstep
    have htended := hw.calls _ _ hc
    exact attended_call hw hc rfl ⟨htended.laned, htended.awaited, htended.spawning, htended.answered⟩
  | caller hc hstep => exact (callerStep_move hstep).attended hw hc
  | handler hc hstep => exact (handlerStep_move hstep).attended hw hc
  | handle hlane hpc hc hstep => exact (handleStep_move hstep).attended hw hq hlane hpc hc
  | take hlane hpc hjobs => exact attended_take hw hq hlane hpc hjobs
  | stop hlane hpc hclosed =>
    apply attended_setLane hw fun _ => hclosed
    intro c call hc
    apply (hw.calls c call hc).upsert
    intro place
    apply holdsIn_replaced hlane (by rfl)
    intro req
    rw [Lane.held_quiet (Or.inr rfl), Lane.held_quiet (Or.inl hpc)]
  | close => exact ⟨hw.calls, fun _ _ _ => rfl⟩
  | closeReturn => exact ⟨hw.calls, hw.stopped⟩

theorem attended_run {ls : List Label} (h : run (step o) init ls = some w) : Attended w := by
  have hinit : QueueInv o init ∧ Attended init :=
    ⟨queueInv_init, fun c call hc => by simp [init] at hc, fun lane hlane => by cases hlane⟩
  have hstep (s : World) (l : Label) (t : World) (hs : QueueInv o s ∧ Attended s) (hl : step o s l = some t) :
      QueueInv o t ∧ Attended t := ⟨queueInv_step hs.1 hl, attended_step hs.2 hs.1 hl⟩
  exact (run_invariant hstep hinit h).2

end Steps

structure Drained (w : World) : Prop where
  returned : ∀ call ∈ w.calls, ∃ answer, call.pc = .returned answer
  handlers : ∀ call ∈ w.calls, call.handler = .none ∨ call.handler = .finished
  lanes : ∀ lane ∈ w.lanes.rows, lane.pc = .stopped ∨ lane.pc = .idle ∧ lane.jobs = [] ∧ w.closed = false
  capacity : w.capacity = 0
  workerSlots : w.workerSlots = 0

def Label.scheduled : Label → Bool
  | .caller _ _ | .lane _ _ | .handler _ _ => true
  | .dispatch _ | .context _ _ | .close | .closeReturn => false

theorem scheduled_ongoing {l : Label} (h : l.scheduled = true) : l.ongoing = true := by
  cases l with
  | caller | lane | handler => rfl
  | dispatch | context | close | closeReturn => cases h

def Stuck (o : CommandQueueOptions) (w : World) : Prop := ∀ l : Label, l.scheduled = true → step o w l = none

section Rest

variable {o : CommandQueueOptions} {w : World}

theorem positiveOr_pos (n : Int) {fallback : Nat} (h : 0 < fallback) : 0 < positiveOr n fallback := by
  unfold positiveOr
  split_ifs <;> omega

theorem Stuck.caller (hs : Stuck o w) {c : Nat} {call : Call} (hc : w.calls[c]? = some call) (case : Case) :
    callerStep o w c call call.pc case = none := by
  have hnone := hs (.caller c case) rfl
  apply Option.eq_none_iff_forall_ne_some.mpr
  simpa [step, hc] using hnone

theorem Stuck.handler (hs : Stuck o w) {c : Nat} {call : Call} (hc : w.calls[c]? = some call)
    (res : CommandResult) : handlerStep w call res call.handler = none := by
  have hnone := hs (.handler c res) rfl
  apply Option.eq_none_iff_forall_ne_some.mpr
  simpa [step, hc] using hnone

theorem Stuck.lane (hs : Stuck o w) {lane : Lane} (hlane : lane ∈ w.lanes.rows) (case : Case) :
    laneStep o w lane lane.pc case = none := by
  have hfind : w.lanes.find? lane.roleID = some lane := Table.find?_eq_some.mpr ⟨hlane, rfl⟩
  have hnone := hs (.lane lane.roleID case) rfl
  simpa [step, hfind] using hnone

theorem Stuck.handle (hs : Stuck o w) {lane : Lane} {job : Job} {stage : Stage} {call : Call}
    (hlane : lane ∈ w.lanes.rows) (hpc : lane.pc = .handle job stage) (hc : w.calls[job.call]? = some call)
    (case : Case) : handleStep o w lane job call stage case = none := by
  have hnone := hs.lane hlane case
  rw [hpc] at hnone
  apply Option.eq_none_iff_forall_ne_some.mpr
  simpa [laneStep, hc] using hnone

theorem Stuck.handlers (hs : Stuck o w) (hq : QueueInv o w) {call : Call} (hmem : call ∈ w.calls) :
    call.handler = .none ∨ call.handler = .finished := by
  obtain ⟨c, hc⟩ := List.mem_iff_getElem?.mp hmem
  have hnone := hs.handler hc ⟨none, none⟩
  have henabled := hs (.handler c ⟨none, none⟩) rfl
  cases hh : call.handler with
  | none => exact Or.inl rfl
  | finished => exact Or.inr rfl
  | spawned | invoking =>
    rw [hh] at hnone
    cases hnone
  | replying reply =>
    obtain ⟨w', hw'⟩ := handler_reply_enabled hq ⟨none, none⟩ hc hh
    rw [henabled] at hw'
    cases hw'
  | deferred =>
    obtain ⟨w', hw'⟩ := handler_release_enabled hq ⟨none, none⟩ hc hh
    rw [henabled] at hw'
    cases hw'

theorem Stuck.not_spawning (hs : Stuck o w) (hq : QueueInv o w) {lane : Lane} {job : Job}
    (hlane : lane ∈ w.lanes.rows) : lane.pc ≠ .handle job .spawn := by
  intro hpc
  obtain ⟨call, hc, _⟩ := (hq.lanes lane hlane).held job _ (mem_held.mpr (Or.inl ⟨_, hpc, rfl⟩))
  cases hs.handle hlane hpc hc .ready

theorem Stuck.workerSlots (hs : Stuck o w) (hq : QueueInv o w) (hw : Attended w) : w.workerSlots = 0 := by
  rw [hq.slots.1, List.countP_eq_zero]
  intro call hmem hslot
  obtain ⟨c, hc⟩ := List.mem_iff_getElem?.mp hmem
  rcases hs.handlers hq hmem with hh | hh
  · obtain ⟨lane, hlane, req, hheld⟩ := (hw.calls c call hc).spawning hslot hh
    rcases mem_held.mp hheld with ⟨stage, hpc, he⟩ | ⟨_, he⟩
    · cases he
      exact hs.not_spawning hq hlane hpc
    · cases he
  · simp [holdsSlot, (hq.calls call hmem).finished hh] at hslot

theorem Stuck.not_handling (hs : Stuck o w) (hq : QueueInv o w) (hw : Attended w) {lane : Lane} {job : Job}
    {stage : Stage} (hlane : lane ∈ w.lanes.rows) : lane.pc ≠ .handle job stage := by
  intro hpc
  have hheld : (job, Place.handling stage) ∈ lane.held := mem_held.mpr (Or.inl ⟨stage, hpc, rfl⟩)
  obtain ⟨call, hc, _, _, _, hplace⟩ := (hq.lanes lane hlane).held job _ hheld
  have hnone := hs.handle hlane hpc hc
  cases stage with
  | check =>
    cases hctx : call.ctxErr o with
    | none => simpa [handleStep, hctx] using hnone .default
    | some err => simpa [handleStep, hctx] using hnone .ctxDone
  | acquire =>
    have hroom : w.workerSlots < o.workerLimit := by
      rw [hs.workerSlots hq hw]
      exact positiveOr_pos _ (by decide)
    simpa [handleStep, hroom] using hnone .ready
  | spawn => exact hs.not_spawning hq hlane hpc
  | wait =>
    have hh := (hs.handlers hq (List.mem_of_getElem? hc)).resolve_left hplace.1
    have hinner := (hw.calls job.call call hc).answered ⟨lane, hlane, job.req, hheld⟩ (by rw [hh]; rfl)
    obtain ⟨res, hres⟩ := Option.ne_none_iff_exists'.mp hinner
    simpa [handleStep, hres] using hnone .ready
  | releaseSlot | send | finish =>
    obtain ⟨change, hchange⟩ := handleStep_enabled hq hlane hpc rfl hc
    rw [hnone .ready] at hchange
    cases hchange

theorem Stuck.lanes (hs : Stuck o w) (hq : QueueInv o w) (hw : Attended w) {lane : Lane}
    (hlane : lane ∈ w.lanes.rows) : lane.pc = .stopped ∨ lane.pc = .idle ∧ lane.jobs = [] ∧ w.closed = false := by
  cases hpc : lane.pc with
  | stopped => exact Or.inl rfl
  | handle job stage => exact absurd hpc (hs.not_handling hq hw hlane)
  | idle =>
    have hnone := hs.lane hlane
    rw [hpc] at hnone
    refine Or.inr ⟨rfl, ?_, ?_⟩
    · cases hjobs : lane.jobs with
      | nil => rfl
      | cons job rest => simpa [laneStep, hjobs] using hnone .ready
    · simpa [laneStep] using hnone .closed

theorem Stuck.returned (hs : Stuck o w) (hq : QueueInv o w) (hw : Attended w) {call : Call}
    (hmem : call ∈ w.calls) : ∃ answer, call.pc = .returned answer := by
  obtain ⟨c, hc⟩ := List.mem_iff_getElem?.mp hmem
  have htended := hw.calls c call hc
  have hnone := hs.caller hc
  -- every `select` of a caller has a case that is ready, the last one by what the lanes still hold
  cases hpc : call.pc with
  | returned answer => exact ⟨answer, rfl⟩
  | enter =>
    rw [hpc] at hnone
    have hctx : call.ctxErr o = none := by simpa [callerStep] using hnone .ctxDone
    have hopen : w.closed = false := by simpa [callerStep] using hnone .closed
    have hfull : o.capacityLimit ≤ w.capacity := by simpa [callerStep] using hnone .ready
    simpa [callerStep, hctx, hopen, hfull] using hnone .default
  | laneFor =>
    rw [hpc] at hnone
    have hready := hnone .ready
    simp only [callerStep] at hready
    split at hready <;> cases hready
  | enqueue =>
    rw [hpc] at hnone
    obtain ⟨lane, hlane, hrole⟩ := htended.laned hpc
    have hfind : w.lanes.find? (commandRoleID call.req) = some lane := Table.find?_eq_some.mpr ⟨hlane, hrole⟩
    have hctx : call.ctxErr o = none := by simpa [callerStep] using hnone .ctxDone
    have hopen : w.closed = false := by simpa [callerStep] using hnone .closed
    have hfull : o.roleQueueLimit ≤ lane.jobs.length := by simpa [callerStep, hfind] using hnone .ready
    simpa [callerStep, hfind, hctx, hopen, hfull] using hnone .default
  | await =>
    rw [hpc] at hnone
    have hopen : w.closed = false := by simpa [callerStep] using hnone .closed
    have hresult : call.result = none := by simpa [callerStep] using hnone .ready
    obtain ⟨place, ⟨lane, hlane, req, hheld⟩, _⟩ := htended.awaited hpc hresult
    rcases hs.lanes hq hw hlane with hstopped | ⟨hidle, hjobs, _⟩
    · rw [hw.stopped lane hlane hstopped] at hopen
      cases hopen
    · simp [mem_held, hidle, hjobs] at hheld
  | release exit =>
    obtain ⟨w', hw'⟩ := caller_release_enabled hq hc hpc
    rw [hs (.caller c .ready) rfl] at hw'
    cases hw'
  | contextDone err =>
    rw [hpc] at hnone
    cases hnone .ready

theorem Stuck.capacity (hs : Stuck o w) (hq : QueueInv o w) (hw : Attended w) : w.capacity = 0 := by
  rw [hq.capacity.1, List.countP_eq_zero]
  intro call hmem hholds
  obtain ⟨c, hc⟩ := List.mem_iff_getElem?.mp hmem
  obtain ⟨hadm, hreleased⟩ : call.admitted = true ∧ call.released = false := by simpa [holdsCapacity] using hholds
  obtain ⟨answer, hpc⟩ := hs.returned hq hw hmem
  have hadmission := (hq.calls call hmem).admission
  rw [hpc] at hadmission
  rcases hadmission hadm with hr | hd
  · rw [hr] at hreleased
    cases hreleased
  · obtain ⟨lane, hlane, req, hfinish⟩ := hq.finishing c call hc hd hreleased
    exact hs.not_handling hq hw hlane hfinish

theorem Stuck.drained (hs : Stuck o w) (hq : QueueInv o w) (hw : Attended w) : Drained w where
  returned _ hmem := hs.returned hq hw hmem
  handlers _ hmem := hs.handlers hq hmem
  lanes _ hlane := hs.lanes hq hw hlane
  capacity := hs.capacity hq hw
  workerSlots := hs.workerSlots hq hw

theorem Drained.stuck (hd : Drained w) : Stuck o w := by
  intro l hl
  cases l with
  | dispatch | context | close | closeReturn => cases hl
  | caller c case =>
    cases hc : w.calls[c]? with
    | none => simp [step, hc]
    | some call =>
      obtain ⟨answer, hpc⟩ := hd.returned call (List.mem_of_getElem? hc)
      cases case <;> simp [step, hc, hpc, callerStep]
  | handler c res =>
    cases hc : w.calls[c]? with
    | none => simp [step, hc]
    | some call =>
      rcases hd.handlers call (List.mem_of_getElem? hc) with hh | hh <;> simp [step, hc, hh, handlerStep]
  | lane roleID case =>
    cases hfind : w.lanes.find? roleID with
    | none => simp [step, hfind]
    | some lane =>
      rcases hd.lanes lane (Table.find?_eq_some.mp hfind).1 with hpc | ⟨hpc, hjobs, hopen⟩
      · cases case <;> simp [step, hfind, hpc, laneStep]
      · cases case <;> simp [step, hfind, hpc, laneStep, hjobs, hopen]

theorem Drained.closeReturns (hd : Drained w) (hclosed : w.closed = true) :
    step o w .closeReturn = some { w with closeReturned := true } := by
  apply if_pos
  refine ⟨hclosed, fun lane hlane => ?_⟩
  rcases hd.lanes lane hlane with hpc | ⟨_, _, hopen⟩
  · exact hpc
  · rw [hclosed] at hopen
    cases hopen

end Rest

theorem queue_drains (o : CommandQueueOptions) (ls : List Label) (w : World)
    (h : run (step o) init ls = some w) :
    (∀ (ls' : List Label) (w' : World), (∀ l ∈ ls', l.ongoing = true) → run (step o) w ls' = some w' →
      ls'.length ≤ w.work) ∧
    ((∀ l : Label, l.scheduled = true → step o w l = none) ↔ Drained w) ∧
    (∃ w', Reaches (step o) (fun l => l.scheduled = true) w w' ∧ Drained w') ∧
    (w.closed = true → Drained w → ∃ w', step o w .closeReturn = some w') := by
  have hlowers (s : World) (l : Label) (t : World) (hl : l.ongoing = true) (hstep : step o s l = some t) :
      t.work < s.work := step_work_lt hl hstep
  refine ⟨fun ls' w' hown hrun => ?_, ⟨fun hs => ?_, fun hd => hd.stuck⟩, ?_, fun hclosed hd => ?_⟩
  · have hbound := run_length_le hlowers hown hrun
    omega
  · exact Stuck.drained hs (queueInv_run h) (attended_run h)
  · obtain ⟨w', ⟨ls', hown, hrun⟩, hlast⟩ :=
      Reaches.exhausts (fun s l t hl => hlowers s l t (scheduled_ongoing hl)) w
    have hall : run (step o) init (ls ++ ls') = some w' := run_append.mpr ⟨w, h, hrun⟩
    exact ⟨w', ⟨ls', hown, hrun⟩, Stuck.drained hlast (queueInv_run hall) (attended_run hall)⟩
  · exact ⟨_, hd.closeReturns hclosed⟩

section ClosedUnderWay

def closedUnderWay : List Label := startCommand 0 5 ++ [.close]

def underWay : World := (run (step defaultOptions) init closedUnderWay).get (by rfl)

theorem closedUnderWay_drains :
    run (step defaultOptions) init closedUnderWay = some underWay ∧ ¬ Drained underWay ∧
      ∃ w', Reaches (step defaultOptions) (fun l => l.scheduled = true) underWay w' ∧ Drained w' := by
  have hrun : run (step defaultOptions) init closedUnderWay = some underWay := (Option.some_get _).symm
  refine ⟨hrun, fun hd => ?_, (queue_drains defaultOptions closedUnderWay underWay hrun).2.2.1⟩
  have hbusy : underWay.workerSlots = 1 := by rfl
  rw [hd.workerSlots] at hbusy
  cases hbusy

end ClosedUnderWay

end GlobalMailSystem.CommandQueue
