import GlobalMailSystem.QueueAnswers

namespace GlobalMailSystem.CommandQueue

open Rpc.Wire Transition

def World.hasLane (w : World) (req : CommandRequest) : Bool := (w.lanes.find? (commandRoleID req)).isSome

/-- When `Close` returns, every admitted caller before `laneFor` finds its lane and every handler goroutine
has begun; a call that is admitted after that finds its lane as well. -/
def ClosesQuietly (w : World) : Label → Prop
  | .closeReturn => ∀ call ∈ w.calls,
      (call.pc = .laneFor → w.hasLane call.req = true) ∧ call.handler.unbegun = false
  | .caller c .ready => w.closeReturned = true → ∀ call ∈ w.calls[c]?, call.pc = .enter →
      w.hasLane call.req = true
  | _ => True

instance (w : World) : (l : Label) → Decidable (ClosesQuietly w l)
  | .closeReturn => inferInstanceAs (Decidable (∀ call ∈ w.calls, _ ∧ _))
  | .caller c .ready => inferInstanceAs (Decidable (_ → ∀ call ∈ w.calls[c]?, _))
  | .caller _ .ctxDone | .caller _ .closed | .caller _ .default | .dispatch _ | .context _ _ | .lane _ _
  | .handler _ _ | .close => isTrue trivial

structure Quiet (w : World) : Prop where
  closed : w.closed = true
  stopped : ∀ lane ∈ w.lanes.rows, lane.pc = .stopped
  laned : ∀ call ∈ w.calls, call.pc = .laneFor → w.hasLane call.req = true
  begun : ∀ call ∈ w.calls, call.handler.unbegun = false

structure NothingStarts (w w' : World) : Prop where
  lanes : ∀ lane' ∈ w'.lanes.rows, ∃ lane ∈ w.lanes.rows, lane.roleID = lane'.roleID
  calls : ∀ (c : Nat) (call : Call), w.calls[c]? = some call → ∃ call' : Call, w'.calls[c]? = some call' ∧
    call'.history.countP Entry.invokes = call.history.countP Entry.invokes

def Late (call : Call) : Prop := Pristine call ∧ call.pc.answer ≠ some .queueFull

namespace NothingStarts

theorem refl (w : World) : NothingStarts w w :=
  ⟨fun lane h => ⟨lane, h, rfl⟩, fun _ call hc => ⟨call, hc, rfl⟩⟩

theorem trans {w w' w'' : World} (h : NothingStarts w w') (h' : NothingStarts w' w'') :
    NothingStarts w w'' := by
  constructor
  · intro lane'' hlane''
    obtain ⟨lane', hlane', hrole'⟩ := h'.lanes lane'' hlane''
    obtain ⟨lane, hlane, hrole⟩ := h.lanes lane' hlane'
    exact ⟨lane, hlane, hrole.trans hrole'⟩
  · intro c call hc
    obtain ⟨call', hc', hcount⟩ := h.calls c call hc
    obtain ⟨call'', hc'', hcount'⟩ := h'.calls c call' hc'
    exact ⟨call'', hc'', hcount'.trans hcount⟩

end NothingStarts

theorem countP_invokes {l l' : List Entry}
    (h : l'.filter Entry.dispatching = l.filter Entry.dispatching) :
    l'.countP Entry.invokes = l.countP Entry.invokes := by
  have hpart (entries : List Entry) :
      (entries.filter Entry.dispatching).countP Entry.invokes = entries.countP Entry.invokes := by
    rw [List.countP_filter]
    congr 1
    funext entry
    cases entry <;> rfl
  rw [← hpart l', h, hpart l]

section Steps

variable {o : CommandQueueOptions} {w w' : World}

theorem hasLane_iff {req : CommandRequest} :
    w.hasLane req = true ↔ ∃ lane ∈ w.lanes.rows, lane.roleID = commandRoleID req := by
  simp only [World.hasLane, Option.isSome_iff_exists, Table.find?_eq_some]

theorem CallerLane.quiet {c : Nat} {call : Call} {change : Change} (h : CallerLane w c call change)
    (hq : Quiet w) (hc : w.calls[c]? = some call) {lane' : Lane}
    (hlane' : lane' ∈ (w.commit c change).lanes.rows) :
    ∃ lane ∈ w.lanes.rows, lane.roleID = lane'.roleID ∧ lane.pc = lane'.pc := by
  -- in a quiet queue a step of the caller makes no lane: the lanes are the same but for their jobs
  rcases mem_commit_lanes.mp hlane' with hnew | ⟨hold, _⟩
  · cases h with
    | same hnone =>
      rw [hnone] at hnew
      cases hnew
    | created hpc hnone _ =>
      have hlane := hq.laned call (List.mem_of_getElem? hc) hpc
      rw [World.hasLane, hnone] at hlane
      cases hlane
    | queued lane _ hlane _ _ hqueued =>
      rw [hqueued] at hnew
      cases hnew
      exact ⟨lane, hlane, rfl, rfl⟩
  · exact ⟨lane', hold, rfl, rfl⟩

theorem callerStep_laneFor {c : Nat} {call : Call} {case : Case} {change : Change}
    (h : callerStep o w c call call.pc case = some change) (hframe : CallerFrame w call change.call)
    (hpc : change.call.pc = .laneFor) : case = .ready ∧ call.pc = .enter := by
  have henter : call.pc = .enter := by
    have hrank := hframe.rank
    rw [hpc] at hrank
    cases hcall : call.pc with
    | enter => rfl
    | laneFor | enqueue | await | release | contextDone | returned =>
      rw [hcall] at hrank
      simp [CallerPC.rank] at hrank
  refine ⟨?_, henter⟩
  rw [henter] at h
  cases case with
  | ready => rfl
  | ctxDone =>
    obtain ⟨_, _, rfl⟩ := Option.map_eq_some_iff.mp h
    cases hpc
  | closed | default =>
    simp only [callerStep] at h
    split_ifs at h
    cases h
    cases hpc

theorem quiet_commit {c : Nat} {call : Call} {change : Change} (hq : Quiet w)
    (hc : w.calls[c]? = some call) (hlane : CallerLane w c call change)
    (hreq : change.call.req = call.req) (hbegun : change.call.handler.unbegun = false)
    (hlaned : change.call.pc = .laneFor → w.hasLane call.req = true)
    (hcount : change.call.history.countP Entry.invokes = call.history.countP Entry.invokes) :
    Quiet (w.commit c change) ∧ NothingStarts w (w.commit c change) := by
  have hkept {req : CommandRequest} (h : w.hasLane req = true) :
      (w.commit c change).hasLane req = true := by
    obtain ⟨lane, hmem, hrole⟩ := hasLane_iff.mp h
    obtain ⟨lane', hmem', hrole', _⟩ := hlane.kept hmem
    exact hasLane_iff.mpr ⟨lane', hmem', hrole'.trans hrole⟩
  refine ⟨⟨hq.closed, fun lane' hmem' => ?_, fun call' hcall' hpc => ?_, fun call' hcall' => ?_⟩,
    fun lane' hmem' => ?_, fun j callj hj => ?_⟩
  · obtain ⟨lane, hmem, _, hpc⟩ := hlane.quiet hq hc hmem'
    exact hpc.symm.trans (hq.stopped lane hmem)
  · rcases List.mem_or_eq_of_mem_set hcall' with h | rfl
    · exact hkept (hq.laned call' h hpc)
    · exact hkept (hreq ▸ hlaned hpc)
  · rcases List.mem_or_eq_of_mem_set hcall' with h | rfl
    · exact hq.begun call' h
    · exact hbegun
  · obtain ⟨lane, hmem, hrole, _⟩ := hlane.quiet hq hc hmem'
    exact ⟨lane, hmem, hrole⟩
  · exact commit_related (R := fun call call' =>
      call'.history.countP Entry.invokes = call.history.countP Entry.invokes) (fun _ => rfl) hc hcount hj

theorem quiet_step {l : Label} (hw : QueueInv o w) (hreturned : w.closeReturned = true) (hq : Quiet w)
    (hok : ClosesQuietly w l) (h : step o w l = some w') : Quiet w' ∧ NothingStarts w w' := by
  cases step_moves h with
  | dispatch =>
    refine ⟨⟨hq.closed, hq.stopped, fun call hcall hpc => ?_, fun call hcall => ?_⟩,
      fun lane hlane => ⟨lane, hlane, rfl⟩, fun c call hc => ⟨call, ?_, rfl⟩⟩
    · rcases List.mem_append.mp hcall with h | h
      · exact hq.laned call h hpc
      · rw [List.mem_singleton.mp h] at hpc
        cases hpc
    · rcases List.mem_append.mp hcall with h | h
      · exact hq.begun call h
      · rw [List.mem_singleton.mp h]
        rfl
    · rw [List.getElem?_append_left (List.getElem?_eq_some_iff.mp hc).1]
      exact hc
  | @context c event call call' hc hstep =>
    obtain ⟨_, _, rfl⟩ := contextStep_spec hstep
    have hmem := List.mem_of_getElem? hc
    exact quiet_commit hq hc (.same rfl) rfl (hq.begun call hmem) (hq.laned call hmem) rfl
  | @caller c case call change hc hstep =>
    have hmem := List.mem_of_getElem? hc
    obtain ⟨⟨hb, _⟩, hlane, hframe⟩ := callerStep_ok (hw.calls _ hmem) hstep
    refine quiet_commit hq hc hlane hb.req ?_ ?_ (countP_invokes hframe.dispatched)
    · rw [hframe.handler]
      exact hq.begun call hmem
    · intro hpc
      -- only the admission leads to `laneFor`
      obtain ⟨hcase, henter⟩ := callerStep_laneFor hstep hframe hpc
      subst hcase
      exact hok hreturned call hc henter
  | handler hc hstep =>
    have hmem := List.mem_of_getElem? hc
    obtain ⟨⟨hb, _⟩, hlane⟩ := handlerStep_ok (o := o) (hw.calls _ hmem) hstep
    have hframe := handlerStep_frame hstep
    exact quiet_commit hq hc (.same hlane) hb.req hframe.begun
      (fun hpc => hq.laned _ hmem (hframe.pc ▸ hpc)) (hframe.invoked (hq.begun _ hmem))
  | handle hlane hpc | take hlane hpc | stop hlane hpc =>
    exact absurd (hpc.symm.trans (hq.stopped _ hlane)) nofun
  | close =>
    have hsame := NothingStarts.refl w
    exact ⟨⟨rfl, hq.stopped, hq.laned, hq.begun⟩, hsame.lanes, hsame.calls⟩
  | closeReturn =>
    have hsame := NothingStarts.refl w
    exact ⟨⟨hq.closed, hq.stopped, hq.laned, hq.begun⟩, hsame.lanes, hsame.calls⟩

theorem closeReturned_step {l : Label} (h : step o w l = some w') (hw : w.closeReturned = true) :
    w'.closeReturned = true := by
  cases step_moves h with
  | closeReturn => rfl
  | dispatch | context | caller | handler | handle | take | stop | close => exact hw

theorem quiet_from_return {l : Label} (hok : ClosesQuietly w l) (h : step o w l = some w')
    (hnot : w.closeReturned = false) (hreturned : w'.closeReturned = true) : Quiet w' := by
  cases step_moves h with
  | closeReturn hclosed hstopped =>
    exact ⟨hclosed, hstopped, fun call hcall => (hok call hcall).1, fun call hcall => (hok call hcall).2⟩
  | dispatch | context | caller | handler | handle | take | stop | close =>
    rw [show w.closeReturned = true from hreturned] at hnot
    cases hnot

theorem quiet_run {ls : List Label} (hg : Guarded (step o) ClosesQuietly init ls)
    (h : run (step o) init ls = some w) (hreturned : w.closeReturned = true) : Quiet w := by
  have hinv : QueueInv o w ∧ (w.closeReturned = true → Quiet w) := by
    refine guarded_invariant (I := fun w => QueueInv o w ∧ (w.closeReturned = true → Quiet w)) ?_
      ⟨queueInv_init, nofun⟩ hg h
    rintro s l t ⟨hs, hquiet⟩ hok hl
    refine ⟨queueInv_step hs hl, fun ht => ?_⟩
    cases hclose : s.closeReturned with
    | false => exact quiet_from_return hok hl hclose ht
    | true => exact (quiet_step hs hclose (hquiet hclose) hok hl).1
  exact hinv.2 hreturned

theorem late_commit {c n : Nat} {call : Call} {change : Change} (hc : w.calls[c]? = some call)
    (hlate : ∀ (j : Nat) (call : Call), n ≤ j → w.calls[j]? = some call → Late call)
    (hmoved : Late call → Late change.call) :
    ∀ (j : Nat) (call : Call), n ≤ j → (w.commit c change).calls[j]? = some call → Late call := by
  intro j call' hj hcall'
  rcases commit_call hc hcall' with ⟨rfl, rfl⟩ | ⟨_, hold⟩
  · exact hmoved (hlate j call hj hc)
  · exact hlate j call' hj hold

theorem late_step {l : Label} {n : Nat} (hw : QueueInv o w) (hq : Quiet w)
    (hlate : ∀ (c : Nat) (call : Call), n ≤ c → w.calls[c]? = some call → Late call)
    (h : step o w l = some w') :
    ∀ (c : Nat) (call : Call), n ≤ c → w'.calls[c]? = some call → Late call := by
  cases step_moves h with
  | dispatch =>
    intro c call hn hc
    rw [List.getElem?_append] at hc
    split_ifs at hc
    · exact hlate c call hn hc
    · rw [List.mem_singleton.mp (List.mem_of_getElem? hc)]
      exact ⟨⟨rfl, rfl, rfl, rfl, rfl⟩, nofun⟩
  | context hc hstep =>
    obtain ⟨_, _, rfl⟩ := contextStep_spec hstep
    exact late_commit hc hlate fun hcall => hcall
  | caller hc hstep =>
    obtain ⟨⟨_, hu⟩, _, hframe⟩ := callerStep_ok (hw.calls _ (List.mem_of_getElem? hc)) hstep
    refine late_commit hc hlate fun hcall => ⟨hu.place .queued hcall.1, fun hfull => ?_⟩
    exact hcall.2 (hframe.full hq.closed hfull)
  | handler hc hstep =>
    obtain ⟨⟨_, hu⟩, _⟩ := handlerStep_ok (o := o) (hw.calls _ (List.mem_of_getElem? hc)) hstep
    refine late_commit hc hlate fun hcall => ⟨hu.place .queued hcall.1, ?_⟩
    rw [(handlerStep_frame hstep).pc]
    exact hcall.2
  | handle hlane hpc => exact absurd (hpc.symm.trans (hq.stopped _ hlane)) nofun
  | take | stop | close | closeReturn => exact hlate

theorem Late.answer {call : Call} (h : Late call) (hok : CallOk call) {answer : Answer}
    (hpc : call.pc = .returned answer) :
    answer = .closed ∨ ∃ parent err, answer = .contextDone parent err := by
  cases answer with
  | closed => exact Or.inl rfl
  | contextDone parent err => exact Or.inr ⟨parent, err, rfl⟩
  | queueFull => exact absurd (by rw [hpc]; rfl) h.2
  | result res =>
    have hd := (hok.result res (Or.inr (by rw [hpc]; rfl))).1
    rw [h.1.2.2.2.2] at hd
    cases hd

theorem Late.not_invoked {call : Call} (h : Late call) (hok : CallOk call) :
    call.history.countP Entry.invokes = 0 := by
  have hd := hok.dispatched
  rw [h.1.1] at hd
  exact countP_invokes (l := []) hd

theorem caller_enabled (hw : QueueInv o w) (hclosed : w.closed = true) {c : Nat} {call : Call}
    (hc : w.calls[c]? = some call) (hpc : ∀ answer, call.pc ≠ .returned answer) :
    ∃ case w', step o w (.caller c case) = some w' := by
  cases hcall : call.pc with
  | enter | enqueue | await =>
    exact ⟨.closed, _, by
      simp only [step, hc, hcall, callerStep, hclosed, if_true, Option.bind_eq_bind, Option.bind_some]; rfl⟩
  | laneFor =>
    cases hfind : w.lanes.find? (commandRoleID call.req) with
    | none | some lane =>
      exact ⟨.ready, _, by
        simp only [step, hc, hcall, callerStep, hfind, Option.bind_eq_bind, Option.bind_some]; rfl⟩
  | release exit => exact ⟨.ready, caller_release_enabled hw hc hcall⟩
  | contextDone err =>
    exact ⟨.ready, _, by
      simp only [step, hc, hcall, callerStep, Option.bind_eq_bind, Option.bind_some]; rfl⟩
  | returned answer => exact absurd hcall (hpc answer)

end Steps

section OwnSteps

variable {o : CommandQueueOptions} {w w' : World}

def Label.isCaller (c : Nat) : Label → Bool
  | .caller c' _ => c' = c
  | _ => false

def World.rank (w : World) (c : Nat) : Nat := (w.calls[c]?).elim 6 fun call => call.pc.rank

theorem commit_rank {c j : Nat} {call : Call} {change : Change} (hc : w.calls[c]? = some call)
    (hrank : change.call.pc.rank ≤ call.pc.rank) : (w.commit c change).rank j ≤ w.rank j := by
  unfold World.rank
  by_cases hj : j = c
  · subst hj
    rw [commit_call_same hc, hc]
    exact hrank
  · rw [commit_call_other hj]

theorem step_rank {l : Label} (hw : QueueInv o w) (h : step o w l = some w') (c : Nat) :
    (l.isCaller c).toNat + w'.rank c ≤ w.rank c := by
  cases step_moves h with
  | dispatch =>
    simp only [Label.isCaller, Bool.toNat_false, Nat.zero_add, World.rank, List.getElem?_append]
    split_ifs with hlt
    · exact le_rfl
    · rw [List.getElem?_eq_none (Nat.le_of_not_lt hlt)]
      cases c - w.calls.length <;> simp [Call.start, CallerPC.rank]
  | context hc hstep =>
    obtain ⟨_, _, rfl⟩ := contextStep_spec hstep
    simpa [Label.isCaller] using commit_rank hc le_rfl
  | @caller j case call change hc hstep =>
    obtain ⟨_, _, hframe⟩ := callerStep_ok (hw.calls _ (List.mem_of_getElem? hc)) hstep
    by_cases hj : j = c
    · subst hj
      have hrank := hframe.rank
      simp only [Label.isCaller, World.rank, commit_call_same hc, hc, Option.elim_some, decide_true,
        Bool.toNat_true]
      omega
    · simpa [Label.isCaller, hj] using commit_rank hc hframe.rank.le
  | handler hc hstep =>
    simpa [Label.isCaller] using commit_rank hc (by rw [(handlerStep_frame hstep).pc])
  | handle hlane hpc hc hstep =>
    obtain ⟨hreq, _, henq, hplace⟩ := hw.handled hlane hpc hc
    obtain ⟨_, hframe⟩ := handleStep_ok (hw.calls _ (List.mem_of_getElem? hc)) henq hreq hplace hstep
    simpa [Label.isCaller] using commit_rank hc (by rw [hframe.pc])
  | take | stop | close | closeReturn => simp [Label.isCaller, World.rank, World.setLane]

theorem run_rank {ls : List Label} (hw : QueueInv o w) (h : run (step o) w ls = some w') (c : Nat) :
    ls.countP (Label.isCaller c) + w'.rank c ≤ w.rank c := by
  induction ls generalizing w with
  | nil =>
    simp only [run, Option.some.injEq] at h
    simp [h]
  | cons l ls ih =>
    obtain ⟨t, hl, hrest⟩ := run_cons.mp h
    have hstep := step_rank hw hl c
    have hafter := ih (queueInv_step hw hl) hrest
    rw [List.countP_cons]
    cases hown : l.isCaller c <;> simp [hown] at hstep ⊢ <;> omega

end OwnSteps

theorem nothing_starts_after_close (o : CommandQueueOptions) (as bs : List Label) (u v : World)
    (hg : Guarded (step o) ClosesQuietly init (as ++ bs)) (h : run (step o) init as = some u)
    (hreturned : u.closeReturned = true) (h' : run (step o) u bs = some v) :
    (∀ lane' ∈ v.lanes.rows, ∃ lane ∈ u.lanes.rows, lane.roleID = lane'.roleID) ∧
    (∀ (c : Nat) (call : Call), u.calls[c]? = some call → ∃ call' : Call, v.calls[c]? = some call' ∧
      call'.history.countP Entry.invokes = call.history.countP Entry.invokes) ∧
    (∀ (c : Nat) (call : Call), u.calls.length ≤ c → v.calls[c]? = some call →
      call.history.countP Entry.invokes = 0 ∧
      (∀ answer, call.pc = .returned answer →
        answer = .closed ∨ ∃ parent err, answer = .contextDone parent err) ∧
      ((∀ answer, call.pc ≠ .returned answer) →
        ∃ case x, step o v (.caller c case) = some x) ∧
      bs.countP (Label.isCaller c) ≤ 6) := by
  obtain ⟨hgas, hgbs⟩ := guarded_append hg h
  have hu := queueInv_run h
  have hq := quiet_run hgas h hreturned
  have hlate : ∀ (c : Nat) (call : Call), u.calls.length ≤ c → u.calls[c]? = some call → Late call := by
    intro c call hn hc
    rw [List.getElem?_eq_none hn] at hc
    cases hc
  obtain ⟨⟨hv, _, hqv, hlatev⟩, hstarts⟩ := guarded_rule
    (I := fun w => QueueInv o w ∧ w.closeReturned = true ∧ Quiet w ∧
      ∀ (c : Nat) (call : Call), u.calls.length ≤ c → w.calls[c]? = some call → Late call)
    NothingStarts.refl (fun _ _ _ => NothingStarts.trans)
    (fun s l t ⟨hs, hclose, hquiet, hl⟩ hok hstep =>
      have hnext := quiet_step hs hclose hquiet hok hstep
      ⟨⟨queueInv_step hs hstep, closeReturned_step hstep hclose, hnext.1, late_step hs hquiet hl hstep⟩,
        hnext.2⟩)
    ⟨hu, hreturned, hq, hlate⟩ hgbs h'
  refine ⟨hstarts.lanes, hstarts.calls, fun c call hn hc => ?_⟩
  have hok := hv.calls call (List.mem_of_getElem? hc)
  have hcall := hlatev c call hn hc
  refine ⟨hcall.not_invoked hok, fun answer => hcall.answer hok, caller_enabled hv hqv.closed hc, ?_⟩
  have hrank := run_rank hu h' c
  rw [show u.rank c = 6 by simp [World.rank, List.getElem?_eq_none hn]] at hrank
  omega

section Shutdown

def servedThenClosed : List Label :=
  startCommand 0 5 ++ ([.handler 0 pong, .handler 0 pong, .handler 0 pong, .handler 0 pong,
    .lane 5 .ready, .lane 5 .ready, .lane 5 .ready, .caller 0 .ready, .close, .lane 5 .closed,
    .closeReturn] : List Label)

def afterServed : World := (run (step defaultOptions) init servedThenClosed).get (by rfl)

def lateOnOldLane : List Label :=
  [.dispatch (ping 5), .caller 1 .ready, .caller 1 .ready, .caller 1 .ready, .caller 1 .closed,
    .caller 1 .ready]

def afterOldLane : World := (run (step defaultOptions) afterServed lateOnOldLane).get (by rfl)

theorem lateOnOldLane_refused :
    afterServed.closeReturned = true ∧
      ∃ call : Call, afterOldLane.calls[1]? = some call ∧ call.pc = .returned .closed ∧
        call.history.countP Entry.invokes = 0 := by
  have hserved : run (step defaultOptions) init servedThenClosed = some afterServed :=
    (Option.some_get _).symm
  have hlate : run (step defaultOptions) afterServed lateOnOldLane = some afterOldLane :=
    (Option.some_get _).symm
  obtain ⟨_, _, hnew⟩ := nothing_starts_after_close defaultOptions servedThenClosed lateOnOldLane _ _
    (by decide) hserved rfl hlate
  have hcall : ∃ call : Call, afterOldLane.calls[1]? = some call ∧ call.pc = .returned .closed := ⟨_, rfl, rfl⟩
  obtain ⟨call, hc, hpc⟩ := hcall
  exact ⟨rfl, call, hc, hpc, (hnew 1 call (by decide) hc).1⟩

def afterClose : World := (run (step defaultOptions) init [.close, .closeReturn]).get (by rfl)

def lateOnNewLane : List Label :=
  startCommand 0 5 ++ ([.handler 0 pong, .handler 0 pong, .handler 0 pong, .lane 5 .ready, .lane 5 .ready,
    .caller 0 .ready] : List Label)

def afterNewLane : World := (run (step defaultOptions) afterClose lateOnNewLane).get (by rfl)

theorem lateOnNewLane_executed :
    run (step defaultOptions) init [.close, .closeReturn] = some afterClose ∧
      afterClose.closeReturned = true ∧ afterClose.calls.length = 0 ∧ afterClose.lanes.rows.length = 0 ∧
      run (step defaultOptions) afterClose lateOnNewLane = some afterNewLane ∧
      afterNewLane.lanes.rows.length = 1 ∧
      ∃ call : Call, afterNewLane.calls[0]? = some call ∧ call.history.countP Entry.invokes = 1 ∧
        call.pc = .returned (.result pong) :=
  ⟨(Option.some_get _).symm, rfl, rfl, rfl, (Option.some_get _).symm, rfl, _, rfl, rfl, rfl⟩

end Shutdown

end GlobalMailSystem.CommandQueue
