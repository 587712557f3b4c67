import GlobalMailSystem.QueueResources

namespace GlobalMailSystem.CommandQueue

open Rpc.Wire Transition

structure Follows (call call' : Call) : Prop where
  req : call'.req = call.req
  returned : ∀ answer, call.pc = .returned answer → call'.pc = .returned answer

theorem Follows.refl (call : Call) : Follows call call := ⟨rfl, fun _ h => h⟩

theorem Follows.trans {call call' call'' : Call} (h : Follows call call') (h' : Follows call' call'') :
    Follows call call'' :=
  ⟨h'.req.trans h.req, fun answer ha => h'.returned answer (h.returned answer ha)⟩

theorem CallerFrame.not_returned {w : World} {call call' : Call} (h : CallerFrame w call call')
    {answer : Answer} (hpc : call.pc = .returned answer) : False := by
  have hrank := h.rank
  rw [hpc] at hrank
  exact Nat.not_lt_zero _ hrank

section Runs

variable {o : CommandQueueOptions} {w w' : World}

theorem step_follows {l : Label} (hw : QueueInv o w) (h : step o w l = some w') {c : Nat} {call : Call}
    (hc : w.calls[c]? = some call) : ∃ call', w'.calls[c]? = some call' ∧ Follows call call' := by
  cases step_moves h with
  | dispatch =>
    refine ⟨call, ?_, .refl call⟩
    rw [List.getElem?_append_left (List.getElem?_eq_some_iff.mp hc).1]
    exact hc
  | context hmoved hstep =>
    obtain ⟨_, _, rfl⟩ := contextStep_spec hstep
    exact commit_related Follows.refl hmoved ⟨rfl, fun _ h => h⟩ hc
  | caller hmoved hstep =>
    obtain ⟨⟨hb, _⟩, _, hframe⟩ := callerStep_ok (hw.calls _ (List.mem_of_getElem? hmoved)) hstep
    exact commit_related Follows.refl hmoved ⟨hb.req, fun _ hpc => (hframe.not_returned hpc).elim⟩ hc
  | handler hmoved hstep =>
    obtain ⟨⟨hb, _⟩, _⟩ := handlerStep_ok (o := o) (hw.calls _ (List.mem_of_getElem? hmoved)) hstep
    have hframe := handlerStep_frame hstep
    exact commit_related Follows.refl hmoved ⟨hb.req, fun _ => hframe.pc.trans⟩ hc
  | handle hlane hpc hmoved hstep =>
    obtain ⟨hreq, _, henq, hplace⟩ := hw.handled hlane hpc hmoved
    obtain ⟨⟨hb, _⟩, hframe⟩ :=
      handleStep_ok (hw.calls _ (List.mem_of_getElem? hmoved)) henq hreq hplace hstep
    exact commit_related Follows.refl hmoved ⟨hb.req, fun _ => hframe.pc.trans⟩ hc
  | take | stop | close | closeReturn => exact ⟨call, hc, .refl call⟩

theorem run_follows {ls : List Label} (hw : QueueInv o w) (h : run (step o) w ls = some w') {c : Nat}
    {call : Call} (hc : w.calls[c]? = some call) :
    ∃ call', w'.calls[c]? = some call' ∧ Follows call call' := by
  have hall : ∀ (c : Nat) (call : Call), w.calls[c]? = some call →
      ∃ call', w'.calls[c]? = some call' ∧ Follows call call' := by
    apply run_relation (R := fun u v : World => ∀ (c : Nat) (call : Call), u.calls[c]? = some call →
      ∃ call', v.calls[c]? = some call' ∧ Follows call call') ?_ ?_ ?_ hw h
    · exact fun u c call hc => ⟨call, hc, .refl call⟩
    · intro s t u hst htu c call hc
      obtain ⟨call', hc', hf⟩ := hst c call hc
      obtain ⟨call'', hc'', hf'⟩ := htu c call' hc'
      exact ⟨call'', hc'', hf.trans hf'⟩
    · exact fun s l t hs hl => ⟨queueInv_step hs hl, fun c call => step_follows hs hl⟩
  exact hall c call hc

end Runs

section Calls

variable {call : Call}

theorem CallOk.invocations (h : CallOk call) :
    call.history.filter Entry.dispatching = [] ∨
      call.history.filter Entry.dispatching = [.invoked call.req] ∨
        ∃ res, call.history.filter Entry.dispatching = [.invoked call.req, .completed res] := by
  have hd := h.dispatched
  cases hh : call.handler with
  | none | spawned req => rw [hh] at hd; exact Or.inl hd
  | invoking req => rw [hh] at hd; exact Or.inr (Or.inl hd)
  | replying res => rw [hh] at hd; exact Or.inr (Or.inr ⟨res, hd⟩)
  | deferred | finished => rw [hh] at hd; exact Or.inr (Or.inr hd)

theorem CallOk.completed (h : CallOk call) {res : CommandResult} (hres : .completed res ∈ call.history) :
    call.history.filter Entry.dispatching = [.invoked call.req, .completed res] := by
  have hmem : .completed res ∈ call.history.filter Entry.dispatching := List.mem_filter.mpr ⟨hres, rfl⟩
  rcases h.invocations with hd | hd | ⟨res', hd⟩
  · rw [hd] at hmem
    cases hmem
  · rw [hd] at hmem
    simp at hmem
  · rw [hd] at hmem
    have he : res = res' := by simpa using hmem
    rw [hd, he]

theorem CallOk.not_invoked (h : CallOk call) (henq : call.enqueued = false) (req : CommandRequest) :
    .invoked req ∉ call.history := by
  intro hmem
  have hd := h.dispatched
  rw [(h.pristine henq).1] at hd
  have hfilter : .invoked req ∈ call.history.filter Entry.dispatching := List.mem_filter.mpr ⟨hmem, rfl⟩
  rw [show call.history.filter _ = [] from hd] at hfilter
  cases hfilter

/-- The queue's own 429 or 504 for `req`, an error of the queue's own, or the result of the one invocation. -/
def OwnAnswer (req : CommandRequest) (history : List Entry) (value : CommandResult) : Prop :=
  (∃ resp, value = ⟨some resp, none⟩ ∧
    (resp = commandQueueFullResponse req ∨ resp = commandTimeoutResponse req) ∧
      resp.commandID = req.commandID ∧ resp.seq = req.seq) ∨
  (∃ err : Err, err.fromQueue = true ∧ value = .error err) ∨
  history.filter Entry.dispatching = [.invoked req, .completed value]

theorem CallOk.ownAnswer (h : CallOk call) {answer : Answer} (hpc : call.pc = .returned answer) :
    OwnAnswer call.req call.history (answer.value call.req) := by
  have htimeout : OwnAnswer call.req call.history ⟨some (commandTimeoutResponse call.req), none⟩ :=
    Or.inl ⟨_, rfl, Or.inr rfl, rfl, rfl⟩
  cases answer with
  | queueFull => exact Or.inl ⟨_, rfl, Or.inl rfl, rfl, rfl⟩
  | contextDone parent err =>
    simp only [Answer.value, contextDoneResponse]
    split_ifs
    · exact htimeout
    · exact Or.inr (Or.inl ⟨.ctx err, rfl, rfl⟩)
  | closed => exact Or.inr (Or.inl ⟨.commandQueueClosed, rfl, rfl⟩)
  | result res =>
    simp only [Answer.value]
    split_ifs
    · exact htimeout
    · rcases (h.result res (Or.inr (by rw [hpc]; rfl))).2 with herr | hres
      · exact Or.inr (Or.inl herr)
      · exact Or.inr (Or.inr (h.completed hres))

end Calls

theorem own_answers (o : CommandQueueOptions) (as bs : List Label) (req : CommandRequest) (u v : World)
    (h : run (step o) init as = some u) (h' : run (step o) u (.dispatch req :: bs) = some v) :
    ∃ call : Call, v.calls[u.calls.length]? = some call ∧
      (call.history.filter Entry.dispatching = [] ∨
        call.history.filter Entry.dispatching = [.invoked req] ∨
          ∃ res, call.history.filter Entry.dispatching = [.invoked req, .completed res]) ∧
      (call.pc = .returned .queueFull → ∀ cs x, run (step o) v cs = some x →
        ∃ call' : Call, x.calls[u.calls.length]? = some call' ∧ ∀ req', .invoked req' ∉ call'.history) ∧
      (∀ answer, call.pc = .returned answer → OwnAnswer req call.history (answer.value req)) := by
  have hu := queueInv_run h
  obtain ⟨t, hdispatch, hrest⟩ := run_cons.mp h'
  have ht := queueInv_step hu hdispatch
  have hv := ht.run hrest
  have hstart : t.calls[u.calls.length]? = some (.start req) := by
    cases hdispatch
    simp
  obtain ⟨call, hc, hfollows⟩ := run_follows ht hrest hstart
  have hreq : call.req = req := hfollows.req
  have hok := hv.calls call (List.mem_of_getElem? hc)
  refine ⟨call, hc, hreq ▸ hok.invocations, ?_, fun answer hpc => hreq ▸ hok.ownAnswer hpc⟩
  intro hfull cs x hx
  obtain ⟨call', hc', hfollows'⟩ := run_follows hv hx hc
  have hok' := (hv.run hx).calls call' (List.mem_of_getElem? hc')
  have hpc' := hfollows'.returned .queueFull hfull
  exact ⟨call', hc', hok'.not_invoked (hok'.unqueued (by rw [hpc']; rfl))⟩

section TwoRoles

def oneAtATime : CommandQueueOptions := ⟨1, 1, 1, 0⟩

def roleFiveRuns : World := (run (step oneAtATime) init (startCommand 0 5)).get (by rfl)

def roleSixRefused : List Label :=
  [.caller 1 .default, .handler 0 pong, .handler 0 pong, .handler 0 pong, .handler 0 pong]

def afterRefusal : World :=
  (run (step oneAtATime) roleFiveRuns (.dispatch (ping 6) :: roleSixRefused)).get (by rfl)

theorem roleSix_refused_unexecuted :
    ∃ call : Call, afterRefusal.calls[1]? = some call ∧ call.pc = .returned .queueFull ∧
      OwnAnswer (ping 6) call.history (Answer.queueFull.value (ping 6)) ∧
      ∀ cs x, run (step oneAtATime) afterRefusal cs = some x →
        ∃ call' : Call, x.calls[1]? = some call' ∧ ∀ req', .invoked req' ∉ call'.history := by
  have hbefore : run (step oneAtATime) init (startCommand 0 5) = some roleFiveRuns :=
    (Option.some_get _).symm
  have hafter : run (step oneAtATime) roleFiveRuns (.dispatch (ping 6) :: roleSixRefused) =
      some afterRefusal := (Option.some_get _).symm
  obtain ⟨call, hc, _, huninvoked, hanswer⟩ :=
    own_answers oneAtATime (startCommand 0 5) roleSixRefused (ping 6) _ _ hbefore hafter
  have hc' : afterRefusal.calls[1]? = some call := hc
  have hpc : (afterRefusal.calls[1]?).map Call.pc = some (.returned .queueFull) := rfl
  rw [hc'] at hpc
  have hreturned : call.pc = .returned .queueFull := Option.some.inj hpc
  exact ⟨call, hc', hreturned, hanswer .queueFull hreturned, huninvoked hreturned⟩

end TwoRoles

end GlobalMailSystem.CommandQueue
