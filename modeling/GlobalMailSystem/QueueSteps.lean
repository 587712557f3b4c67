import GlobalMailSystem.RequestQueue

namespace GlobalMailSystem.CommandQueue

open Rpc.Wire

section Moves

variable (o : CommandQueueOptions) (w : World)

inductive Moves : Label → World → Prop
  | dispatch {req : CommandRequest} : Moves (.dispatch req) { w with calls := w.calls ++ [.start req] }
  | context {c : Nat} {event : ContextEvent} {call call' : Call} (hc : w.calls[c]? = some call)
      (h : contextStep o call event = some call') : Moves (.context c event) (w.commit c (w.put call'))
  | caller {c : Nat} {case : Case} {call : Call} {change : Change} (hc : w.calls[c]? = some call)
      (h : callerStep o w c call call.pc case = some change) :
      Moves (.caller c case) (w.commit c change)
  | handler {c : Nat} {res : CommandResult} {call : Call} {change : Change}
      (hc : w.calls[c]? = some call) (h : handlerStep w call res call.handler = some change) :
      Moves (.handler c res) (w.commit c change)
  | handle {case : Case} {lane : Lane} {job : Job} {stage : Stage} {call : Call} {change : Change}
      (hlane : lane ∈ w.lanes.rows) (hpc : lane.pc = .handle job stage)
      (hc : w.calls[job.call]? = some call) (h : handleStep o w lane job call stage case = some change) :
      Moves (.lane lane.roleID case) (w.commit job.call change)
  | take {lane : Lane} {job : Job} {rest : List Job} (hlane : lane ∈ w.lanes.rows)
      (hpc : lane.pc = .idle) (hjobs : lane.jobs = job :: rest) :
      Moves (.lane lane.roleID .ready) (w.setLane { lane with jobs := rest, pc := .handle job .check })
  | stop {lane : Lane} (hlane : lane ∈ w.lanes.rows) (hpc : lane.pc = .idle) (hclosed : w.closed = true) :
      Moves (.lane lane.roleID .closed) (w.setLane { lane with pc := .stopped })
  | close : Moves .close { w with closed := true }
  | closeReturn (hclosed : w.closed = true) (hstopped : ∀ lane ∈ w.lanes.rows, lane.pc = .stopped) :
      Moves .closeReturn { w with closeReturned := true }

variable {o w}

theorem laneStep_moves {w' : World} {lane : Lane} {case : Case} (hlane : lane ∈ w.lanes.rows)
    (h : laneStep o w lane lane.pc case = some w') : Moves o w (.lane lane.roleID case) w' := by
  cases hpc : lane.pc with
  | idle =>
    rw [hpc] at h
    cases case with
    | closed =>
      simp only [laneStep] at h
      split_ifs at h with hclosed
      cases h
      exact .stop hlane hpc hclosed
    | ready =>
      simp only [laneStep] at h
      split at h
      · cases h
      · rename_i job rest hjobs
        cases h
        exact .take hlane hpc hjobs
    | ctxDone | default => cases h
  | handle job stage =>
    rw [hpc] at h
    simp only [laneStep, Option.bind_eq_bind, Option.bind_eq_some_iff] at h
    obtain ⟨call, hc, change, hchange, he⟩ := h
    cases he
    exact .handle hlane hpc hc hchange
  | stopped =>
    rw [hpc] at h
    cases case <;> cases h

theorem step_moves {w' : World} {l : Label} (h : step o w l = some w') : Moves o w l w' := by
  cases l with
  | dispatch req => cases h; exact .dispatch
  | context c event =>
    simp only [step, Option.bind_eq_bind, Option.bind_eq_some_iff] at h
    obtain ⟨call, hc, call', hcall', he⟩ := h
    cases he
    exact .context hc hcall'
  | caller c case =>
    simp only [step, Option.bind_eq_bind, Option.bind_eq_some_iff] at h
    obtain ⟨call, hc, change, hchange, he⟩ := h
    cases he
    exact .caller hc hchange
  | lane roleID case =>
    simp only [step, Option.bind_eq_bind, Option.bind_eq_some_iff] at h
    obtain ⟨lane, hfind, hlane⟩ := h
    obtain ⟨hmem, rfl⟩ := Table.find?_eq_some.mp hfind
    exact laneStep_moves hmem hlane
  | handler c res =>
    simp only [step, Option.bind_eq_bind, Option.bind_eq_some_iff] at h
    obtain ⟨call, hc, change, hchange, he⟩ := h
    cases he
    exact .handler hc hchange
  | close => cases h; exact .close
  | closeReturn =>
    simp only [step] at h
    split_ifs at h with hall
    cases h
    exact .closeReturn hall.1 hall.2

end Moves

section Commit

variable {w : World} {c : Nat} {call : Call} {change : Change}

theorem commit_call_same (h : w.calls[c]? = some call) :
    (w.commit c change).calls[c]? = some change.call := by
  have hlt : c < w.calls.length := (List.getElem?_eq_some_iff.mp h).1
  exact List.getElem?_set_self hlt

theorem commit_call_other {j : Nat} (hj : j ≠ c) : (w.commit c change).calls[j]? = w.calls[j]? :=
  List.getElem?_set_ne (Ne.symm hj)

theorem commit_call {j : Nat} {call' : Call} (h : w.calls[c]? = some call)
    (hj : (w.commit c change).calls[j]? = some call') :
    (j = c ∧ call' = change.call) ∨ (j ≠ c ∧ w.calls[j]? = some call') := by
  by_cases he : j = c
  · subst he
    rw [commit_call_same h] at hj
    exact Or.inl ⟨rfl, (Option.some.inj hj).symm⟩
  · rw [commit_call_other he] at hj
    exact Or.inr ⟨he, hj⟩

theorem commit_related {R : Call → Call → Prop} (hrefl : ∀ call, R call call) (h : w.calls[c]? = some call)
    (hR : R call change.call) {j : Nat} {before : Call} (hj : w.calls[j]? = some before) :
    ∃ after, (w.commit c change).calls[j]? = some after ∧ R before after := by
  by_cases he : j = c
  · subst he
    rw [h] at hj
    cases hj
    exact ⟨change.call, commit_call_same h, hR⟩
  · exact ⟨before, (commit_call_other he).trans hj, hrefl before⟩

theorem mem_commit_lanes {lane : Lane} :
    lane ∈ (w.commit c change).lanes.rows ↔
      change.lane = some lane ∨
        (lane ∈ w.lanes.rows ∧ ∀ other, change.lane = some other → lane.roleID ≠ other.roleID) := by
  simp only [World.commit]
  cases change.lane with
  | none => simp
  | some other => simp [Table.mem_upsert, eq_comm]

theorem mem_setLane {lane other : Lane} :
    lane ∈ (w.setLane other).lanes.rows ↔
      lane = other ∨ (lane ∈ w.lanes.rows ∧ lane.roleID ≠ other.roleID) :=
  Table.mem_upsert

theorem commit_countP (change : Change) (p : Call → Bool) (h : w.calls[c]? = some call) :
    (w.commit c change).calls.countP p + (p call).toNat = w.calls.countP p + (p change.call).toNat := by
  obtain ⟨hlt, rfl⟩ := List.getElem?_eq_some_iff.mp h
  have hpos : (p w.calls[c]).toNat ≤ w.calls.countP p := by
    cases hp : p w.calls[c] with
    | false => exact Nat.zero_le _
    | true => exact List.countP_pos_iff.mpr ⟨_, List.getElem_mem hlt, hp⟩
  have hset : (w.commit c change).calls.countP p =
      w.calls.countP p - (p w.calls[c]).toNat + (p change.call).toNat := by
    simp only [World.commit, List.countP_set hlt]
    cases p w.calls[c] <;> cases p change.call <;> rfl
  omega

end Commit

end GlobalMailSystem.CommandQueue
