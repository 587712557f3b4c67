import GlobalMailSystem.DeliveredOnce
import GlobalMailSystem.SavedState

namespace GlobalMailSystem.PlayerMail

open Transition

def storedRank (states : StateTable) (key : Int × Int) : Nat :=
  match states.find? key with
  | none => 0
  | some row => rank row.status

def kept (states : StateTable) (key : Int × Int) (i : Int) : Bool :=
  match states.find? key with
  | none => false
  | some row => row.status = .deleted || i ∈ row.claimedLootIndexes

def CallPC.reported : CallPC → List Int
  | .returned (.ok state) => state.claimedLootIndexes
  | _ => []

def unchangedSince (read row : UserGlobalMailState) : Bool :=
  row.claimedLootIndexes = read.claimedLootIndexes && (row.status ≠ .claimed || read.status = .claimed)

/-- A `MarkGlobalMailRead` or `ClaimGlobalMail` saves over a claim that landed after it had read. -/
def staleSave (w : World) : Label → Bool
  | .save c outcome =>
    match w.calls[c]? with
    | some ⟨request, _, .save read next⟩ =>
      outcome.executed && request.op ≠ .delete &&
        match w.states.find? next.key with
        | none => false
        | some row => row.status ≠ .deleted && !unchangedSince read row
    | _ => false
  | _ => false

structure RowAdvances (row row' : UserGlobalMailState) : Prop where
  status : rank row.status ≤ rank row'.status
  claimed : row'.status ≠ .deleted → ∀ i ∈ row.claimedLootIndexes, i ∈ row'.claimedLootIndexes

def Advances (s t : StateTable) : Prop :=
  ∀ key row, s.find? key = some row → ∃ row', t.find? key = some row' ∧ RowAdvances row row'

theorem RowAdvances.refl (row : UserGlobalMailState) : RowAdvances row row := ⟨le_refl _, fun _ _ h => h⟩

theorem rank_deleted {status : UserMailStatus} (h : rank .deleted ≤ rank status) : status = .deleted := by
  cases status with
  | deleted => rfl
  | unset | unread | read | claimed => simp [rank] at h

theorem RowAdvances.trans {a b c : UserGlobalMailState} (hab : RowAdvances a b) (hbc : RowAdvances b c) :
    RowAdvances a c := by
  refine ⟨hab.status.trans hbc.status, fun hc i hi => hbc.claimed hc i (hab.claimed ?_ i hi)⟩
  intro hb
  exact hc (rank_deleted (hb ▸ hbc.status))

theorem Advances.refl (s : StateTable) : Advances s s :=
  fun _ row h => ⟨row, h, RowAdvances.refl row⟩

theorem Advances.trans {s t u : StateTable} (hst : Advances s t) (htu : Advances t u) : Advances s u := by
  intro key row h
  obtain ⟨row', h', hrow'⟩ := hst key row h
  obtain ⟨row'', h'', hrow''⟩ := htu key row' h'
  exact ⟨row'', h'', hrow'.trans hrow''⟩

theorem Advances.storedRank_le {s t : StateTable} (h : Advances s t) (key : Int × Int) :
    storedRank s key ≤ storedRank t key := by
  unfold storedRank
  cases hs : s.find? key with
  | none => exact Nat.zero_le _
  | some row =>
    obtain ⟨row', ht, hrow⟩ := h key row hs
    rw [ht]
    exact hrow.status

theorem Advances.kept {s t : StateTable} (h : Advances s t) {key : Int × Int} {i : Int}
    (hk : kept s key i = true) : kept t key i = true := by
  unfold PlayerMail.kept at hk ⊢
  cases hs : s.find? key with
  | none => simp [hs] at hk
  | some row =>
    obtain ⟨row', ht, hrow⟩ := h key row hs
    simp only [hs, Bool.or_eq_true, decide_eq_true_eq] at hk
    simp only [ht, Bool.or_eq_true, decide_eq_true_eq]
    by_cases hd : row'.status = .deleted
    · exact Or.inl hd
    · rcases hk with hk | hk
      · exact Or.inl (rank_deleted (hk ▸ hrow.status))
      · exact Or.inr (hrow.claimed hd i hk)

theorem updatedRow_advances {op : Op} {read next row : UserGlobalMailState} (hw : Writes op read next)
    (h : op = .delete ∨ row.status = .deleted ∨ unchangedSince read row = true) :
    RowAdvances row (StateTable.updatedRow next row) := by
  by_cases hd : row.status = .deleted
  · rw [StateTable.updatedRow_of_deleted hd]
    exact RowAdvances.refl row
  · have hstatus : (StateTable.updatedRow next row).status = next.status := if_neg hd
    have hclaimed : (StateTable.updatedRow next row).claimedLootIndexes = next.claimedLootIndexes :=
      if_neg hd
    constructor
    · rw [hstatus]
      rcases h with hop | h | h
      · rw [hw.deleted hop]
        cases row.status <;> simp [rank]
      · exact absurd h hd
      · simp only [unchangedSince, Bool.and_eq_true, Bool.or_eq_true, decide_eq_true_eq] at h
        cases hs : row.status with
        | deleted => exact absurd hs hd
        | claimed =>
          have hread : read.status = .claimed := h.2.resolve_left (fun hne => hne hs)
          exact hread ▸ hw.status
        | unset | unread | read => exact le_trans (by simp [rank]) hw.opened
    · rw [hstatus, hclaimed]
      intro hnd i hi
      rcases h with hop | h | h
      · exact absurd (hw.deleted hop) hnd
      · exact absurd h hd
      · simp only [unchangedSince, Bool.and_eq_true, decide_eq_true_eq] at h
        exact hw.kept i (h.1 ▸ hi)

theorem save_advances {states : StateTable} {op : Op} {read next : UserGlobalMailState}
    (hw : Writes op read next)
    (h : ∀ row, states.find? next.key = some row →
      op = .delete ∨ row.status = .deleted ∨ unchangedSince read row = true) :
    Advances states (states.saveUserState next) := by
  intro key row hrow
  rw [StateTable.find?_saveUserState]
  split_ifs with hk
  · rw [hrow]
    exact ⟨_, rfl, updatedRow_advances hw (h row (hk ▸ hrow))⟩
  · exact ⟨row, hrow, RowAdvances.refl row⟩

theorem kept_saved (states : StateTable) (next : UserGlobalMailState) {i : Int}
    (hi : i ∈ next.claimedLootIndexes) : kept (states.saveUserState next) next.key i = true := by
  unfold kept
  rw [StateTable.find?_saveUserState, if_pos rfl]
  cases hf : states.find? next.key with
  | none => simp [StateTable.savedRow, StateTable.insertedRow, hi]
  | some row =>
    simp only [StateTable.savedRow, StateTable.updatedRow, StateTable.preserveDeleted]
    by_cases hd : row.status = .deleted
    · simp [hd]
    · simp [hd, hi]

theorem not_stale {w : World} {c : Nat} {outcome : Outcome} {request : Request} {checkedAt : Time}
    {read next : UserGlobalMailState}
    (hc : w.calls[c]? = some ⟨request, checkedAt, .save read next⟩) (hex : outcome.executed = true)
    (h : staleSave w (.save c outcome) = false) {row : UserGlobalMailState}
    (hrow : w.states.find? next.key = some row) :
    request.op = .delete ∨ row.status = .deleted ∨ unchangedSince read row = true := by
  simp only [staleSave, hc, hex, hrow, Bool.true_and] at h
  by_cases hop : request.op = .delete
  · exact Or.inl hop
  · by_cases hd : row.status = .deleted
    · exact Or.inr (Or.inl hd)
    · simpa [hop, hd] using h

theorem step_advances {w w' : World} {l : Label} (hflow : Flows w) (hok : staleSave w l = false)
    (h : step w l = some w') : Advances w.states w'.states := by
  cases step_inv h with
  | addMail | install | start | getState | grant | stop => exact Advances.refl _
  | @save c outcome request checkedAt read next hc =>
    obtain ⟨_, hwrites⟩ := hflow _ (List.mem_of_getElem? hc)
    cases outcome with
    | failed err => exact Advances.refl _
    | ok => exact save_advances hwrites fun row => not_stale hc rfl hok
    | lost err => exact save_advances hwrites fun row => not_stale hc rfl hok

def Reports (w : World) : Prop :=
  ∀ call ∈ w.calls, ∀ i ∈ call.pc.reported, kept w.states (requestKey call.request) i = true

theorem reported_claimPC (request : Request) (mail : GlobalMail) (read : UserGlobalMailState)
    (now grantNow : Time) (lootIndexes rest : List Int) :
    (claimPC request mail read now grantNow lootIndexes rest).reported = [] :=
  claimPC_rule (P := fun pc => pc.reported = []) (fun _ => rfl) (fun _ => rfl) fun _ _ _ _ _ => rfl

theorem reported_readPC (states : StateTable) (request : Request) (mail : GlobalMail)
    (now grantNow : Time) (outcome : Outcome) :
    (readPC states request mail now grantNow outcome).reported = [] := by
  cases outcome with
  | failed err => rfl
  | lost err => rfl
  | ok =>
    exact applyPC_rule (P := fun pc => pc.reported = []) (fun _ => rfl) (fun _ => rfl)
      (fun _ _ _ => rfl) fun _ _ _ => reported_claimPC _ _ _ _ _ _ _

theorem reported_grantPC (request : Request) (mail : GlobalMail) (read : UserGlobalMailState)
    (now grantNow : Time) (lootIndexes : List Int) (index : Int) (rest : List Int) (pc : GrantPC) :
    (grantPC request mail read now grantNow lootIndexes index rest pc).reported = [] :=
  grantPC_rule (P := fun pc => pc.reported = []) (fun _ => rfl) (reported_claimPC _ _ _ _ _ _ _) rfl

theorem reports_setCall {w : World} (hw : Reports w) {c : Nat} {request : Request} {checkedAt : Time}
    {pc : CallPC} {states : StateTable} {rewards : Rewards} (hadv : Advances w.states states)
    (hpc : ∀ i ∈ pc.reported, kept states (requestKey request) i = true) :
    Reports ({ w with states, rewards }.setCall c ⟨request, checkedAt, pc⟩) := by
  intro call hcall i hi
  rcases mem_setCall hcall with rfl | hcall
  · exact hpc i hi
  · exact hadv.kept (hw call hcall i hi)

theorem reports_step {w w' : World} {l : Label} (hw : Reports w) (hflow : Flows w)
    (hok : staleSave w l = false) (h : step w l = some w') : Reports w' := by
  have hadv := step_advances hflow hok h
  have nothing {pc : CallPC} {P : Int → Prop} (hpc : pc.reported = []) : ∀ i ∈ pc.reported, P i := by
    rw [hpc]
    exact fun i hi => absurd hi List.not_mem_nil
  cases step_inv h with
  | addMail => exact hw
  | install => exact hw
  | @start request now failure =>
    intro call hcall i hi
    rcases List.mem_append.mp hcall with hcall | hcall
    · exact hw call hcall i hi
    · rw [List.mem_singleton.mp hcall] at hi
      cases failure with
      | some err => cases hi
      | none =>
        simp only [startPC] at hi
        split at hi <;> cases hi
  | getState hc => exact reports_setCall hw hadv (nothing (reported_readPC _ _ _ _ _ _))
  | grant hc hgrant => exact reports_setCall hw hadv (nothing (reported_grantPC _ _ _ _ _ _ _ _ _))
  | @save c outcome request checkedAt read next hc =>
    obtain ⟨hkey, hwrites⟩ := hflow _ (List.mem_of_getElem? hc)
    apply reports_setCall hw hadv
    cases outcome with
    | failed err => exact nothing rfl
    | lost err => exact nothing rfl
    | ok =>
      intro i hi
      rw [← hkey, ← hwrites.key]
      exact kept_saved w.states next hi
  | stop hc hprogress => exact reports_setCall hw hadv (nothing rfl)

theorem state_never_regresses (before after : List Label) (s t : World)
    (hg : Guarded step (fun w l => staleSave w l = false) init (before ++ after))
    (hs : run step init before = some s) (ht : run step s after = some t) :
    (∀ key, storedRank s.states key ≤ storedRank t.states key) ∧
      ∀ call ∈ t.calls, ∀ i ∈ call.pc.reported, kept t.states (requestKey call.request) i = true := by
  have hstep : ∀ w l w', Flows w ∧ Reports w → staleSave w l = false → step w l = some w' →
      (Flows w' ∧ Reports w') ∧ Advances w.states w'.states := by
    rintro w l w' ⟨hflow, hreports⟩ hok hl
    exact ⟨⟨flows_step hflow hl, reports_step hreports hflow hok hl⟩, step_advances hflow hok hl⟩
  have hinit : Flows init ∧ Reports init := ⟨flows_init, fun call h => by cases h⟩
  obtain ⟨hbefore, hafter⟩ := guarded_append hg hs
  have hinv := guarded_invariant (fun w l w' hw hok hl => (hstep w l w' hw hok hl).1) hinit hbefore hs
  obtain ⟨⟨_, hreports⟩, hadv⟩ := guarded_rule (R := fun w w' : World => Advances w.states w'.states)
    (fun w => Advances.refl w.states) (fun _ _ _ => Advances.trans) hstep hinv hafter ht
  exact ⟨hadv.storedRank_le, hreports⟩

theorem claimBoth_never_regresses :
    ∃ s t, run step init opened = some s ∧ run step s (claimBoth.drop 2) = some t ∧
      (∀ key, storedRank s.states key ≤ storedRank t.states key) ∧
      ∀ call ∈ t.calls, ∀ i ∈ call.pc.reported, kept t.states (requestKey call.request) i = true := by
  have hopened : run step init opened = some ((run step init opened).get (by decide)) :=
    (Option.some_get _).symm
  have hclaim : run step ((run step init opened).get (by decide)) (claimBoth.drop 2) =
      some ((run step ((run step init opened).get (by decide)) (claimBoth.drop 2)).get (by decide)) :=
    (Option.some_get _).symm
  exact ⟨_, _, hopened, hclaim, state_never_regresses opened (claimBoth.drop 2) _ _ (by decide) hopened hclaim⟩

def readDuringClaim : List Label :=
  opened ++ [.start ⟨0, player, 10, .markRead⟩ 5 none, .getState 0 6 6 .ok,
    .start ⟨0, player, 10, .claim [0]⟩ 7 none, .getState 1 8 8 .ok] ++
  List.replicate 3 (.grant 1 9 9 .ok) ++ [.save 1 .ok]

theorem readDuringClaim_regresses :
    ∃ s t, run step init readDuringClaim = some s ∧ run step s [.save 0 .ok] = some t ∧
      ¬ (∀ key, storedRank s.states key ≤ storedRank t.states key) ∧
      ¬ ∀ call ∈ t.calls, ∀ i ∈ call.pc.reported, kept t.states (requestKey call.request) i = true := by
  have hclaim : run step init readDuringClaim = some ((run step init readDuringClaim).get (by decide)) :=
    (Option.some_get _).symm
  have hsave : run step ((run step init readDuringClaim).get (by decide)) [.save 0 .ok] =
      some ((run step ((run step init readDuringClaim).get (by decide)) [.save 0 .ok]).get (by decide)) :=
    (Option.some_get _).symm
  exact ⟨_, _, hclaim, hsave, fun h => absurd (h (1, 10)) (by decide), by decide⟩

end GlobalMailSystem.PlayerMail
