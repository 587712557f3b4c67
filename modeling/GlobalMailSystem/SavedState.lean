import GlobalMailSystem.PlayerSteps

namespace GlobalMailSystem.PlayerMail

open Transition

def rank : UserMailStatus → Nat
  | .unset => 0
  | .unread => 1
  | .read => 2
  | .claimed => 3
  | .deleted => 4

structure Writes (op : Op) (read next : UserGlobalMailState) : Prop where
  key : next.key = read.key
  kept : ∀ i ∈ read.claimedLootIndexes, i ∈ next.claimedLootIndexes
  status : rank read.status ≤ rank next.status
  opened : rank .read ≤ rank next.status
  deleted : op = .delete → next.status = .deleted

theorem Writes.stamped {op : Op} {read next : UserGlobalMailState} (h : Writes op read next)
    (now : Time) : Writes op read (stamped now next) :=
  ⟨h.key, h.kept, h.status, h.opened, h.deleted⟩

theorem writes_markedRead (now : Time) (read : UserGlobalMailState) :
    Writes .markRead read (markedRead now read) := by
  unfold markedRead
  split_ifs with hd hs
  · exact ⟨rfl, fun _ h => h, le_refl _, by simp [rank, hd], nofun⟩
  · refine ⟨rfl, fun _ h => h, ?_, le_refl _, nofun⟩
    rcases hs with hs | hs <;> simp [rank, hs]
  · refine ⟨rfl, fun _ h => h, le_refl _, ?_, nofun⟩
    rw [not_or] at hs
    cases hr : read.status with
    | unset => exact absurd hr hs.1
    | unread => exact absurd hr hs.2
    | read | claimed | deleted => simp [rank]

theorem writes_claimed (now : Time) (lootIndexes : List Int) (read : UserGlobalMailState)
    (h : read.status ≠ .deleted) : Writes (.claim lootIndexes) read (claimed now lootIndexes read) := by
  refine ⟨rfl, fun i hi => mem_mergeLootIndexes.mpr (Or.inl hi), ?_, by simp [claimed, rank], nofun⟩
  cases hs : read.status with
  | deleted => exact absurd hs h
  | unset | unread | read | claimed => simp [claimed, rank]

theorem writes_deleted (now : Time) (read : UserGlobalMailState) :
    Writes .delete read (deleted now read) := by
  refine ⟨rfl, fun i hi => hi, ?_, by simp [deleted, rank], fun _ => rfl⟩
  cases read.status <;> simp [deleted, rank]

def requestKey (request : Request) : Int × Int := (request.profile.roleID, request.mailID)

def FlowOk (request : Request) : CallPC → Prop
  | .readState _ => True
  | .grant _ read _ lootIndexes _ _ _ =>
    read.key = requestKey request ∧ request.op = .claim lootIndexes ∧ read.status ≠ .deleted
  | .save read next => read.key = requestKey request ∧ Writes request.op read next
  | .returned (.ok state) => state.key = requestKey request
  | .returned (.error _) => True

theorem readState_key (states : StateTable) (request : Request) (now : Time) :
    (readState states request.profile request.mailID now).key = requestKey request := by
  unfold readState
  cases h : states.find? (request.profile.roleID, request.mailID) with
  | none => rfl
  | some row => exact (Table.find?_eq_some.mp h).2

theorem claimPC_flow {request : Request} {read : UserGlobalMailState} {lootIndexes : List Int}
    (hkey : read.key = requestKey request) (hop : request.op = .claim lootIndexes)
    (hread : read.status ≠ .deleted) (mail : GlobalMail) (now grantNow : Time) (rest : List Int) :
    FlowOk request (claimPC request mail read now grantNow lootIndexes rest) := by
  refine claimPC_rule ?_ (fun _ => trivial) fun _ _ _ _ _ => ⟨hkey, hop, hread⟩
  intro _
  refine ⟨hkey, ?_⟩
  rw [hop]
  exact (writes_claimed now lootIndexes read hread).stamped now

theorem applyPC_flow {request : Request} {read : UserGlobalMailState}
    (hkey : read.key = requestKey request) (mail : GlobalMail) (now grantNow : Time) :
    FlowOk request (applyPC request mail read now grantNow) := by
  have saved {next : UserGlobalMailState} (hwrites : Writes request.op read next) :
      FlowOk request (.save read (stamped now next)) := ⟨hkey, hwrites.stamped now⟩
  refine applyPC_rule ?_ ?_ ?_ fun lootIndexes hop hstatus => claimPC_flow hkey hop hstatus _ _ _ _
  · intro hop
    exact saved (hop ▸ writes_markedRead now read)
  · intro hop
    exact saved (hop ▸ writes_deleted now read)
  · intro lootIndexes hop hstatus
    apply saved
    rw [hop]
    exact ⟨rfl, fun _ h => h, le_refl _, by simp [rank, hstatus], nofun⟩

theorem grantPC_flow {request : Request} {mail : GlobalMail} {read : UserGlobalMailState} {now : Time}
    {lootIndexes rest : List Int} {index : Int} {pc : GrantPC}
    (h : FlowOk request (.grant mail read now lootIndexes index rest pc)) (grantNow : Time)
    (pc' : GrantPC) :
    FlowOk request (grantPC request mail read now grantNow lootIndexes index rest pc') := by
  obtain ⟨hkey, hop, hread⟩ := h
  exact grantPC_rule (fun _ => trivial) (claimPC_flow hkey hop hread mail now grantNow rest)
    ⟨hkey, hop, hread⟩

def Flows (w : World) : Prop := ∀ call ∈ w.calls, FlowOk call.request call.pc

theorem flows_setCall {w : World} (hw : Flows w) {c : Nat} {request : Request} {checkedAt : Time}
    {pc : CallPC} {states : StateTable} {rewards : Rewards} (hpc : FlowOk request pc) :
    Flows ({ w with states, rewards }.setCall c ⟨request, checkedAt, pc⟩) := by
  intro call hcall
  rcases mem_setCall hcall with rfl | hcall
  · exact hpc
  · exact hw call hcall

theorem flows_step {w w' : World} {l : Label} (hw : Flows w) (h : step w l = some w') : Flows w' := by
  cases step_inv h with
  | addMail _ => exact hw
  | install => exact hw
  | @start request now failure =>
    intro call hcall
    rcases List.mem_append.mp hcall with hcall | hcall
    · exact hw call hcall
    · rw [List.mem_singleton.mp hcall]
      cases failure with
      | some err => trivial
      | none =>
        simp only [startPC]
        split <;> trivial
  | @getState c now grantNow checkedAt outcome request mail hc =>
    apply flows_setCall hw
    cases outcome with
    | ok => exact applyPC_flow (readState_key w.states request now) mail now grantNow
    | failed err => trivial
    | lost err => trivial
  | grant hc hgrant =>
    exact flows_setCall hw (grantPC_flow (hw _ (List.mem_of_getElem? hc)) _ _)
  | @save c outcome request checkedAt read next hc =>
    obtain ⟨hkey, hwrites⟩ := hw _ (List.mem_of_getElem? hc)
    apply flows_setCall hw
    cases outcome with
    | ok => exact hwrites.key.trans hkey
    | failed err => trivial
    | lost err => trivial
  | stop hc hprogress => exact flows_setCall hw trivial

theorem flows_init : Flows init := by
  intro call h
  cases h

end GlobalMailSystem.PlayerMail
