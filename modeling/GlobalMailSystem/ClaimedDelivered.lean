import GlobalMailSystem.DeliveredOnce
import GlobalMailSystem.SavedState

namespace GlobalMailSystem.PlayerMail

open Transition

namespace CallPC

def reserving : CallPC → Option String
  | .grant _ _ _ _ _ _ (.reserve g _) => some g.grantKey
  | _ => none

def held : CallPC → Option String
  | .grant _ _ _ _ _ _ (.backpack g _) => some g.grantKey
  | _ => none

def marking : CallPC → Option String
  | .grant _ _ _ _ _ _ (.markSucceeded g _ _) => some g.grantKey
  | _ => none

def counted : CallPC → List Int
  | .grant _ read _ lootIndexes index rest _ =>
    (read.claimedLootIndexes ++ lootIndexes).filter fun i => i ∉ index :: rest
  | .save _ next => next.claimedLootIndexes
  | _ => []

end CallPC

def callKey (request : Request) (i : Int) : String :=
  grantKey request.profile.roleID request.mailID i

def Backed (t : Rewards) (k : String) : Prop := ∃ row ∈ t.backpack.rows, row.grantKey = k

def Stored (states : StateTable) (k : String) : Prop :=
  ∃ row ∈ states.rows, ∃ i ∈ row.claimedLootIndexes, grantKey row.roleID row.globalMailID i = k

def Counts (w : World) (k : String) : Prop :=
  Stored w.states k ∨ ∃ call ∈ w.calls, ∃ i ∈ call.pc.counted, callKey call.request i = k

def Settled (w : World) (k : String) : Prop :=
  Backed w.rewards k ∨ ∃ call ∈ w.calls, call.pc.held = some k

instance (t : Rewards) (k : String) : Decidable (Backed t k) :=
  inferInstanceAs (Decidable (∃ row ∈ t.backpack.rows, row.grantKey = k))

instance (states : StateTable) (k : String) : Decidable (Stored states k) :=
  inferInstanceAs (Decidable (∃ row ∈ states.rows, ∃ i ∈ row.claimedLootIndexes, _ = k))

instance (w : World) (k : String) : Decidable (Counts w k) := inferInstanceAs (Decidable (_ ∨ _))

instance (w : World) (k : String) : Decidable (Settled w k) := inferInstanceAs (Decidable (_ ∨ _))

def keyAt (w : World) (c : Nat) (key : CallPC → Option String) : Option String :=
  w.calls[c]?.bind fun call => key call.pc

/-- The call finds the ledger row of an earlier attempt whose reward neither is in the backpack nor is
about to be put there. -/
def unbackedRetry (w : World) : Label → Bool
  | .grant c _ _ .ok =>
    match keyAt w c CallPC.reserving with
    | some k => (w.rewards.ledger.find? k).isSome && !decide (Settled w k)
    | none => false
  | _ => false

/-- A call that holds a reservation fails to insert, or stops, after another has counted the key. -/
def abandonsCounted (w : World) : Label → Bool
  | .grant c _ _ (.failed _) | .stop c =>
    match keyAt w c CallPC.held with
    | some k => decide (Counts w k)
    | none => false
  | _ => false

structure Owed (w : World) : Prop where
  settled : ∀ k, Counts w k → Settled w k
  marked : ∀ call ∈ w.calls, ∀ k, call.pc.marking = some k → Backed w.rewards k

theorem Backed.mono {t t' : Rewards} {k : String}
    (hback : ∀ row ∈ t.backpack.rows, row ∈ t'.backpack.rows) (h : Backed t k) : Backed t' k := by
  obtain ⟨row, hrow, hk⟩ := h
  exact ⟨row, hback row hrow, hk⟩

section SetCall

variable {w : World} {c : Nat} {request : Request} {checkedAt : Time} {pc pc' : CallPC}
  {states : StateTable} {rewards : Rewards} (hc : w.calls[c]? = some ⟨request, checkedAt, pc⟩)
  (hback : ∀ row ∈ w.rewards.backpack.rows, row ∈ rewards.backpack.rows)

include hc hback

theorem settled_setCall {k : String} (hheld : pc.held = some k → pc'.held = some k ∨ Backed rewards k)
    (h : Settled w k) : Settled ({ w with states, rewards }.setCall c ⟨request, checkedAt, pc'⟩) k := by
  rcases h with h | ⟨call, hcall, hk⟩
  · exact Or.inl (h.mono hback)
  · by_cases he : call = ⟨request, checkedAt, pc⟩
    · rw [he] at hk
      rcases hheld hk with hk' | hrow
      · exact Or.inr ⟨_, mem_setCall_self hc _, hk'⟩
      · exact Or.inl hrow
    · exact Or.inr ⟨call, mem_setCall_of_ne hc hcall he, hk⟩

theorem owed_setCall (hw : Owed w)
    (hheld : ∀ k, Counts w k → pc.held = some k → pc'.held = some k ∨ Backed rewards k)
    (hstored : ∀ k, Stored states k → Counts w k)
    (hcounted : ∀ i ∈ pc'.counted, Counts w (callKey request i) ∨
      Settled ({ w with states, rewards }.setCall c ⟨request, checkedAt, pc'⟩) (callKey request i))
    (hmarking : ∀ k, pc'.marking = some k → Backed rewards k) :
    Owed ({ w with states, rewards }.setCall c ⟨request, checkedAt, pc'⟩) := by
  have still {k : String} (hk : Counts w k) :
      Settled ({ w with states, rewards }.setCall c ⟨request, checkedAt, pc'⟩) k :=
    settled_setCall hc hback (hheld k hk) (hw.settled k hk)
  constructor
  · rintro k (hk | ⟨call, hcall, i, hi, rfl⟩)
    · exact still (hstored k hk)
    · rcases mem_setCall hcall with rfl | hcall
      · rcases hcounted i hi with h | h
        · exact still h
        · exact h
      · exact still (Or.inr ⟨call, hcall, i, hi, rfl⟩)
  · intro call hcall k hk
    rcases mem_setCall hcall with rfl | hcall
    · exact hmarking k hk
    · exact (hw.marked call hcall k hk).mono hback

end SetCall

theorem counted_claimPC {request : Request} {mail : GlobalMail} {read : UserGlobalMailState}
    {now grantNow : Time} {lootIndexes rest : List Int} {i : Int}
    (h : i ∈ (claimPC request mail read now grantNow lootIndexes rest).counted) :
    (i ∈ read.claimedLootIndexes ∨ i ∈ lootIndexes) ∧ i ∉ rest := by
  revert h
  refine claimPC_rule
    (P := fun pc => i ∈ pc.counted → (i ∈ read.claimedLootIndexes ∨ i ∈ lootIndexes) ∧ i ∉ rest)
    ?_ ?_ ?_
  · rintro rfl h
    exact ⟨mem_mergeLootIndexes.mp h, List.not_mem_nil⟩
  · intro err h
    cases h
  · rintro index tail loot rfl _ h
    obtain ⟨hi, htail⟩ := List.mem_filter.mp h
    exact ⟨List.mem_append.mp hi, by simpa using htail⟩

theorem counted_applyPC {request : Request} {mail : GlobalMail} {read : UserGlobalMailState}
    {now grantNow : Time} {i : Int} (h : i ∈ (applyPC request mail read now grantNow).counted) :
    i ∈ read.claimedLootIndexes := by
  revert h
  refine applyPC_rule (P := fun pc => i ∈ pc.counted → i ∈ read.claimedLootIndexes)
    ?_ (fun _ h => h) (fun _ _ _ h => h) ?_
  · intro _ h
    simp only [CallPC.counted, stamped, markedRead] at h
    split_ifs at h <;> exact h
  · intro lootIndexes _ _ h
    obtain ⟨hi, hnew⟩ := counted_claimPC h
    by_contra hread
    exact hnew (mem_newLootIndexes.mpr ⟨hi.resolve_left hread, hread⟩)

theorem marking_claimPC (request : Request) (mail : GlobalMail) (read : UserGlobalMailState)
    (now grantNow : Time) (lootIndexes rest : List Int) :
    (claimPC request mail read now grantNow lootIndexes rest).marking = none :=
  claimPC_rule (P := fun pc => pc.marking = none) (fun _ => rfl) (fun _ => rfl) fun _ _ _ _ _ => rfl

theorem marking_applyPC (request : Request) (mail : GlobalMail) (read : UserGlobalMailState)
    (now grantNow : Time) : (applyPC request mail read now grantNow).marking = none :=
  applyPC_rule (P := fun pc => pc.marking = none) (fun _ => rfl) (fun _ => rfl) (fun _ _ _ => rfl)
    fun _ _ _ => marking_claimPC _ _ _ _ _ _ _

theorem stored_readState {states : StateTable} {request : Request} {now : Time} {i : Int}
    (h : i ∈ (readState states request.profile request.mailID now).claimedLootIndexes) :
    Stored states (callKey request i) := by
  unfold readState at h
  cases hf : states.find? (request.profile.roleID, request.mailID) with
  | none =>
    rw [hf] at h
    cases h
  | some row =>
    rw [hf] at h
    obtain ⟨hrow, hkey⟩ := Table.find?_eq_some.mp hf
    obtain ⟨hrole, hmail⟩ := Prod.mk.inj hkey
    exact ⟨row, hrow, i, h, by rw [hrole, hmail]; rfl⟩

theorem stored_saveUserState {w : World} {request : Request} {checkedAt : Time}
    {read next : UserGlobalMailState} (hcall : ⟨request, checkedAt, .save read next⟩ ∈ w.calls)
    (hkey : next.key = requestKey request) {k : String} (h : Stored (w.states.saveUserState next) k) :
    Counts w k := by
  obtain ⟨row, hrow, i, hi, rfl⟩ := h
  rcases StateTable.mem_saveUserState hrow with hrow | ⟨hrowkey, hsaved⟩
  · exact Or.inl ⟨row, hrow, i, hi, rfl⟩
  · obtain ⟨hrole, hmail⟩ := Prod.mk.inj (hrowkey.trans hkey)
    have mine (hnext : i ∈ next.claimedLootIndexes) : Counts w (grantKey row.roleID row.globalMailID i) :=
      Or.inr ⟨_, hcall, i, hnext, by rw [hrole, hmail]; rfl⟩
    cases hf : w.states.find? next.key with
    | none =>
      rw [hsaved, hf] at hi
      exact mine hi
    | some old =>
      rw [hsaved, hf] at hi
      obtain ⟨hold, holdkey⟩ := Table.find?_eq_some.mp hf
      simp only [StateTable.savedRow, StateTable.updatedRow, StateTable.preserveDeleted] at hi
      split_ifs at hi
      · obtain ⟨hr, hm⟩ := Prod.mk.inj (holdkey.trans hrowkey.symm)
        exact Or.inl ⟨old, hold, i, hi, by rw [hr, hm]⟩
      · exact mine hi

theorem backed_grantBackpackReward (t : Rewards) (g : BackpackGrant) :
    Backed (t.grantBackpackReward g).1 g.grantKey := by
  obtain ⟨row, hrow⟩ : ∃ row, (t.grantBackpackReward g).1.backpack.find? g.grantKey = some row := by
    rw [Rewards.grantBackpack_backpack]
    exact ⟨_, if_pos rfl⟩
  exact ⟨row, Table.find?_eq_some.mp hrow⟩

section Grant

variable {w : World} {c : Nat} {request : Request} {checkedAt now serverNow grantNow : Time}
  {outcome : Outcome} {mail : GlobalMail} {read : UserGlobalMailState} {lootIndexes rest : List Int}
  {index : Int} {pc pc' : GrantPC} {rewards : Rewards}

theorem counted_next (index : Int) (pc : GrantPC) {i : Int}
    (h : i ∈ (claimPC request mail read now grantNow lootIndexes rest).counted) :
    i = index ∨ i ∈ (CallPC.grant mail read now lootIndexes index rest pc).counted := by
  obtain ⟨hi, hrest⟩ := counted_claimPC h
  by_cases he : i = index
  · exact Or.inl he
  · refine Or.inr (List.mem_filter.mpr ⟨List.mem_append.mpr hi, ?_⟩)
    simp [he, hrest]

variable (hw : Owed w)
  (hc : w.calls[c]? = some ⟨request, checkedAt, .grant mail read now lootIndexes index rest pc⟩)
include hw hc

theorem owed_next (hback : ∀ row ∈ w.rewards.backpack.rows, row ∈ rewards.backpack.rows)
    (hheld : (CallPC.grant mail read now lootIndexes index rest pc).held = none)
    (hindex : Settled w (callKey request index)) :
    Owed ({ w with rewards }.setCall c
      ⟨request, checkedAt, claimPC request mail read now grantNow lootIndexes rest⟩) := by
  have nothing {k : String} {P : Prop}
      (hk : (CallPC.grant mail read now lootIndexes index rest pc).held = some k) : P := by
    rw [hheld] at hk
    cases hk
  refine owed_setCall hc hback hw (fun k _ hk => nothing hk) (fun k => Or.inl) (fun i hi => ?_) ?_
  · rcases counted_next index pc hi with rfl | hi
    · exact Or.inr (settled_setCall hc hback nothing hindex)
    · exact Or.inl (Or.inr ⟨_, List.mem_of_getElem? hc, i, hi, rfl⟩)
  · intro k hk
    rw [marking_claimPC] at hk
    cases hk

theorem owed_stage {next : CallPC}
    (hback : ∀ row ∈ w.rewards.backpack.rows, row ∈ rewards.backpack.rows)
    (hheld : ∀ k, Counts w k → (CallPC.grant mail read now lootIndexes index rest pc).held = some k →
      Backed rewards k)
    (hcounted : ∀ i ∈ next.counted,
      i ∈ (CallPC.grant mail read now lootIndexes index rest pc).counted)
    (hmarking : ∀ k, next.marking = some k → Backed rewards k) :
    Owed ({ w with rewards }.setCall c ⟨request, checkedAt, next⟩) := by
  refine owed_setCall hc hback hw (fun k hk h => Or.inr (hheld k hk h)) (fun k => Or.inl) (fun i hi => ?_)
    hmarking
  exact Or.inl (Or.inr ⟨_, List.mem_of_getElem? hc, i, hcounted i hi, rfl⟩)

theorem owed_givesUp (hback : ∀ row ∈ w.rewards.backpack.rows, row ∈ rewards.backpack.rows)
    (hheld : (CallPC.grant mail read now lootIndexes index rest pc).held = none) (err : String) :
    Owed ({ w with rewards }.setCall c ⟨request, checkedAt, .returned (.error err)⟩) := by
  refine owed_stage hw hc hback (fun k _ hk => ?_) (fun i hi => by cases hi) (fun k hk => by cases hk)
  rw [hheld] at hk
  cases hk

omit hc in
theorem owed_reserve {g : RewardGrant} {n : Time} (hkey : g.grantKey = callKey request index)
    (hc : w.calls[c]? = some
      ⟨request, checkedAt, .grant mail read now lootIndexes index rest (.reserve g n)⟩)
    (hstep : (GrantPC.reserve g n).step w.rewards serverNow .ok = some (rewards, pc'))
    (hretry : unbackedRetry w (.grant c serverNow grantNow .ok) = false) :
    Owed ({ w with rewards }.setCall c
      ⟨request, checkedAt, grantPC request mail read now grantNow lootIndexes index rest pc'⟩) := by
  have hback : ∀ row ∈ w.rewards.backpack.rows, row ∈ rewards.backpack.rows :=
    fun _ hrow => GrantPC.step_backpack_mono hstep hrow
  have hnext : pc' = if (w.rewards.ledger.find? g.grantKey).isNone then .backpack g n
      else .returned g.grantKey (.ok false) := by
    simp only [GrantPC.step, Rewards.reserve_added, Option.some.injEq, Prod.mk.injEq] at hstep
    exact hstep.2.symm
  by_cases hrow : (w.rewards.ledger.find? g.grantKey).isNone = true
  · rw [hnext, if_pos hrow]
    exact owed_stage hw hc hback (fun k _ hk => by cases hk) (fun i hi => hi) (fun k hk => by cases hk)
  · rw [hnext, if_neg hrow]
    apply owed_next hw hc hback rfl
    have hsome : (w.rewards.ledger.find? g.grantKey).isSome = true := by
      simpa [Option.isSome_iff_ne_none] using hrow
    simp only [unbackedRetry, keyAt, hc, Option.bind_some, CallPC.reserving, hsome, Bool.true_and,
      Bool.not_eq_false', decide_eq_true_eq] at hretry
    exact hkey ▸ hretry

omit hc in
theorem owed_backpack {g : RewardGrant} {n : Time}
    (hc : w.calls[c]? = some
      ⟨request, checkedAt, .grant mail read now lootIndexes index rest (.backpack g n)⟩)
    (hstep : (GrantPC.backpack g n).step w.rewards serverNow outcome = some (rewards, pc'))
    (habandon : abandonsCounted w (.grant c serverNow grantNow outcome) = false) :
    Owed ({ w with rewards }.setCall c
      ⟨request, checkedAt, grantPC request mail read now grantNow lootIndexes index rest pc'⟩) := by
  have hback : ∀ row ∈ w.rewards.backpack.rows, row ∈ rewards.backpack.rows :=
    fun _ hrow => GrantPC.step_backpack_mono hstep hrow
  have hinserted := backed_grantBackpackReward w.rewards (GrantPC.backpackGrant g n)
  cases outcome with
  | ok =>
    cases hstep
    exact owed_stage hw hc hback (fun k _ hk => by cases hk; exact hinserted) (fun i hi => hi)
      (fun k hk => by cases hk; exact hinserted)
  | failed err =>
    cases hstep
    refine owed_stage hw hc hback (fun k hk hheld => ?_) (fun i hi => hi) (fun k hk => by cases hk)
    cases hheld
    simp only [abandonsCounted, keyAt, hc, Option.bind_some, CallPC.held, decide_eq_false_iff_not]
      at habandon
    exact absurd hk habandon
  | lost err =>
    cases hstep
    exact owed_stage hw hc hback (fun k _ hk => by cases hk; exact hinserted) (fun i hi => hi)
      (fun k hk => by cases hk)

theorem owed_grant (hinv : Inv w)
    (hstep : pc.step w.rewards serverNow outcome = some (rewards, pc'))
    (hretry : unbackedRetry w (.grant c serverNow grantNow outcome) = false)
    (habandon : abandonsCounted w (.grant c serverNow grantNow outcome) = false) :
    Owed ({ w with rewards }.setCall c
      ⟨request, checkedAt, grantPC request mail read now grantNow lootIndexes index rest pc'⟩) := by
  obtain ⟨_, _, _, _, hcarries⟩ := hinv.calls _ (List.mem_of_getElem? hc)
  have hback : ∀ row ∈ w.rewards.backpack.rows, row ∈ rewards.backpack.rows :=
    fun _ hrow => GrantPC.step_backpack_mono hstep hrow
  cases pc with
  | reserve g n =>
    cases outcome with
    | ok => exact owed_reserve hw hcarries.grantKey hc hstep hretry
    | failed err => cases hstep; exact owed_givesUp hw hc hback rfl err
    | lost err => cases hstep; exact owed_givesUp hw hc hback rfl err
  | backpack g n => exact owed_backpack hw hc hstep habandon
  | markFailed g n err => cases hstep; exact owed_givesUp hw hc hback rfl err
  | markSucceeded g n ext =>
    have hkey : g.grantKey = callKey request index := hcarries.grantKey
    cases outcome with
    | ok =>
      cases hstep
      apply owed_next hw hc hback rfl
      exact Or.inl (hkey ▸ hw.marked _ (List.mem_of_getElem? hc) g.grantKey rfl)
    | failed err => cases hstep; exact owed_givesUp hw hc hback rfl err
    | lost err => cases hstep; exact owed_givesUp hw hc hback rfl err
  | returned k result => cases hstep

end Grant

theorem startPC_owes_nothing (snapshot : CacheSnapshot) (request : Request) (now : Time)
    (failure : Option String) : (startPC snapshot request now failure).counted = [] ∧
      (startPC snapshot request now failure).marking = none := by
  cases failure with
  | some err => exact ⟨rfl, rfl⟩
  | none =>
    simp only [startPC]
    split <;> exact ⟨rfl, rfl⟩

theorem owed_append {w : World} (hw : Owed w) {call : Call} (hcounted : call.pc.counted = [])
    (hmarking : call.pc.marking = none) : Owed { w with calls := w.calls ++ [call] } := by
  constructor
  · intro k hk
    have hbefore : Counts w k := by
      rcases hk with hk | ⟨other, hother, i, hi, rfl⟩
      · exact Or.inl hk
      · rcases List.mem_append.mp hother with hother | hother
        · exact Or.inr ⟨other, hother, i, hi, rfl⟩
        · rw [List.mem_singleton.mp hother, hcounted] at hi
          cases hi
    rcases hw.settled k hbefore with hs | ⟨other, hother, hheld⟩
    · exact Or.inl hs
    · exact Or.inr ⟨other, List.mem_append_left _ hother, hheld⟩
  · intro other hother k hk
    rcases List.mem_append.mp hother with hother | hother
    · exact hw.marked other hother k hk
    · rw [List.mem_singleton.mp hother, hmarking] at hk
      cases hk

theorem owed_step {w w' : World} {l : Label} (hw : Owed w) (hinv : Inv w) (hflow : Flows w)
    (hretry : unbackedRetry w l = false) (habandon : abandonsCounted w l = false)
    (h : step w l = some w') : Owed w' := by
  cases step_inv h with
  | addMail _ => exact ⟨hw.settled, hw.marked⟩
  | install => exact ⟨hw.settled, hw.marked⟩
  | @start request now failure =>
    obtain ⟨hcounted, hmarking⟩ :=
      startPC_owes_nothing (w.snapshots request.server) request now failure
    exact owed_append hw hcounted hmarking
  | @getState c now grantNow checkedAt outcome request mail hc =>
    refine owed_setCall hc (fun _ h => h) hw (fun k _ hk => by cases hk) (fun k => Or.inl) ?_ ?_
    · intro i hi
      cases outcome with
      | ok => exact Or.inl (Or.inl (stored_readState (counted_applyPC hi)))
      | failed err => cases hi
      | lost err => cases hi
    · intro k hk
      cases outcome with
      | ok =>
        simp only [readPC, marking_applyPC] at hk
        cases hk
      | failed err => cases hk
      | lost err => cases hk
  | grant hc hgrant => exact owed_grant hw hc hinv hgrant hretry habandon
  | @save c outcome request checkedAt read next hc =>
    obtain ⟨hkey, hwrites⟩ := hflow _ (List.mem_of_getElem? hc)
    refine owed_setCall hc (fun _ h => h) hw (fun k _ hk => by cases hk) ?_ ?_ ?_
    · intro k hk
      cases outcome with
      | failed err => exact Or.inl hk
      | ok | lost => exact stored_saveUserState (List.mem_of_getElem? hc) (hwrites.key.trans hkey) hk
    · intro i hi
      cases outcome <;> cases hi
    · intro k hk
      cases outcome <;> cases hk
  | @stop c request checkedAt pc hc hprogress =>
    refine owed_setCall hc (fun _ h => h) hw (fun k hk hheld => ?_) (fun k => Or.inl) (fun i hi => by cases hi)
      (fun k hk => by cases hk)
    simp only [abandonsCounted, keyAt, hc, Option.bind_some, hheld, decide_eq_false_iff_not] at habandon
    exact absurd hk habandon

theorem owed_init : Owed init where
  settled k h := by
    rcases h with ⟨row, hrow, _⟩ | ⟨call, hcall, _⟩
    · cases hrow
    · cases hcall
  marked call h := by cases h

theorem claimed_delivered (ls : List Label) (w : World)
    (hg : Guarded step (fun w l => unbackedRetry w l = false ∧ abandonsCounted w l = false) init ls)
    (h : run step init ls = some w) (hquiet : ∀ call ∈ w.calls, call.pc.inProgress = false) :
    ∀ state ∈ w.states.rows, ∀ i ∈ state.claimedLootIndexes,
      ∃ row ∈ w.rewards.backpack.rows, row.grantKey = grantKey state.roleID state.globalMailID i := by
  have hstep : ∀ s l t, (Inv s ∧ Flows s) ∧ Owed s →
      unbackedRetry s l = false ∧ abandonsCounted s l = false → step s l = some t →
      (Inv t ∧ Flows t) ∧ Owed t := by
    rintro s l t ⟨⟨hinv, hflow⟩, howed⟩ ⟨hretry, habandon⟩ hl
    exact ⟨⟨inv_step hinv hl, flows_step hflow hl⟩, owed_step howed hinv hflow hretry habandon hl⟩
  have hall := guarded_invariant hstep ⟨⟨inv_init, flows_init⟩, owed_init⟩ hg h
  intro state hstate i hi
  rcases hall.2.settled _ (Or.inl ⟨state, hstate, i, hi, rfl⟩) with hbacked | ⟨call, hcall, hheld⟩
  · exact hbacked
  · -- a call that holds a reservation is still in progress
    have hdone := hquiet call hcall
    cases hpc : call.pc with
    | returned result =>
      rw [hpc] at hheld
      cases hheld
    | readState | grant | save =>
      rw [hpc] at hdone
      cases hdone

theorem claimBoth_backed :
    ∃ w, run step init claimBoth = some w ∧ (∃ state ∈ w.states.rows, state.claimedLootIndexes = [0, 1]) ∧
      ∀ state ∈ w.states.rows, ∀ i ∈ state.claimedLootIndexes,
        ∃ row ∈ w.rewards.backpack.rows, row.grantKey = grantKey state.roleID state.globalMailID i := by
  have hrun : run step init claimBoth = some ((run step init claimBoth).get (by decide)) :=
    (Option.some_get _).symm
  exact ⟨_, hrun, by decide, claimed_delivered claimBoth _ (by decide) hrun (by decide)⟩

def claimFirst : Request := ⟨0, player, 10, .claim [0]⟩

def failedThenRetried : List Label :=
  opened ++ [.start claimFirst 5 none, .getState 0 6 6 .ok, .grant 0 7 7 .ok,
    .grant 0 7 7 (.failed "bag full"), .grant 0 7 7 .ok] ++
  [.start claimFirst 8 none, .getState 1 9 9 .ok, .grant 1 9 9 .ok, .save 1 .ok]

theorem failedThenRetried_not_delivered :
    ∃ w, run step init failedThenRetried = some w ∧ (∀ call ∈ w.calls, call.pc.inProgress = false) ∧
      ¬ ∀ state ∈ w.states.rows, ∀ i ∈ state.claimedLootIndexes,
        ∃ row ∈ w.rewards.backpack.rows, row.grantKey = grantKey state.roleID state.globalMailID i := by
  have hrun : run step init failedThenRetried = some ((run step init failedThenRetried).get (by decide)) :=
    (Option.some_get _).symm
  exact ⟨_, hrun, by decide, by decide⟩

end GlobalMailSystem.PlayerMail
