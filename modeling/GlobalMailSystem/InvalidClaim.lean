import GlobalMailSystem.ClaimsCommute

namespace GlobalMailSystem.PlayerMail

def InvalidIndex (loots : RawMessage) (index : Int) : Prop :=
  index < 0 ∨ ∃ items, loots = .value (.arr items) ∧ (items.length : Int) ≤ index

theorem lootAtIndex_of_invalid {loots : RawMessage} {index : Int} (h : InvalidIndex loots index) :
    ∃ err, lootAtIndex loots index = .error err := by
  by_cases hneg : index < 0
  · exact ⟨_, if_pos hneg⟩
  · obtain ⟨items, rfl, hlength⟩ := h.resolve_left hneg
    have hnone : items[index.toNat]? = none := List.getElem?_eq_none (by omega)
    refine ⟨"loot index " ++ toString index ++ " out of range", ?_⟩
    unfold lootAtIndex
    simp [hneg, RawJson.unmarshalItems_array, hnone]

theorem valid_of_ok {loots : RawMessage} {index : Int} {loot : RawMessage} (h : lootAtIndex loots index = .ok loot) :
    ¬ InvalidIndex loots index := by
  intro hbad
  obtain ⟨err, herr⟩ := lootAtIndex_of_invalid hbad
  rw [herr] at h
  cases h

theorem invalid_of_least {loots : RawMessage} {index other : Int} {err : String}
    (herr : lootAtIndex loots index = .error err) (hother : InvalidIndex loots other) (hle : index ≤ other) :
    InvalidIndex loots index := by
  by_cases hneg : index < 0
  · exact Or.inl hneg
  · obtain ⟨items, rfl, -⟩ := hother.resolve_left (by omega)
    refine Or.inr ⟨items, rfl, ?_⟩
    by_contra hlt
    have hlength : index.toNat < items.length := by omega
    have hsome : items[index.toNat]? = some items[index.toNat] := List.getElem?_eq_getElem hlength
    unfold lootAtIndex at herr
    simp [hneg, RawJson.unmarshalItems_array, hsome] at herr

section Grants

variable (profile : UserProfile) {mail : GlobalMail} (mailID : Int) (r : Readings)

theorem granted_reserved {t : Rewards} {grant : RewardGrant} (h : grant.grantKey ∈ ledgerKeys t) :
    granted r t grant = t := by
  obtain ⟨row, hrow⟩ := Option.isSome_iff_exists.mp h
  obtain ⟨hmem, hkey⟩ := Table.find?_eq_some.mp hrow
  have hnone : t.ledger.insert (Rewards.ledgerRow (GrantPC.pendingGrant grant (r.grantedAt grant.lootIndex))
      (r.storedAt grant.lootIndex)) = none := Table.insert_eq_none.mpr ⟨row, hmem, hkey⟩
  simp [granted, grantGlobalMailReward, Rewards.reserveGlobalMailReward, Table.insertIgnore, hnone]

theorem ledgerKeys_grantRewards (mail : GlobalMail) (t : Rewards) (indexes : List Int) :
    ledgerKeys t ⊆ ledgerKeys (grantRewards profile mail mailID r t indexes).1 := by
  rw [grantRewards_calls, (foldl_granted r t _).1]
  exact Set.subset_union_left

theorem grantRewards_rejects {indexes : List Int} (hinvalid : ∃ index ∈ indexes, InvalidIndex mail.loots index)
    (t : Rewards) : ∃ err, (grantRewards profile mail mailID r t indexes).2 = .error err := by
  induction indexes generalizing t with
  | nil =>
    obtain ⟨index, hindex, -⟩ := hinvalid
    exact absurd hindex List.not_mem_nil
  | cons head rest ih =>
    simp only [grantRewards]
    cases hloot : lootAtIndex mail.loots head with
    | error err => exact ⟨err, rfl⟩
    | ok loot =>
      obtain ⟨index, hindex, hbad⟩ := hinvalid
      rcases List.mem_cons.mp hindex with rfl | hrest
      · exact absurd hbad (valid_of_ok hloot)
      · exact ih ⟨index, hrest, hbad⟩ _

def Preceding (loots : RawMessage) (indexes : List Int) (index : Int) : Prop :=
  ∀ other ∈ indexes, InvalidIndex loots other → index < other

theorem preceding_cons {loots : RawMessage} {head index : Int} {rest : List Int}
    (hvalid : ¬ InvalidIndex loots head) : Preceding loots (head :: rest) index ↔ Preceding loots rest index := by
  constructor
  · exact fun h other hother => h other (List.mem_cons_of_mem _ hother)
  · intro h other hother hbad
    rcases List.mem_cons.mp hother with rfl | hrest
    · exact absurd hbad hvalid
    · exact h other hrest hbad

theorem grantRewards_kept_iff {indexes : List Int} (hsorted : indexes.Pairwise (· < ·))
    (hinvalid : ∃ index ∈ indexes, InvalidIndex mail.loots index) (t : Rewards) :
    ((grantRewards profile mail mailID r t indexes).1.ledger = t.ledger ∧
      (grantRewards profile mail mailID r t indexes).1.backpack = t.backpack) ↔
    ∀ index ∈ indexes, Preceding mail.loots indexes index →
      grantKey profile.roleID mailID index ∈ ledgerKeys t := by
  induction indexes with
  | nil =>
    obtain ⟨index, hindex, -⟩ := hinvalid
    exact absurd hindex List.not_mem_nil
  | cons head rest ih =>
    obtain ⟨hleast, hrest⟩ := List.pairwise_cons.mp hsorted
    obtain ⟨bad, hmem, hbad⟩ := hinvalid
    simp only [grantRewards]
    cases hloot : lootAtIndex mail.loots head with
    | error err =>
      have hle : head ≤ bad := by
        rcases List.mem_cons.mp hmem with rfl | hlater
        · exact le_refl _
        · exact (hleast bad hlater).le
      have hhead := invalid_of_least hloot hbad hle
      refine iff_of_true ⟨rfl, rfl⟩ fun index hindex hpreceding => ?_
      have hlt := hpreceding head List.mem_cons_self hhead
      rcases List.mem_cons.mp hindex with rfl | hlater
      · exact absurd hlt (lt_irrefl _)
      · exact absurd hlt (hleast index hlater).le.not_gt
    | ok loot =>
      have hvalid := valid_of_ok hloot
      have hlater : bad ∈ rest := by
        rcases List.mem_cons.mp hmem with rfl | hlater
        · exact absurd hbad hvalid
        · exact hlater
      have hgranted : (grantGlobalMailReward t (rewardGrant profile mailID head loot r.appliedAt)
          (r.grantedAt head) (r.storedAt head)).1 =
          granted r t (rewardGrant profile mailID head loot r.appliedAt) := rfl
      simp only [hgranted, List.forall_mem_cons, preceding_cons hvalid]
      by_cases hreserved : grantKey profile.roleID mailID head ∈ ledgerKeys t
      · have hsame : granted r t (rewardGrant profile mailID head loot r.appliedAt) = t := granted_reserved r hreserved
        rw [hsame, ih hrest ⟨bad, hlater, hbad⟩]
        exact ⟨fun hall => ⟨fun _ => hreserved, hall⟩, fun hall => hall.2⟩
      · -- the new ledger row stays, whatever the later indexes do
        refine iff_of_false ?_ fun hall => hreserved (hall.1 fun other hother _ => hleast other hother)
        rintro ⟨hledger, -⟩
        have hrow := ledgerKeys_grantRewards profile mailID r mail
          (granted r t (rewardGrant profile mailID head loot r.appliedAt)) rest
        rw [granted_ledgerKeys] at hrow
        have hkey := hrow (Set.mem_insert _ _)
        rw [ledgerKeys, hledger] at hkey
        exact hreserved hkey

end Grants

/-- The state is not deleted, and every new index that comes before the invalid ones has its ledger row. -/
def RejectedClean (t : Rewards) (roleID mailID : Int) (state : UserGlobalMailState) (loots : RawMessage)
    (lootIndexes : List Int) : Prop :=
  state.status ≠ .deleted ∧ ∀ index ∈ newLootIndexes state.claimedLootIndexes lootIndexes,
    Preceding loots (newLootIndexes state.claimedLootIndexes lootIndexes) index →
      grantKey roleID mailID index ∈ ledgerKeys t

theorem applyOp_clean_iff (profile : UserProfile) {mail : GlobalMail} (mailID : Int) (r : Readings) (t : Rewards)
    {state : UserGlobalMailState} {lootIndexes : List Int}
    (hinvalid : ∃ index ∈ newLootIndexes state.claimedLootIndexes lootIndexes, InvalidIndex mail.loots index) :
    ((∃ err, (applyOp profile mail mailID r t state (.claim lootIndexes)).2 = .error err) ∧
      (applyOp profile mail mailID r t state (.claim lootIndexes)).1.ledger = t.ledger ∧
      (applyOp profile mail mailID r t state (.claim lootIndexes)).1.backpack = t.backpack) ↔
    RejectedClean t profile.roleID mailID state mail.loots lootIndexes := by
  by_cases hdeleted : state.status = .deleted
  · refine iff_of_false ?_ fun hclean => hclean.1 hdeleted
    rintro ⟨⟨err, herr⟩, -⟩
    simp [applyOp, hdeleted] at herr
  · obtain ⟨err, herr⟩ := grantRewards_rejects profile mailID r hinvalid t
    have hresult : applyOp profile mail mailID r t state (.claim lootIndexes) =
        ((grantRewards profile mail mailID r t (newLootIndexes state.claimedLootIndexes lootIndexes)).1,
          .error err) := by
      simp only [applyOp, if_neg hdeleted]
      split
      · rename_i t' err' hgrants
        rw [hgrants] at herr ⊢
        rw [Except.error.inj herr]
      · rename_i t' done hgrants
        rw [hgrants] at herr
        cases herr
    have hkept := grantRewards_kept_iff profile mailID r
      (newLootIndexes_sortedLT state.claimedLootIndexes lootIndexes).pairwise hinvalid t
    rw [hresult]
    exact ⟨fun h => ⟨hdeleted, hkept.mp h.2⟩, fun h => ⟨⟨err, rfl⟩, hkept.mpr h.2⟩⟩

theorem invalid_claim_no_effect (s : PlayerServer) (r : Readings) (profile : UserProfile) (mailID : Int)
    (lootIndexes : List Int)
    (hinvalid : ∀ mail, visibleMail (s.refreshIfStale r.refreshedAt r.token).snapshot profile r.checkedAt mailID =
        some mail → ∃ index ∈ lootIndexes,
          index ∉ (readState s.states profile mailID r.appliedAt).claimedLootIndexes ∧
            InvalidIndex mail.loots index) :
    ((∃ err, (claimGlobalMail s r profile mailID lootIndexes).2 = .error err) ∧
      (claimGlobalMail s r profile mailID lootIndexes).1.states = s.states ∧
      (claimGlobalMail s r profile mailID lootIndexes).1.rewards.ledger = s.rewards.ledger ∧
      (claimGlobalMail s r profile mailID lootIndexes).1.rewards.backpack = s.rewards.backpack) ↔
    ∀ mail, visibleMail (s.refreshIfStale r.refreshedAt r.token).snapshot profile r.checkedAt mailID =
      some mail → RejectedClean s.rewards profile.roleID mailID
        (readState s.states profile mailID r.appliedAt) mail.loots lootIndexes := by
  simp only [claimGlobalMail, updateGlobalMailState]
  cases hmail : visibleMail (s.refreshIfStale r.refreshedAt r.token).snapshot profile r.checkedAt mailID with
  | none => exact iff_of_true ⟨⟨_, rfl⟩, rfl, rfl, rfl⟩ fun mail h => by cases h
  | some mail =>
    obtain ⟨index, hmem, hnew, hbad⟩ := hinvalid mail hmail
    have happly := applyOp_clean_iff profile mailID r s.rewards
      ⟨index, mem_newLootIndexes.mpr ⟨hmem, hnew⟩, hbad⟩
    simp only [Option.some.injEq, forall_eq']
    rw [← happly]
    simp only [updateVisible, PlayerServer.refreshIfStale]
    split
    · rename_i t' err hop
      simp [hop]
    · rename_i t' next hop
      simp [hop]

def oneLootMail : GlobalMail :=
  { (default : GlobalMail) with
    id := 20, loots := .value (.arr [.int 7]), startTime := 0, expireTime := 90 * minute, status := .published }

def oneLootServer : PlayerServer :=
  ⟨.empty, .empty, .build 1 [oneLootMail] 0, .empty, .empty, 1, [oneLootMail], 0, rfl⟩

def claimAtOne (lootIndexes : List Int) : PlayerServer × Except String UserGlobalMailState :=
  claimGlobalMail oneLootServer ⟨1, 9, 1, 1, fun _ => 1, fun _ => 1⟩ default 20 lootIndexes

def retryAtOne : PlayerServer := (claimAtOne [9, 0]).1

theorem invalid_claim_fails :
    (∃ err, (claimGlobalMail retryAtOne ⟨2, 9, 2, 2, fun _ => 2, fun _ => 2⟩ default 20 [9, 0]).2 = .error err) ∧
      (claimGlobalMail retryAtOne ⟨2, 9, 2, 2, fun _ => 2, fun _ => 2⟩ default 20 [9, 0]).1.rewards.ledger =
        retryAtOne.rewards.ledger := by
  have hvisible : visibleMail (retryAtOne.refreshIfStale 2 9).snapshot default 2 20 = some oneLootMail := rfl
  have hindex : InvalidIndex oneLootMail.loots 9 := Or.inr ⟨[.int 7], rfl, by decide⟩
  have hclean := (invalid_claim_no_effect retryAtOne ⟨2, 9, 2, 2, fun _ => 2, fun _ => 2⟩ default 20 [9, 0]
    (fun mail hmail => ?_)).mpr fun mail hmail => ?_
  · exact ⟨hclean.1, hclean.2.2.1⟩
  · rw [← Option.some.inj (hvisible.symm.trans hmail)]
    exact ⟨9, by decide, by decide, hindex⟩
  · rw [← Option.some.inj (hvisible.symm.trans hmail)]
    refine ⟨by decide, fun index hmem hpreceding => ?_⟩
    have hlist : newLootIndexes (readState retryAtOne.states default 20 2).claimedLootIndexes [9, 0] = [0, 9] := by
      decide
    rw [hlist] at hmem hpreceding
    have hlt := hpreceding 9 (by decide) hindex
    obtain rfl : index = 0 := by
      rcases List.mem_cons.mp hmem with rfl | hlater
      · rfl
      · rw [List.mem_singleton.mp hlater] at hlt
        exact absurd hlt (lt_irrefl _)
    show (retryAtOne.rewards.ledger.find? _).isSome
    decide

theorem valid_index_granted_first :
    9 ∈ newLootIndexes [] [9, 0] ∧ InvalidIndex oneLootMail.loots 9 ∧
      (∃ err, (claimAtOne [9, 0]).2 = .error err) ∧
      oneLootServer.rewards.backpack.rows.length = 0 ∧ (claimAtOne [9, 0]).1.rewards.ledger.rows.length = 1 ∧
      (claimAtOne [9, 0]).1.rewards.backpack.rows.length = 1 := by
  refine ⟨by decide, Or.inr ⟨[.int 7], rfl, by decide⟩, ⟨_, rfl⟩, rfl, by decide, by decide⟩

end GlobalMailSystem.PlayerMail
