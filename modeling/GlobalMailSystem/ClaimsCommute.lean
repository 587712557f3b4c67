import GlobalMailSystem.LootIndexSets

namespace GlobalMailSystem.PlayerMail

/-- What claims leave behind, as sets: the claimed indexes and the keys of the two reward tables. -/
@[ext]
structure Standing (ι κ : Type) where
  claimed : Set ι
  ledger : Set κ
  backpack : Set κ

namespace Standing

variable {ι κ : Type} (key : ι → κ)

def claim (x : Standing ι κ) (indexes : Set ι) : Standing ι κ where
  claimed := x.claimed ∪ indexes
  ledger := x.ledger ∪ key '' (indexes \ x.claimed)
  backpack := x.backpack ∪ key '' (indexes \ x.claimed) \ x.ledger

theorem claim_empty (x : Standing ι κ) : x.claim key ∅ = x := by
  ext <;> simp [claim]

theorem image_split (old first second : Set ι) :
    key '' ((first ∪ second) \ old) = key '' (first \ old) ∪ key '' (second \ (old ∪ first)) := by
  rw [← Set.image_union]
  congr 1
  ext i
  simp only [Set.mem_sdiff, Set.mem_union, not_or]
  tauto

theorem claim_claim (x : Standing ι κ) (first second : Set ι) :
    (x.claim key first).claim key second = x.claim key (first ∪ second) := by
  apply Standing.ext
  · exact Set.union_assoc _ _ _
  · simp only [claim, image_split, Set.union_assoc]
  · ext k
    simp only [claim, image_split, Set.mem_union, Set.mem_sdiff]
    tauto

end Standing

structure Visit where
  profile : UserProfile
  readings : Readings

structure Claim where
  visit : Visit
  lootIndexes : List Int

def Visit.claim (v : Visit) (lootIndexes : List Int) : Claim := ⟨v, lootIndexes⟩

namespace Claim

variable (mailID : Int) (s : PlayerServer) (c : Claim)

def apply : PlayerServer :=
  (claimGlobalMail s c.visit.readings c.visit.profile mailID c.lootIndexes).1

def found : Option GlobalMail :=
  visibleMail (s.refreshIfStale c.visit.readings.refreshedAt c.visit.readings.token).snapshot c.visit.profile
    c.visit.readings.checkedAt mailID

def read : UserGlobalMailState :=
  readState s.states c.visit.profile mailID c.visit.readings.appliedAt

def calls : List RewardGrant :=
  match c.found mailID s with
  | none => []
  | some mail =>
    claimCalls c.visit.profile mail mailID c.visit.readings.appliedAt (c.read mailID s) c.lootIndexes

def Valid (roleID : Int) : Prop :=
  c.visit.profile.roleID = roleID ∧ ∃ mail, c.found mailID s = some mail ∧
    ∀ index ∈ c.lootIndexes, ∃ loot, lootAtIndex mail.loots index = .ok loot

end Claim

def claimAll (mailID : Int) (s : PlayerServer) (claims : List Claim) : PlayerServer :=
  claims.foldl (fun s c => c.apply mailID s) s

def AllValid (roleID mailID : Int) : PlayerServer → List Claim → Prop
  | _, [] => True
  | s, c :: claims => c.Valid mailID s roleID ∧ AllValid roleID mailID (c.apply mailID s) claims

def storedState (s : PlayerServer) (roleID mailID : Int) : Option UserGlobalMailState :=
  s.states.find? (roleID, mailID)

def claimedIndexes (s : PlayerServer) (roleID mailID : Int) : List Int :=
  ((storedState s roleID mailID).map (·.claimedLootIndexes)).getD []

def Live (s : PlayerServer) (roleID mailID : Int) : Prop :=
  ∀ state, storedState s roleID mailID = some state → state.status ≠ .deleted

def ledgerKeys (t : Rewards) : Set String := {k | (t.ledger.find? k).isSome}

def backpackKeys (t : Rewards) : Set String := {k | (t.backpack.find? k).isSome}

def standing (s : PlayerServer) (roleID mailID : Int) : Standing Int String :=
  ⟨{i | i ∈ claimedIndexes s roleID mailID}, ledgerKeys s.rewards, backpackKeys s.rewards⟩

section Grants

variable (r : Readings)

theorem granted_ledgerKeys (t : Rewards) (grant : RewardGrant) :
    ledgerKeys (granted r t grant) = insert grant.grantKey (ledgerKeys t) := by
  ext k
  simp only [ledgerKeys, granted, grantGlobalMailReward, Rewards.reserve_added, Set.mem_ofPred_eq, Set.mem_insert_iff]
  by_cases hk : k = grant.grantKey
  · subst hk
    split_ifs <;> simp [GrantPC.pendingGrant]
  · have hne : grant.grantKey ≠ k := Ne.symm hk
    split_ifs <;> simp [GrantPC.pendingGrant, hk, hne]

theorem granted_backpackKeys (t : Rewards) (grant : RewardGrant) :
    backpackKeys (granted r t grant) = backpackKeys t ∪ {grant.grantKey} \ ledgerKeys t := by
  ext k
  simp only [backpackKeys, ledgerKeys, granted, grantGlobalMailReward, Rewards.reserve_added, Set.mem_ofPred_eq,
    Set.mem_union, Set.mem_sdiff, Set.mem_singleton_iff]
  cases hold : t.ledger.find? grant.grantKey with
  | none =>
    by_cases hk : k = grant.grantKey
    · subst hk
      simp [GrantPC.pendingGrant, GrantPC.backpackGrant, hold]
    · have hne : grant.grantKey ≠ k := Ne.symm hk
      simp [GrantPC.pendingGrant, GrantPC.backpackGrant, hold, hk, hne]
  | some row =>
    simp only [GrantPC.pendingGrant, hold]
    by_cases hk : k = grant.grantKey
    · subst hk
      simp [hold]
    · simp [hk]

theorem foldl_granted (t : Rewards) (grants : List RewardGrant) :
    ledgerKeys (grants.foldl (granted r) t) = ledgerKeys t ∪ {k | k ∈ grants.map (·.grantKey)} ∧
      backpackKeys (grants.foldl (granted r) t) =
        backpackKeys t ∪ {k | k ∈ grants.map (·.grantKey)} \ ledgerKeys t := by
  induction grants generalizing t with
  | nil => simp
  | cons grant grants ih =>
    obtain ⟨hledger, hbackpack⟩ := ih (granted r t grant)
    rw [List.foldl_cons, hledger, hbackpack, granted_ledgerKeys, granted_backpackKeys]
    constructor
    · ext k
      simp only [Set.mem_union, Set.mem_insert_iff, Set.mem_ofPred_eq, List.map_cons, List.mem_cons]
      tauto
    · ext k
      simp only [Set.mem_union, Set.mem_sdiff, Set.mem_insert_iff, Set.mem_singleton_iff, Set.mem_ofPred_eq,
        List.map_cons, List.mem_cons]
      tauto

end Grants

section OneClaim

variable {roleID mailID : Int} {s : PlayerServer} {c : Claim}

theorem read_eq (hrole : c.visit.profile.roleID = roleID) :
    (c.read mailID s).claimedLootIndexes = claimedIndexes s roleID mailID ∧
      (c.read mailID s).claimTime = (storedState s roleID mailID).bind (·.claimTime) ∧
      (c.read mailID s).key = (roleID, mailID) ∧ (Live s roleID mailID → (c.read mailID s).status ≠ .deleted) := by
  subst hrole
  unfold Claim.read readState claimedIndexes Live storedState
  cases hfind : s.states.find? (c.visit.profile.roleID, mailID) with
  | none => exact ⟨rfl, rfl, rfl, fun _ h => by cases h⟩
  | some state => exact ⟨rfl, rfl, (Table.find?_eq_some.mp hfind).2, fun h => h state rfl⟩

theorem grantRewards_ok {profile : UserProfile} {mail : GlobalMail} {r : Readings} {indexes : List Int}
    (h : ∀ index ∈ indexes, ∃ loot, lootAtIndex mail.loots index = .ok loot) (t : Rewards) :
    ∃ t', grantRewards profile mail mailID r t indexes = (t', .ok ()) := by
  induction indexes generalizing t with
  | nil => exact ⟨t, rfl⟩
  | cons index rest ih =>
    obtain ⟨loot, hloot⟩ := h index List.mem_cons_self
    simp only [grantRewards, hloot]
    exact ih (fun i hi => h i (List.mem_cons_of_mem _ hi)) _

theorem applyOp_ok {profile : UserProfile} {mail : GlobalMail} {r : Readings} {state : UserGlobalMailState}
    {lootIndexes : List Int} (hlive : state.status ≠ .deleted)
    (h : ∀ index ∈ newLootIndexes state.claimedLootIndexes lootIndexes,
      ∃ loot, lootAtIndex mail.loots index = .ok loot) (t : Rewards) :
    applyOp profile mail mailID r t state (.claim lootIndexes) =
      ((claimCalls profile mail mailID r.appliedAt state lootIndexes).foldl (granted r) t,
        .ok (claimed r.appliedAt lootIndexes state)) := by
  obtain ⟨t', hgrants⟩ := @grantRewards_ok mailID profile mail r _ h t
  rw [← applyOp_calls]
  simp only [applyOp, if_neg hlive, hgrants]

theorem claim_effect {mail : GlobalMail} (hfound : c.found mailID s = some mail)
    (hlive : (c.read mailID s).status ≠ .deleted)
    (h : ∀ index ∈ newLootIndexes (c.read mailID s).claimedLootIndexes c.lootIndexes,
      ∃ loot, lootAtIndex mail.loots index = .ok loot) :
    (c.apply mailID s).rewards = (c.calls mailID s).foldl (granted c.visit.readings) s.rewards ∧
      (c.apply mailID s).states = s.states.saveUserState (stamped c.visit.readings.appliedAt
        (claimed c.visit.readings.appliedAt c.lootIndexes (c.read mailID s))) := by
  have hop := @applyOp_ok mailID c.visit.profile mail c.visit.readings _ c.lootIndexes hlive h s.rewards
  have hupdate : updateVisible s.states s.rewards c.visit.readings c.visit.profile mail mailID
      (.claim c.lootIndexes) = (s.states.saveUserState (stamped c.visit.readings.appliedAt
        (claimed c.visit.readings.appliedAt c.lootIndexes (c.read mailID s))),
        (c.calls mailID s).foldl (granted c.visit.readings) s.rewards,
        .ok (stamped c.visit.readings.appliedAt
          (claimed c.visit.readings.appliedAt c.lootIndexes (c.read mailID s)))) := by
    unfold updateVisible
    rw [show readState s.states c.visit.profile mailID c.visit.readings.appliedAt = c.read mailID s from rfl, hop,
      Claim.calls, hfound]
  unfold Claim.found at hfound
  simp only [Claim.apply, claimGlobalMail, updateGlobalMailState, hfound]
  exact ⟨congrArg (fun u => u.2.1) hupdate, congrArg (fun u => u.1) hupdate⟩

theorem savedRow_claim {state : UserGlobalMailState} (now : Time) (lootIndexes : List Int)
    {row : Option UserGlobalMailState} (hrow : ∀ r, row = some r → r.status ≠ .deleted) :
    let saved := StateTable.savedRow (stamped now (claimed now lootIndexes state)) row
    saved.status = .claimed ∧ saved.claimedLootIndexes = mergeLootIndexes state.claimedLootIndexes lootIndexes ∧
      saved.claimTime = some (state.claimTime.getD now) := by
  cases row with
  | none => exact ⟨rfl, rfl, rfl⟩
  | some r =>
    have hlive := hrow r rfl
    simp [StateTable.savedRow, StateTable.updatedRow, StateTable.preserveDeleted, hlive, stamped, claimed]

theorem storedState_claim {mail : GlobalMail} (hrole : c.visit.profile.roleID = roleID)
    (hfound : c.found mailID s = some mail) (hlive : Live s roleID mailID)
    (h : ∀ index ∈ newLootIndexes (claimedIndexes s roleID mailID) c.lootIndexes,
      ∃ loot, lootAtIndex mail.loots index = .ok loot) :
    ∃ row, storedState (c.apply mailID s) roleID mailID = some row ∧ row.status = .claimed ∧
      row.claimedLootIndexes = mergeLootIndexes (claimedIndexes s roleID mailID) c.lootIndexes ∧
      row.claimTime = some (((storedState s roleID mailID).bind (·.claimTime)).getD c.visit.readings.appliedAt) := by
  obtain ⟨hindexes, htime, hkey, hstatus⟩ := @read_eq roleID mailID s c hrole
  rw [← hindexes] at h
  obtain ⟨_, hstates⟩ := claim_effect hfound (hstatus hlive) h
  refine ⟨StateTable.savedRow (stamped c.visit.readings.appliedAt
    (claimed c.visit.readings.appliedAt c.lootIndexes (c.read mailID s))) (storedState s roleID mailID), ?_, ?_⟩
  · rw [storedState, hstates, StateTable.find?_saveUserState]
    exact if_pos hkey.symm
  · rw [← hindexes, ← htime]
    exact savedRow_claim _ _ hlive

theorem grantCalls_key {profile : UserProfile} {mail : GlobalMail} {now : Time} {indexes : List Int}
    {grant : RewardGrant} (h : grant ∈ grantCalls profile mail mailID now indexes) :
    grant.grantKey = grantKey profile.roleID mailID grant.lootIndex := by
  induction indexes with
  | nil => cases h
  | cons index rest ih =>
    simp only [grantCalls] at h
    split at h
    · cases h
    · rcases List.mem_cons.mp h with rfl | h
      · rfl
      · exact ih h

theorem calls_keys {mail : GlobalMail} (hrole : c.visit.profile.roleID = roleID)
    (hfound : c.found mailID s = some mail) (hlive : Live s roleID mailID)
    (h : ∀ index ∈ newLootIndexes (claimedIndexes s roleID mailID) c.lootIndexes,
      ∃ loot, lootAtIndex mail.loots index = .ok loot) :
    {k | k ∈ (c.calls mailID s).map (·.grantKey)} =
      grantKey roleID mailID '' ({i | i ∈ c.lootIndexes} \ {i | i ∈ claimedIndexes s roleID mailID}) := by
  obtain ⟨hindexes, _, _, hstatus⟩ := @read_eq roleID mailID s c hrole
  have hcalls : c.calls mailID s = grantCalls c.visit.profile mail mailID c.visit.readings.appliedAt
      (newLootIndexes (claimedIndexes s roleID mailID) c.lootIndexes) := by
    rw [Claim.calls, hfound]
    simp only [claimCalls, if_neg (hstatus hlive), hindexes]
  have hasked : (c.calls mailID s).map (·.lootIndex) =
      newLootIndexes (claimedIndexes s roleID mailID) c.lootIndexes := by
    obtain ⟨t', hgrants⟩ := @grantRewards_ok mailID c.visit.profile mail c.visit.readings _ h s.rewards
    rw [hcalls]
    exact grantCalls_indexes hgrants
  have hkey : ∀ grant ∈ c.calls mailID s, grantKey roleID mailID grant.lootIndex = grant.grantKey := by
    rw [hcalls, ← hrole]
    exact fun grant hgrant => (grantCalls_key hgrant).symm
  ext k
  simp only [Set.mem_ofPred_eq, Set.mem_image, Set.mem_sdiff, ← mem_newLootIndexes, ← hasked, List.mem_map]
  constructor
  · rintro ⟨grant, hgrant, rfl⟩
    exact ⟨_, ⟨grant, hgrant, rfl⟩, hkey grant hgrant⟩
  · rintro ⟨_, ⟨grant, hgrant, rfl⟩, rfl⟩
    exact ⟨grant, hgrant, (hkey grant hgrant).symm⟩

theorem standing_apply (hvalid : c.Valid mailID s roleID) (hlive : Live s roleID mailID) :
    standing (c.apply mailID s) roleID mailID =
      (standing s roleID mailID).claim (grantKey roleID mailID) {i | i ∈ c.lootIndexes} := by
  obtain ⟨hrole, mail, hfound, hloots⟩ := hvalid
  have hnew : ∀ index ∈ newLootIndexes (claimedIndexes s roleID mailID) c.lootIndexes,
      ∃ loot, lootAtIndex mail.loots index = .ok loot :=
    fun index hi => hloots index (mem_newLootIndexes.mp hi).1
  obtain ⟨hindexes, _, _, hstatus⟩ := @read_eq roleID mailID s c hrole
  obtain ⟨hrewards, _⟩ := claim_effect hfound (hstatus hlive) (hindexes.symm ▸ hnew)
  obtain ⟨hledger, hbackpack⟩ := foldl_granted c.visit.readings s.rewards (c.calls mailID s)
  rw [calls_keys hrole hfound hlive hnew] at hledger hbackpack
  obtain ⟨row, hrow, _, hclaimed, _⟩ := storedState_claim hrole hfound hlive hnew
  apply Standing.ext
  · ext i
    simp only [standing, Standing.claim, claimedIndexes, hrow, Option.map_some, Option.getD_some, hclaimed,
      Set.mem_ofPred_eq, Set.mem_union]
    exact mem_mergeLootIndexes
  · rw [standing, hrewards]
    exact hledger
  · rw [standing, hrewards]
    exact hbackpack

theorem claim_notFound (hfound : c.found mailID s = none) :
    (c.apply mailID s).rewards = s.rewards ∧ (c.apply mailID s).states = s.states := by
  unfold Claim.found at hfound
  simp only [Claim.apply, claimGlobalMail, updateGlobalMailState, hfound]
  exact ⟨rfl, rfl⟩

structure Recorded (s : PlayerServer) (roleID mailID : Int) (row : UserGlobalMailState) : Prop where
  stored : storedState s roleID mailID = some row
  status : row.status = .claimed
  sorted : row.claimedLootIndexes.SortedLT
  timed : row.claimTime.isSome

theorem Recorded.live {row : UserGlobalMailState} (h : Recorded s roleID mailID row) : Live s roleID mailID := by
  intro state hstate
  rw [h.stored] at hstate
  rw [← Option.some.inj hstate, h.status]
  exact fun he => by cases he

theorem recorded_apply (hvalid : c.Valid mailID s roleID) (hlive : Live s roleID mailID) :
    ∃ row, Recorded (c.apply mailID s) roleID mailID row := by
  obtain ⟨hrole, mail, hfound, hloots⟩ := hvalid
  obtain ⟨row, hrow, hstatus, hclaimed, htime⟩ := storedState_claim hrole hfound hlive
    fun index hi => hloots index (mem_newLootIndexes.mp hi).1
  refine ⟨row, hrow, hstatus, ?_, ?_⟩
  · rw [hclaimed]
    exact mergeLootIndexes_sortedLT _ _
  · rw [htime]
    rfl

theorem claim_again {row : UserGlobalMailState} (hrole : c.visit.profile.roleID = roleID)
    (hrow : Recorded s roleID mailID row) (hold : ∀ i ∈ c.lootIndexes, i ∈ row.claimedLootIndexes) :
    c.calls mailID s = [] ∧ (c.apply mailID s).rewards = s.rewards ∧
      ∃ row', storedState (c.apply mailID s) roleID mailID = some row' ∧
        row'.claimedLootIndexes = row.claimedLootIndexes ∧ row'.claimTime = row.claimTime := by
  have hindexes : claimedIndexes s roleID mailID = row.claimedLootIndexes := by
    rw [claimedIndexes, hrow.stored]
    rfl
  have hnone : newLootIndexes (claimedIndexes s roleID mailID) c.lootIndexes = [] := by
    rw [hindexes]
    apply List.eq_nil_iff_forall_not_mem.mpr
    intro i hi
    obtain ⟨hmem, hnew⟩ := mem_newLootIndexes.mp hi
    exact hnew (hold i hmem)
  have hmerge : mergeLootIndexes row.claimedLootIndexes c.lootIndexes = row.claimedLootIndexes := by
    apply (mergeLootIndexes_sortedLT _ _).eq_of_mem_iff hrow.sorted
    intro i
    rw [mem_mergeLootIndexes]
    exact ⟨fun h => h.elim id (hold i), Or.inl⟩
  obtain ⟨hread, _, _, hstatus⟩ := @read_eq roleID mailID s c hrole
  cases hfound : c.found mailID s with
  | none =>
    obtain ⟨hrewards, hstates⟩ := claim_notFound hfound
    refine ⟨by rw [Claim.calls, hfound], hrewards, row, ?_, rfl, rfl⟩
    rw [storedState, hstates]
    exact hrow.stored
  | some mail =>
    have hloots : ∀ index ∈ newLootIndexes (claimedIndexes s roleID mailID) c.lootIndexes,
        ∃ loot, lootAtIndex mail.loots index = .ok loot := by
      rw [hnone]
      exact fun _ hi => absurd hi List.not_mem_nil
    have hcalls : c.calls mailID s = [] := by
      rw [Claim.calls, hfound]
      simp only [claimCalls, if_neg (hstatus hrow.live), hread, hnone, grantCalls]
    obtain ⟨hrewards, _⟩ := claim_effect hfound (hstatus hrow.live) (hread.symm ▸ hloots)
    obtain ⟨row', hrow', _, hclaimed, htime⟩ := storedState_claim hrole hfound hrow.live hloots
    refine ⟨hcalls, by rw [hrewards, hcalls]; rfl, row', hrow', ?_, ?_⟩
    · rw [hclaimed, hindexes, hmerge]
    · obtain ⟨t, ht⟩ := Option.isSome_iff_exists.mp hrow.timed
      rw [htime, hrow.stored]
      simp [ht]

end OneClaim

theorem claimAll_standing {roleID mailID : Int} {s : PlayerServer} {claims : List Claim}
    (hvalid : AllValid roleID mailID s claims) (hlive : Live s roleID mailID) :
    standing (claimAll mailID s claims) roleID mailID =
      (standing s roleID mailID).claim (grantKey roleID mailID) {i | ∃ c ∈ claims, i ∈ c.lootIndexes} := by
  induction claims generalizing s with
  | nil => simp [claimAll, Standing.claim_empty]
  | cons c claims ih =>
    obtain ⟨row, hrow⟩ := recorded_apply hvalid.1 hlive
    rw [claimAll, List.foldl_cons]
    refine (ih hvalid.2 hrow.live).trans ?_
    rw [standing_apply hvalid.1 hlive, Standing.claim_claim]
    congr 1
    ext i
    simp

theorem claimAll_recorded {roleID mailID : Int} {s : PlayerServer} {claims : List Claim} (hne : claims ≠ [])
    (hvalid : AllValid roleID mailID s claims) (hlive : Live s roleID mailID) :
    ∃ row, Recorded (claimAll mailID s claims) roleID mailID row := by
  induction claims generalizing s with
  | nil => exact absurd rfl hne
  | cons c claims ih =>
    obtain ⟨row, hrow⟩ := recorded_apply hvalid.1 hlive
    cases claims with
    | nil => exact ⟨row, hrow⟩
    | cons next claims => exact ih (List.cons_ne_nil _ _) hvalid.2 hrow.live

theorem claimAll_ends {roleID mailID : Int} {s : PlayerServer} (hlive : Live s roleID mailID) {claims : List Claim}
    (hne : claims ≠ []) (hvalid : AllValid roleID mailID s claims) {indexes : List Int}
    (hindexes : ∀ i, (∃ c ∈ claims, i ∈ c.lootIndexes) ↔ i ∈ indexes) :
    standing (claimAll mailID s claims) roleID mailID =
        (standing s roleID mailID).claim (grantKey roleID mailID) {i | i ∈ indexes} ∧
      ∃ row, Recorded (claimAll mailID s claims) roleID mailID row ∧
        row.claimedLootIndexes = mergeLootIndexes (claimedIndexes s roleID mailID) indexes := by
  have hstanding : standing (claimAll mailID s claims) roleID mailID =
      (standing s roleID mailID).claim (grantKey roleID mailID) {i | i ∈ indexes} := by
    rw [claimAll_standing hvalid hlive, Set.ext hindexes]
    rfl
  obtain ⟨row, hrow⟩ := claimAll_recorded hne hvalid hlive
  refine ⟨hstanding, row, hrow, ?_⟩
  apply hrow.sorted.eq_of_mem_iff (mergeLootIndexes_sortedLT _ _)
  intro i
  have hclaimed := Set.ext_iff.mp (congrArg Standing.claimed hstanding) i
  simp only [standing, Standing.claim, claimedIndexes, hrow.stored, Option.map_some, Option.getD_some,
    Set.mem_ofPred_eq, Set.mem_union] at hclaimed
  rw [mem_mergeLootIndexes]
  exact hclaimed

theorem claims_commute (roleID mailID : Int) (s : PlayerServer) (hlive : Live s roleID mailID) (as bs : List Int)
    (v₁ v₂ v₃ v₄ v₅ : Visit) (hab : AllValid roleID mailID s [v₁.claim as, v₂.claim bs])
    (hba : AllValid roleID mailID s [v₃.claim bs, v₄.claim as])
    (hone : AllValid roleID mailID s [v₅.claim (as ++ bs)]) :
    ∃ (indexes : List Int) (ledger backpack : Set String), indexes.Pairwise (· < ·) ∧
      (∀ i, i ∈ indexes ↔ i ∈ claimedIndexes s roleID mailID ∨ i ∈ as ∨ i ∈ bs) ∧
      ∀ e ∈ [claimAll mailID s [v₁.claim as, v₂.claim bs], claimAll mailID s [v₃.claim bs, v₄.claim as],
          claimAll mailID s [v₅.claim (as ++ bs)]],
        ledgerKeys e.rewards = ledger ∧ backpackKeys e.rewards = backpack ∧
          ∃ row, storedState e roleID mailID = some row ∧ row.status = .claimed ∧ row.claimedLootIndexes = indexes ∧
            ∀ v : Visit, v.profile.roleID = roleID → ∀ again ∈ [as, bs, as ++ bs],
              (v.claim again).calls mailID e = [] ∧ ((v.claim again).apply mailID e).rewards = e.rewards ∧
                ∃ row', storedState ((v.claim again).apply mailID e) roleID mailID = some row' ∧
                  row'.claimedLootIndexes = indexes ∧ row'.claimTime = row.claimTime := by
  let final := (standing s roleID mailID).claim (grantKey roleID mailID) {i | i ∈ as ++ bs}
  refine ⟨mergeLootIndexes (claimedIndexes s roleID mailID) (as ++ bs), final.ledger, final.backpack,
    (mergeLootIndexes_sortedLT _ _).pairwise, fun i => by rw [mem_mergeLootIndexes, List.mem_append],
    fun e he => ?_⟩
  have hends : standing e roleID mailID = final ∧
      ∃ row, Recorded e roleID mailID row ∧
        row.claimedLootIndexes = mergeLootIndexes (claimedIndexes s roleID mailID) (as ++ bs) := by
    simp only [List.mem_cons, List.not_mem_nil, or_false] at he
    rcases he with rfl | rfl | rfl
    · exact claimAll_ends hlive (List.cons_ne_nil _ _) hab fun i => by simp [Visit.claim]
    · exact claimAll_ends hlive (List.cons_ne_nil _ _) hba fun i => by simp [Visit.claim, or_comm]
    · exact claimAll_ends hlive (List.cons_ne_nil _ _) hone fun i => by simp [Visit.claim]
  obtain ⟨hstanding, row, hrow, hclaimed⟩ := hends
  refine ⟨congrArg Standing.ledger hstanding, congrArg Standing.backpack hstanding, row, hrow.stored, hrow.status,
    hclaimed, fun v hv again hagain => ?_⟩
  have hold : ∀ i ∈ (v.claim again).lootIndexes, i ∈ row.claimedLootIndexes := by
    intro i hi
    rw [hclaimed, mem_mergeLootIndexes, List.mem_append]
    simp only [List.mem_cons, List.not_mem_nil, or_false] at hagain
    rcases hagain with rfl | rfl | rfl
    · exact Or.inr (Or.inl hi)
    · exact Or.inr (Or.inr hi)
    · exact Or.inr (List.mem_append.mp hi)
  obtain ⟨hcalls, hrewards, row', hrow', hindexes, htime⟩ := claim_again hv hrow hold
  exact ⟨hcalls, hrewards, row', hrow', hindexes.trans hclaimed, htime⟩

section TwoLoots

def twoLootMail : GlobalMail :=
  { (default : GlobalMail) with
    id := 20, loots := .value (.arr [.int 7, .int 8]), startTime := 0, expireTime := 90 * minute
    status := .published }

def twoLootServer : PlayerServer :=
  ⟨.empty, .empty, .build 1 [twoLootMail] 0, .empty, .empty, 1, [twoLootMail], 0, rfl⟩

def visitAt (now : Time) : Visit := ⟨default, now, 9, now, now, fun _ => now, fun _ => now⟩

theorem twoLoots_valid {index : Int} (h : index ∈ ([0, 1] : List Int)) :
    ∃ loot, lootAtIndex twoLootMail.loots index = .ok loot := by
  simp only [List.mem_cons, List.not_mem_nil, or_false] at h
  rcases h with rfl | rfl <;> exact ⟨_, rfl⟩

theorem twoLoots_commute :
    ∃ indexes : List Int, (∀ i, i ∈ indexes ↔ i ∈ ([] : List Int) ∨ i ∈ ([1] : List Int) ∨ i ∈ ([0, 1] : List Int)) ∧
      ∀ e ∈ [claimAll 20 twoLootServer [(visitAt 1).claim [1], (visitAt 2).claim [0, 1]],
          claimAll 20 twoLootServer [(visitAt 3).claim [0, 1], (visitAt 4).claim [1]],
          claimAll 20 twoLootServer [(visitAt 5).claim ([1] ++ [0, 1])]],
        ∃ row, storedState e 0 20 = some row ∧ row.claimedLootIndexes = indexes := by
  have hlive : Live twoLootServer 0 20 := fun state h => by cases h
  have valid {indexes : List Int} (h : ∀ i ∈ indexes, i ∈ ([0, 1] : List Int)) :
      ∀ index ∈ indexes, ∃ loot, lootAtIndex twoLootMail.loots index = .ok loot :=
    fun i hi => twoLoots_valid (h i hi)
  have hab : AllValid 0 20 twoLootServer [(visitAt 1).claim [1], (visitAt 2).claim [0, 1]] :=
    ⟨⟨rfl, twoLootMail, rfl, valid (by decide)⟩, ⟨rfl, twoLootMail, rfl, valid (by decide)⟩, trivial⟩
  have hba : AllValid 0 20 twoLootServer [(visitAt 3).claim [0, 1], (visitAt 4).claim [1]] :=
    ⟨⟨rfl, twoLootMail, rfl, valid (by decide)⟩, ⟨rfl, twoLootMail, rfl, valid (by decide)⟩, trivial⟩
  have hone : AllValid 0 20 twoLootServer [(visitAt 5).claim ([1] ++ [0, 1])] :=
    ⟨⟨rfl, twoLootMail, rfl, valid (by decide)⟩, trivial⟩
  obtain ⟨indexes, _, _, _, hmem, hends⟩ := claims_commute 0 20 twoLootServer hlive [1] [0, 1] (visitAt 1)
    (visitAt 2) (visitAt 3) (visitAt 4) (visitAt 5) hab hba hone
  refine ⟨indexes, hmem, fun e he => ?_⟩
  obtain ⟨_, _, row, hrow, _, hclaimed, _⟩ := hends e he
  exact ⟨row, hrow, hclaimed⟩

end TwoLoots

end GlobalMailSystem.PlayerMail
