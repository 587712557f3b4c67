import GlobalMailSystem.MailboxRefinement

namespace GlobalMailSystem.PlayerMail

structure Agree (roleID : Int) (t t' : Tables) : Prop where
  states : ∀ mailID, t.states.find? (roleID, mailID) = t'.states.find? (roleID, mailID)
  ledger : ∀ mailID index, t.rewards.ledger.find? (grantKey roleID mailID index) =
    t'.rewards.ledger.find? (grantKey roleID mailID index)
  backpack : ∀ mailID index, t.rewards.backpack.find? (grantKey roleID mailID index) =
    t'.rewards.backpack.find? (grantKey roleID mailID index)

section Keys

variable {r : Readings} {k : String}

def SameAt (k : String) (t t' : Rewards) : Prop :=
  t.ledger.find? k = t'.ledger.find? k ∧ t.backpack.find? k = t'.backpack.find? k

theorem grantBackpack_externalID (t : Rewards) (grant : BackpackGrant) :
    (t.grantBackpackReward grant).2.1 = Rewards.backpackExternalID grant.grantKey := rfl

theorem granted_other {t : Rewards} {grant : RewardGrant} (hk : grant.grantKey ≠ k) :
    SameAt k (granted r t grant) t := by
  have hne : k ≠ grant.grantKey := Ne.symm hk
  simp only [SameAt, granted, grantGlobalMailReward]
  split_ifs <;> simp [GrantPC.pendingGrant, GrantPC.backpackGrant, hk, hne]

theorem granted_sameAt {t t' : Rewards} (h : SameAt k t t') (grant : RewardGrant) :
    SameAt k (granted r t grant) (granted r t' grant) := by
  by_cases hk : grant.grantKey = k
  · obtain ⟨hledger, hbackpack⟩ := h
    subst hk
    simp only [SameAt, granted, grantGlobalMailReward, Rewards.reserve_added, GrantPC.pendingGrant, hledger]
    split_ifs <;> simp [GrantPC.backpackGrant, grantBackpack_externalID, hledger, hbackpack]
  · obtain ⟨hledger, hbackpack⟩ := @granted_other r k t grant hk
    obtain ⟨hledger', hbackpack'⟩ := @granted_other r k t' grant hk
    exact ⟨hledger.trans (h.1.trans hledger'.symm), hbackpack.trans (h.2.trans hbackpack'.symm)⟩

theorem grants_sameAt {t t' : Rewards} (h : SameAt k t t') (grants : List RewardGrant) :
    SameAt k (grants.foldl (granted r) t) (grants.foldl (granted r) t') := by
  induction grants generalizing t t' with
  | nil => exact h
  | cons grant rest ih => exact ih (granted_sameAt h grant)

theorem grants_other {t : Rewards} {grants : List RewardGrant} (h : ∀ grant ∈ grants, grant.grantKey ≠ k) :
    SameAt k (grants.foldl (granted r) t) t := by
  induction grants generalizing t with
  | nil => exact ⟨rfl, rfl⟩
  | cons grant rest ih =>
    obtain ⟨hledger, hbackpack⟩ := @ih (granted r t grant) fun g hg => h g (List.mem_cons_of_mem _ hg)
    obtain ⟨hledger', hbackpack'⟩ := @granted_other r k t grant (h grant List.mem_cons_self)
    exact ⟨hledger.trans hledger', hbackpack.trans hbackpack'⟩

theorem grantRewards_result_eq (profile : UserProfile) (mail : GlobalMail) (mailID : Int) (t t' : Rewards)
    (indexes : List Int) :
    (grantRewards profile mail mailID r t indexes).2 = (grantRewards profile mail mailID r t' indexes).2 := by
  induction indexes generalizing t t' with
  | nil => rfl
  | cons index rest ih =>
    simp only [grantRewards]
    cases lootAtIndex mail.loots index with
    | error err => rfl
    | ok loot => exact ih _ _

end Keys

section Operations

variable {e : Errand} {mail : GlobalMail} {t t' : Tables}

def Errand.grants (e : Errand) (mail : GlobalMail) (state : UserGlobalMailState) : List RewardGrant :=
  match e.op with
  | .claim lootIndexes =>
    claimCalls e.visit.profile mail e.mailID e.visit.readings.appliedAt state lootIndexes
  | _ => []

theorem applyOp_grants (t : Rewards) (state : UserGlobalMailState) :
    (applyOp e.visit.profile mail e.mailID e.visit.readings t state e.op).1 =
      (e.grants mail state).foldl (granted e.visit.readings) t := by
  unfold Errand.grants
  cases e.op with
  | markRead => rfl
  | delete => rfl
  | claim lootIndexes => exact applyOp_calls t state lootIndexes

theorem applyOp_claim_result (t : Rewards) {state : UserGlobalMailState} (h : state.status ≠ .deleted)
    (lootIndexes : List Int) :
    (applyOp e.visit.profile mail e.mailID e.visit.readings t state (.claim lootIndexes)).2 =
      (grantRewards e.visit.profile mail e.mailID e.visit.readings t
        (newLootIndexes state.claimedLootIndexes lootIndexes)).2.map
          fun _ => claimed e.visit.readings.appliedAt lootIndexes state := by
  simp only [applyOp, if_neg h]
  rcases grantRewards e.visit.profile mail e.mailID e.visit.readings t
    (newLootIndexes state.claimedLootIndexes lootIndexes) with ⟨u, _ | _⟩ <;> rfl

theorem applyOp_result_eq (t t' : Rewards) (state : UserGlobalMailState) :
    (applyOp e.visit.profile mail e.mailID e.visit.readings t state e.op).2 =
      (applyOp e.visit.profile mail e.mailID e.visit.readings t' state e.op).2 := by
  cases e.op with
  | markRead => rfl
  | delete => rfl
  | claim lootIndexes =>
    by_cases hdeleted : state.status = .deleted
    · simp only [applyOp, if_pos hdeleted]
    · rw [applyOp_claim_result t hdeleted, applyOp_claim_result t' hdeleted, grantRewards_result_eq _ _ _ t t']

theorem grants_key {state : UserGlobalMailState} {grant : RewardGrant} (h : grant ∈ e.grants mail state) :
    grant.grantKey = grantKey e.visit.profile.roleID e.mailID grant.lootIndex := by
  unfold Errand.grants at h
  cases hop : e.op with
  | markRead => simp [hop] at h
  | delete => simp [hop] at h
  | claim lootIndexes =>
    simp only [hop, claimCalls] at h
    split_ifs at h
    · cases h
    · exact grantCalls_key h

theorem applyOp_key (t : Rewards) {state next : UserGlobalMailState}
    (h : (applyOp e.visit.profile mail e.mailID e.visit.readings t state e.op).2 = .ok next) :
    next.key = state.key := by
  cases hop : e.op with
  | markRead =>
    simp only [hop, applyOp, Except.ok.injEq] at h
    rw [← h, markedRead]
    split_ifs <;> rfl
  | delete =>
    simp only [hop, applyOp, Except.ok.injEq] at h
    rw [← h]
    rfl
  | claim lootIndexes =>
    rw [hop] at h
    by_cases hdeleted : state.status = .deleted
    · simp only [applyOp, if_pos hdeleted, Except.ok.injEq] at h
      rw [h]
    · rw [applyOp_claim_result t hdeleted] at h
      cases hgrants : (grantRewards e.visit.profile mail e.mailID e.visit.readings t
          (newLootIndexes state.claimedLootIndexes lootIndexes)).2 with
      | error err => simp [hgrants, Except.map] at h
      | ok done =>
        simp only [hgrants, Except.map, Except.ok.injEq] at h
        rw [← h]
        rfl

theorem run_eq (hfound : e.found = some mail) (t : Tables) :
    ∃ result, (∀ u : Rewards,
        (applyOp e.visit.profile mail e.mailID e.visit.readings u (e.read t) e.op).2 = result) ∧
      e.run t =
        (⟨match result with
          | .error _ => t.states
          | .ok next => t.states.saveUserState (stamped e.visit.readings.appliedAt next),
          (e.grants mail (e.read t)).foldl (granted e.visit.readings) t.rewards⟩,
          result.map (stamped e.visit.readings.appliedAt)) := by
  refine ⟨_, fun u => applyOp_result_eq u t.rewards (e.read t), ?_⟩
  rw [run_found hfound, ← applyOp_grants]
  rcases applyOp e.visit.profile mail e.mailID e.visit.readings t.rewards (e.read t) e.op with ⟨u, _ | next⟩ <;> rfl

theorem run_own {roleID : Int} (h : Agree roleID t t') (hrole : e.visit.profile.roleID = roleID) :
    (e.run t).2 = (e.run t').2 ∧ Agree roleID (e.run t).1 (e.run t').1 := by
  subst hrole
  cases hfound : e.found with
  | none => exact ⟨by rw [run_notFound hfound, run_notFound hfound], by rwa [run_notFound hfound, run_notFound hfound]⟩
  | some mail =>
    have hread : e.read t' = e.read t := by
      simp only [Errand.read, readState, h.states]
    obtain ⟨result, hresult, hrun⟩ := run_eq hfound t
    obtain ⟨result', hresult', hrun'⟩ := run_eq hfound t'
    rw [hread] at hresult' hrun'
    obtain rfl : result = result' := (hresult t.rewards).symm.trans (hresult' t.rewards)
    rw [hrun, hrun']
    refine ⟨rfl, ?_, ?_, ?_⟩
    · intro mailID
      cases result with
      | error err => exact h.states mailID
      | ok next =>
        simp only [StateTable.find?_saveUserState, h.states]
    · exact fun mailID index => (grants_sameAt ⟨h.ledger mailID index, h.backpack mailID index⟩ _).1
    · exact fun mailID index => (grants_sameAt ⟨h.ledger mailID index, h.backpack mailID index⟩ _).2

theorem run_other {roleID : Int} (h : Agree roleID t t') (hrole : e.visit.profile.roleID ≠ roleID) :
    Agree roleID (e.run t).1 t' := by
  cases hfound : e.found with
  | none => rwa [run_notFound hfound]
  | some mail =>
    obtain ⟨result, hresult, hrun⟩ := run_eq hfound t
    rw [hrun]
    have hother (mailID index : Int) :
        SameAt (grantKey roleID mailID index)
          ((e.grants mail (e.read t)).foldl (granted e.visit.readings) t.rewards) t.rewards := by
      apply grants_other
      intro grant hgrant hkey
      rw [grants_key hgrant] at hkey
      exact hrole (DecimalKey.colonJoin_inj hkey).1
    refine ⟨?_, fun mailID index => (hother mailID index).1.trans (h.ledger mailID index),
      fun mailID index => (hother mailID index).2.trans (h.backpack mailID index)⟩
    intro mailID
    cases result with
    | error err => exact h.states mailID
    | ok next =>
      have hkey : (stamped e.visit.readings.appliedAt next).key = e.key :=
        (applyOp_key t.rewards (hresult t.rewards)).trans (read_refines t e).1
      have hne : (roleID, mailID) ≠ (stamped e.visit.readings.appliedAt next).key := by
        rw [hkey]
        exact fun hsame => hrole (congrArg Prod.fst hsame).symm
      simp only [StateTable.find?_saveUserState, if_neg hne]
      exact h.states mailID

end Operations

def Errand.by (roleID : Int) (e : Errand) : Bool := e.visit.profile.roleID = roleID

theorem runAll_isolated {roleID : Int} {t t' : Tables} (h : Agree roleID t t') (errands : List Errand) :
    Agree roleID (runAll t errands).1 (runAll t' (errands.filter (Errand.by roleID))).1 ∧
      ((errands.zip (runAll t errands).2).filter fun p => p.1.by roleID).map (·.2) =
        (runAll t' (errands.filter (Errand.by roleID))).2 := by
  induction errands generalizing t t' with
  | nil => exact ⟨h, rfl⟩
  | cons e rest ih =>
    by_cases hrole : e.visit.profile.roleID = roleID
    · have hby : e.by roleID = true := decide_eq_true hrole
      obtain ⟨hanswer, hagree⟩ := run_own h hrole
      obtain ⟨hend, hanswers⟩ := ih hagree
      simp only [runAll, List.zip_cons_cons, List.filter_cons, hby, if_true, List.map_cons, hanswer, hanswers]
      exact ⟨hend, trivial⟩
    · have hby : e.by roleID = false := decide_eq_false hrole
      obtain ⟨hend, hanswers⟩ := ih (run_other h hrole)
      simp only [runAll, List.zip_cons_cons, List.filter_cons, hby, Bool.false_eq_true, if_false, hanswers]
      exact ⟨hend, trivial⟩

theorem listing_agrees {roleID : Int} {t t' : Tables} (h : Agree roleID t t') (v : View) {visit : Visit}
    (hrole : visit.profile.roleID = roleID) :
    (listGlobalMails (v.server t) visit.readings visit.profile).2 =
      (listGlobalMails (v.server t') visit.readings visit.profile).2 := by
  have hitem : mailItem t.states visit.profile.roleID = mailItem t'.states visit.profile.roleID := by
    funext mail
    rw [mailItem, mailItem, hrole, h.states]
  change listedItems t.states _ _ _ = listedItems t'.states _ _ _
  rw [listedItems, hitem]
  rfl

theorem roles_isolated (errands : List Errand) (roleID : Int) :
    let all := runAll .empty errands
    let own := runAll .empty (errands.filter (Errand.by roleID))
    ((errands.zip all.2).filter fun p => p.1.by roleID).map (·.2) = own.2 ∧ Agree roleID all.1 own.1 ∧
      ∀ (v : View) (visit : Visit), visit.profile.roleID = roleID →
        (listGlobalMails (v.server all.1) visit.readings visit.profile).2 =
          (listGlobalMails (v.server own.1) visit.readings visit.profile).2 := by
  obtain ⟨hend, hanswers⟩ := @runAll_isolated roleID .empty .empty ⟨fun _ => rfl, fun _ _ => rfl, fun _ _ => rfl⟩ errands
  exact ⟨hanswers, hend, fun v visit hrole => listing_agrees hend v hrole⟩

end GlobalMailSystem.PlayerMail
