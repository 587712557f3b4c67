import GlobalMailSystem.PlayerService

namespace GlobalMailSystem.PlayerMail

theorem nodup_keepNew (seen indexes : List Int) : (keepNew seen indexes).Nodup := by
  induction indexes generalizing seen with
  | nil => exact List.nodup_nil
  | cons i rest ih =>
    simp only [keepNew]
    split_ifs with hseen
    · exact ih seen
    · refine List.nodup_cons.mpr ⟨fun hi => ?_, ih (i :: seen)⟩
      exact (mem_keepNew.mp hi).2 List.mem_cons_self

theorem sortInts_sortedLT {indexes : List Int} (h : indexes.Nodup) : (sortInts indexes).SortedLT := by
  have hle : (sortInts indexes).SortedLE := List.sortedLE_insertionSort
  exact hle.sortedLT_of_nodup ((List.perm_insertionSort _ indexes).nodup_iff.mpr h)

theorem newLootIndexes_sortedLT (existing next : List Int) : (newLootIndexes existing next).SortedLT :=
  sortInts_sortedLT (nodup_keepNew existing next)

theorem mergeLootIndexes_sortedLT (existing next : List Int) : (mergeLootIndexes existing next).SortedLT :=
  sortInts_sortedLT (nodup_keepNew [] (existing ++ next))

theorem mergeLootIndexes_congr {existing next existing' next' : List Int}
    (h : ∀ i, i ∈ existing ∨ i ∈ next ↔ i ∈ existing' ∨ i ∈ next') :
    mergeLootIndexes existing next = mergeLootIndexes existing' next' := by
  apply (mergeLootIndexes_sortedLT existing next).eq_of_mem_iff (mergeLootIndexes_sortedLT existing' next')
  intro i
  rw [mem_mergeLootIndexes, mem_mergeLootIndexes, h]

theorem mergeLootIndexes_newLootIndexes (existing next : List Int) :
    mergeLootIndexes existing (newLootIndexes existing next) = mergeLootIndexes existing next := by
  apply mergeLootIndexes_congr
  intro i
  rw [mem_newLootIndexes]
  constructor
  · rintro (hold | ⟨hnew, _⟩)
    · exact Or.inl hold
    · exact Or.inr hnew
  · rintro (hold | hnew)
    · exact Or.inl hold
    · by_cases hold : i ∈ existing
      · exact Or.inl hold
      · exact Or.inr ⟨hnew, hold⟩

section Calls

variable (profile : UserProfile) (mail : GlobalMail) (mailID : Int)

def grantCalls (now : Time) : List Int → List RewardGrant
  | [] => []
  | index :: rest =>
    match lootAtIndex mail.loots index with
    | .error _ => []
    | .ok loot => rewardGrant profile mailID index loot now :: grantCalls now rest

def claimCalls (now : Time) (state : UserGlobalMailState) (lootIndexes : List Int) : List RewardGrant :=
  if state.status = .deleted then []
  else grantCalls profile mail mailID now (newLootIndexes state.claimedLootIndexes lootIndexes)

def granted (r : Readings) (t : Rewards) (grant : RewardGrant) : Rewards :=
  (grantGlobalMailReward t grant (r.grantedAt grant.lootIndex) (r.storedAt grant.lootIndex)).1

variable {profile mail mailID} {r : Readings}

theorem grantRewards_calls (t : Rewards) (indexes : List Int) :
    (grantRewards profile mail mailID r t indexes).1 =
      (grantCalls profile mail mailID r.appliedAt indexes).foldl (granted r) t := by
  induction indexes generalizing t with
  | nil => rfl
  | cons index rest ih =>
    simp only [grantRewards, grantCalls]
    cases lootAtIndex mail.loots index with
    | error err => rfl
    | ok loot => exact ih _

theorem applyOp_calls (t : Rewards) (state : UserGlobalMailState) (lootIndexes : List Int) :
    (applyOp profile mail mailID r t state (.claim lootIndexes)).1 =
      (claimCalls profile mail mailID r.appliedAt state lootIndexes).foldl (granted r) t := by
  simp only [applyOp, claimCalls]
  split_ifs
  · rfl
  · rw [← grantRewards_calls]
    split
    · rename_i hgrants
      rw [hgrants]
    · rename_i hgrants
      rw [hgrants]

theorem grantCalls_indexes {t t' : Rewards} {indexes : List Int}
    (h : grantRewards profile mail mailID r t indexes = (t', .ok ())) :
    (grantCalls profile mail mailID r.appliedAt indexes).map (·.lootIndex) = indexes := by
  induction indexes generalizing t with
  | nil => rfl
  | cons index rest ih =>
    cases hloot : lootAtIndex mail.loots index with
    | error err => simp [grantRewards, hloot] at h
    | ok loot =>
      simp only [grantRewards, hloot] at h
      simp only [grantCalls, hloot, List.map_cons, ih h]
      rfl

theorem claimCalls_indexes {t t' : Rewards} {state next : UserGlobalMailState} {lootIndexes : List Int}
    (hlive : state.status ≠ .deleted)
    (h : applyOp profile mail mailID r t state (.claim lootIndexes) = (t', .ok next)) :
    (claimCalls profile mail mailID r.appliedAt state lootIndexes).map (·.lootIndex) =
        newLootIndexes state.claimedLootIndexes lootIndexes ∧
      next = claimed r.appliedAt lootIndexes state := by
  simp only [applyOp, if_neg hlive] at h
  split at h
  · cases h
  · rename_i t'' done hgrants
    cases h
    refine ⟨?_, rfl⟩
    rw [claimCalls, if_neg hlive]
    exact grantCalls_indexes hgrants

end Calls

theorem lootIndexes_partition (existing next : List Int) :
    (newLootIndexes existing next).Pairwise (· < ·) ∧
      (∀ i, i ∈ newLootIndexes existing next ↔ i ∈ next ∧ i ∉ existing) ∧
      (mergeLootIndexes existing next).Pairwise (· < ·) ∧
      (∀ i, i ∈ mergeLootIndexes existing next ↔ i ∈ existing ∨ i ∈ next) ∧
      mergeLootIndexes existing next = mergeLootIndexes existing (newLootIndexes existing next) ∧
      ∀ profile mail mailID r t state t' saved, state.claimedLootIndexes = existing → state.status ≠ .deleted →
        applyOp profile mail mailID r t state (.claim next) = (t', .ok saved) →
        ∀ i, i ∈ saved.claimedLootIndexes ↔ i ∈ existing ∨
          ∃ grant ∈ claimCalls profile mail mailID r.appliedAt state next, grant.lootIndex = i := by
  refine ⟨(newLootIndexes_sortedLT existing next).pairwise, fun _ => mem_newLootIndexes,
    (mergeLootIndexes_sortedLT existing next).pairwise, fun _ => mem_mergeLootIndexes,
    (mergeLootIndexes_newLootIndexes existing next).symm, ?_⟩
  intro profile mail mailID r t state t' saved hexisting hlive h i
  obtain ⟨hcalls, rfl⟩ := claimCalls_indexes hlive h
  rw [hexisting] at hcalls
  have hsaved : (claimed r.appliedAt next state).claimedLootIndexes =
      mergeLootIndexes existing (newLootIndexes existing next) := by
    rw [mergeLootIndexes_newLootIndexes, ← hexisting]
    rfl
  rw [hsaved, mem_mergeLootIndexes, ← hcalls, List.mem_map]

end GlobalMailSystem.PlayerMail
