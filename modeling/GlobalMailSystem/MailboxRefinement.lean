import GlobalMailSystem.ClaimsCommute
import GlobalMailSystem.DeletedFinal
import GlobalMailSystem.Mailbox

namespace GlobalMailSystem.PlayerMail

open Mailbox

structure Tables where
  states : StateTable
  rewards : Rewards

def Tables.empty : Tables := ⟨.empty, .empty⟩

structure View where
  mails : Table GlobalMail.id
  cache : SharedCache
  snapshot : CacheSnapshot
  built : ∃ version mails now, snapshot = .build version mails now

def View.server (v : View) (t : Tables) : PlayerServer :=
  ⟨v.mails, v.cache, v.snapshot, t.states, t.rewards, v.built⟩

def View.refreshed (v : View) (r : Readings) : CacheSnapshot :=
  (LocalCache.refreshIfStale v.mails v.cache v.snapshot r.refreshedAt r.token).2

structure Errand where
  view : View
  visit : Visit
  mailID : Int
  op : Op

namespace Errand

def key (e : Errand) : Int × Int := (e.visit.profile.roleID, e.mailID)

def run (t : Tables) (e : Errand) : Tables × Except String UserGlobalMailState :=
  let updated := updateGlobalMailState (e.view.server t) e.visit.readings e.visit.profile e.mailID e.op
  (⟨updated.1.states, updated.1.rewards⟩, updated.2)

def found (e : Errand) : Option GlobalMail :=
  visibleMail (e.view.refreshed e.visit.readings) e.visit.profile e.visit.readings.checkedAt e.mailID

end Errand

def runAll (t : Tables) : List Errand → Tables × List (Except String UserGlobalMailState)
  | [] => (t, [])
  | e :: rest =>
    let done := e.run t
    let after := runAll done.1 rest
    (after.1, done.2 :: after.2)

section Abstraction

def markOf : UserMailStatus → Mark
  | .unset | .unread => .unread
  | .read => .read
  | .claimed => .claimed
  | .deleted => .deleted

def loots (mail : GlobalMail) (index : Int) : Option RawMessage := (lootAtIndex mail.loots index).toOption

def slot (t : Tables) (k : Int × Int) : Slot Int RawMessage where
  mark := ((t.states.find? k).map fun state => markOf state.status).getD .unread
  claimed := {i | i ∈ ((t.states.find? k).map (·.claimedLootIndexes)).getD []}
  items i := (t.rewards.backpack.find? (grantKey k.1 k.2 i)).map (·.loot)

def deed : Op → Deed Int
  | .markRead => .read
  | .claim lootIndexes => .claim {i | i ∈ lootIndexes}
  | .delete => .delete

def Errand.request (e : Errand) : Mailbox.Request (Int × Int) Int RawMessage :=
  ⟨e.key, e.found.map loots, deed e.op⟩

def replyOf : Except String UserGlobalMailState → Reply Int
  | .error _ => none
  | .ok state => some (markOf state.status, {i | i ∈ state.claimedLootIndexes})

def Even (t : Rewards) : Prop := ∀ k, (t.ledger.find? k).isSome = (t.backpack.find? k).isSome

end Abstraction

theorem markOf_eq_deleted {status : UserMailStatus} : markOf status = .deleted ↔ status = .deleted := by
  cases status <;> simp [markOf]

section Grants

variable {r : Readings} {t : Rewards} {grant : RewardGrant}

theorem granted_backpack (h : Even t) (k : String) :
    ((granted r t grant).backpack.find? k).map (·.loot) =
      if grant.grantKey = k then ((t.backpack.find? k).map (·.loot)).or (some grant.loot)
      else (t.backpack.find? k).map (·.loot) := by
  have hk := h grant.grantKey
  simp only [granted, grantGlobalMailReward, Rewards.reserve_added]
  cases hold : t.ledger.find? grant.grantKey with
  | none =>
    rw [hold, Option.isSome_none] at hk
    have hnone : t.backpack.find? grant.grantKey = none := by simpa using hk.symm
    by_cases hkey : grant.grantKey = k
    · subst hkey
      simp [GrantPC.pendingGrant, GrantPC.backpackGrant, hold, hnone]
    · simp [GrantPC.pendingGrant, GrantPC.backpackGrant, hold, hkey]
  | some row =>
    rw [hold, Option.isSome_some] at hk
    obtain ⟨item, hitem⟩ := Option.isSome_iff_exists.mp hk.symm
    by_cases hkey : grant.grantKey = k
    · subst hkey
      simp [GrantPC.pendingGrant, hold, hitem]
    · simp [GrantPC.pendingGrant, hold, hkey]

theorem even_granted (h : Even t) : Even (granted r t grant) := by
  intro k
  have hledger : ((granted r t grant).ledger.find? k).isSome ↔ k = grant.grantKey ∨ (t.ledger.find? k).isSome :=
    Set.ext_iff.mp (granted_ledgerKeys r t grant) k
  have hbackpack : ((granted r t grant).backpack.find? k).isSome ↔
      (t.backpack.find? k).isSome ∨ k = grant.grantKey ∧ ¬(t.ledger.find? k).isSome :=
    Set.ext_iff.mp (granted_backpackKeys r t grant) k
  apply Bool.eq_iff_iff.mpr
  rw [hledger, hbackpack, h k]
  tauto

variable {profile : UserProfile} {mail : GlobalMail} {mailID : Int} {now : Time}

theorem even_grants (h : Even t) (grants : List RewardGrant) : Even (grants.foldl (granted r) t) := by
  induction grants generalizing t with
  | nil => exact h
  | cons grant rest ih => exact ih (even_granted h)

theorem items_grants (h : Even t) (indexes : List Int) (k : Int × Int) (i : Int) :
    (((grantCalls profile mail mailID now indexes).foldl (granted r) t).backpack.find?
        (grantKey k.1 k.2 i)).map (·.loot) =
      if k = (profile.roleID, mailID) ∧ i ∈ indexes.takeWhile (fun j => (loots mail j).isSome) then
        ((t.backpack.find? (grantKey k.1 k.2 i)).map (·.loot)).or (loots mail i)
      else (t.backpack.find? (grantKey k.1 k.2 i)).map (·.loot) := by
  induction indexes generalizing t with
  | nil => simp [grantCalls]
  | cons index rest ih =>
    cases hloot : lootAtIndex mail.loots index with
    | error err =>
      have hnone : loots mail index = none := by rw [loots, hloot]; rfl
      simp [grantCalls, hloot, hnone]
    | ok loot =>
      have hsome : loots mail index = some loot := by rw [loots, hloot]; rfl
      have hkey : (rewardGrant profile mailID index loot now).grantKey = grantKey k.1 k.2 i ↔
          k = (profile.roleID, mailID) ∧ i = index := by
        constructor
        · intro hsame
          obtain ⟨hrole, hmail, hindex⟩ := DecimalKey.colonJoin_inj hsame
          exact ⟨Prod.ext hrole.symm hmail.symm, hindex.symm⟩
        · rintro ⟨rfl, rfl⟩
          rfl
      simp only [grantCalls, hloot, List.foldl_cons, List.takeWhile_cons, hsome, Option.isSome_some, if_true,
        List.mem_cons, ih (even_granted h), granted_backpack h, hkey]
      by_cases hk : k = (profile.roleID, mailID)
      · by_cases hi : i = index
        · subst hi
          simp [hk, hsome, rewardGrant]
        · simp [hk, hi]
      · simp [hk]

end Grants

section Sorted

theorem mem_takeWhile_sorted {p : Int → Bool} {indexes : List Int} (h : indexes.Pairwise (· < ·)) {i : Int} :
    i ∈ indexes.takeWhile p ↔ i ∈ indexes ∧ ∀ j ∈ indexes, j ≤ i → p j = true := by
  induction indexes with
  | nil => simp
  | cons index rest ih =>
    obtain ⟨hleast, hrest⟩ := List.pairwise_cons.mp h
    by_cases hp : p index = true
    · simp only [List.takeWhile_cons, hp, if_true, List.mem_cons, ih hrest]
      constructor
      · rintro (rfl | ⟨hi, hall⟩)
        · refine ⟨Or.inl rfl, ?_⟩
          rintro j (rfl | hj) hle
          · exact hp
          · exact absurd (hleast j hj) (not_lt.mpr hle)
        · refine ⟨Or.inr hi, ?_⟩
          rintro j (rfl | hj) hle
          · exact hp
          · exact hall j hj hle
      · rintro ⟨rfl | hi, hall⟩
        · exact Or.inl rfl
        · exact Or.inr ⟨hi, fun j hj => hall j (Or.inr hj)⟩
    · simp only [List.takeWhile_cons, hp, Bool.false_eq_true, if_false, List.not_mem_nil, false_iff, not_and,
        List.mem_cons]
      rintro hi hall
      have hle : index ≤ i := by
        rcases hi with rfl | hi
        · exact le_refl _
        · exact (hleast i hi).le
      exact hp (hall index (Or.inl rfl) hle)

theorem served_eq (mail : GlobalMail) (existing next : List Int) :
    Slot.served (loots mail) ({i | i ∈ next} \ {i | i ∈ existing}) =
      {i | i ∈ (newLootIndexes existing next).takeWhile fun j => (loots mail j).isSome} := by
  ext i
  have hsorted := (newLootIndexes_sortedLT existing next).pairwise
  simp only [Slot.served, Set.mem_ofPred_eq, Set.mem_sdiff, mem_takeWhile_sorted hsorted, mem_newLootIndexes]

theorem grantRewards_result (profile : UserProfile) (mail : GlobalMail) (mailID : Int) (r : Readings) (t : Rewards)
    (indexes : List Int) :
    if ∀ i ∈ indexes, (loots mail i).isSome then (grantRewards profile mail mailID r t indexes).2 = .ok ()
    else ∃ err, (grantRewards profile mail mailID r t indexes).2 = .error err := by
  induction indexes generalizing t with
  | nil => simp [grantRewards]
  | cons index rest ih =>
    cases hloot : lootAtIndex mail.loots index with
    | error err =>
      have hnone : loots mail index = none := by rw [loots, hloot]; rfl
      simp [grantRewards, hloot, hnone]
    | ok loot =>
      have hsome : loots mail index = some loot := by rw [loots, hloot]; rfl
      simpa [grantRewards, hloot, hsome] using ih _

end Sorted

section Slots

variable {t : Tables}

theorem slot_save {next : UserGlobalMailState}
    (hkeep : (slot t next.key).mark = .deleted →
      markOf next.status = .deleted ∧ {i | i ∈ next.claimedLootIndexes} = (slot t next.key).claimed) :
    slot ⟨t.states.saveUserState next, t.rewards⟩ =
      Function.update (slot t) next.key
        { slot t next.key with mark := markOf next.status, claimed := {i | i ∈ next.claimedLootIndexes} } := by
  funext k
  rw [Function.update_apply]
  split_ifs with hk
  · subst hk
    simp only [slot, StateTable.find?_saveUserState, if_true, Option.map_some, Option.getD_some]
    cases hrow : t.states.find? next.key with
    | none => rfl
    | some row =>
      by_cases hdeleted : row.status = .deleted
      · simp only [slot, hrow, Option.map_some, Option.getD_some, hdeleted, markOf, true_imp_iff] at hkeep
        simp only [StateTable.savedRow, StateTable.updatedRow_of_deleted hdeleted, hdeleted, markOf, hkeep.1, hkeep.2]
      · simp [StateTable.savedRow, StateTable.updatedRow, StateTable.preserveDeleted, hdeleted]
  · simp only [slot, StateTable.find?_saveUserState, if_neg hk]

theorem slot_grants (h : Even t.rewards) (profile : UserProfile) (mail : GlobalMail) (mailID : Int) (now : Time)
    (r : Readings) (indexes : List Int) :
    slot ⟨t.states, (grantCalls profile mail mailID now indexes).foldl (granted r) t.rewards⟩ =
      Function.update (slot t) (profile.roleID, mailID) ((slot t (profile.roleID, mailID)).deliver (loots mail)
        {i | i ∈ indexes.takeWhile fun j => (loots mail j).isSome}) := by
  funext k
  rw [Function.update_apply]
  split_ifs with hk
  · subst hk
    apply Slot.ext
    · rfl
    · rfl
    · funext i
      have hitem := @items_grants r _ profile mail mailID now h indexes (profile.roleID, mailID) i
      simp only [true_and] at hitem
      simp only [slot, Slot.deliver, Set.mem_ofPred_eq, hitem]
      split_ifs <;> rfl
  · apply Slot.ext
    · rfl
    · rfl
    · funext i
      simp only [slot, items_grants h, hk, false_and, if_false]

theorem read_slot (t : Tables) (profile : UserProfile) (mailID : Int) (now : Time) :
    (readState t.states profile mailID now).key = (profile.roleID, mailID) ∧
      markOf (readState t.states profile mailID now).status = (slot t (profile.roleID, mailID)).mark ∧
      {i | i ∈ (readState t.states profile mailID now).claimedLootIndexes} =
        (slot t (profile.roleID, mailID)).claimed := by
  simp only [readState, slot]
  cases hrow : t.states.find? (profile.roleID, mailID) with
  | none => exact ⟨rfl, rfl, rfl⟩
  | some row => exact ⟨(Table.find?_eq_some.mp hrow).2, rfl, rfl⟩

end Slots

section Errands

variable {t : Tables} {e : Errand} {mail : GlobalMail}

theorem run_notFound (hfound : e.found = none) : e.run t = (t, .error errMailNotVisible) := by
  have hvisible : visibleMail ((e.view.server t).refreshIfStale e.visit.readings.refreshedAt
      e.visit.readings.token).snapshot e.visit.profile e.visit.readings.checkedAt e.mailID = none := hfound
  simp only [Errand.run, updateGlobalMailState, hvisible]
  rfl

def Errand.read (e : Errand) (t : Tables) : UserGlobalMailState :=
  readState t.states e.visit.profile e.mailID e.visit.readings.appliedAt

theorem run_found (hfound : e.found = some mail) :
    e.run t =
      (match applyOp e.visit.profile mail e.mailID e.visit.readings t.rewards (e.read t) e.op with
      | (rewards, .error err) => (⟨t.states, rewards⟩, .error err)
      | (rewards, .ok next) => (⟨t.states.saveUserState (stamped e.visit.readings.appliedAt next), rewards⟩,
          .ok (stamped e.visit.readings.appliedAt next))) := by
  have hvisible : visibleMail ((e.view.server t).refreshIfStale e.visit.readings.refreshedAt
      e.visit.readings.token).snapshot e.visit.profile e.visit.readings.checkedAt e.mailID = some mail := hfound
  simp only [Errand.run, updateGlobalMailState, hvisible]
  unfold updateVisible Errand.read View.server PlayerServer.refreshIfStale
  rcases applyOp e.visit.profile mail e.mailID e.visit.readings t.rewards
    (readState t.states e.visit.profile e.mailID e.visit.readings.appliedAt) e.op with ⟨rewards, _ | next⟩ <;> rfl

theorem save_refines {rewards : Rewards} {next : UserGlobalMailState} {answered : Slot Int RawMessage}
    (hkey : next.key = e.key) (hmark : markOf next.status = answered.mark)
    (hclaimed : {i | i ∈ next.claimedLootIndexes} = answered.claimed)
    (hbefore : slot ⟨t.states, rewards⟩ = Function.update (slot t) e.key { slot t e.key with items := answered.items })
    (hkeep : (slot t e.key).mark = .deleted → answered.mark = .deleted ∧ answered.claimed = (slot t e.key).claimed) :
    slot ⟨t.states.saveUserState (stamped e.visit.readings.appliedAt next), rewards⟩ =
        Function.update (slot t) e.key answered ∧
      replyOf (.ok (stamped e.visit.readings.appliedAt next)) = Slot.reply (answered, true) := by
  have hstamped : (stamped e.visit.readings.appliedAt next).key = e.key := hkey
  have hown : slot ⟨t.states, rewards⟩ e.key = { slot t e.key with items := answered.items } := by
    rw [hbefore, Function.update_self]
  constructor
  · refine (@slot_save ⟨t.states, rewards⟩ (stamped e.visit.readings.appliedAt next) ?_).trans ?_
    · rw [hstamped, hown]
      intro hdeleted
      exact ⟨hmark.trans (hkeep hdeleted).1, hclaimed.trans (hkeep hdeleted).2⟩
    · rw [hstamped, hown, hbefore, Function.update_idem]
      congr 1
      exact Slot.ext hmark hclaimed rfl
  · simp only [replyOf, Slot.reply, if_true, ← hmark, ← hclaimed]
    rfl

/-- An errand does to the tables what the mailbox says of its slot. -/
def Refines (t : Tables) (e : Errand) (answered : Slot Int RawMessage × Bool) : Prop :=
  slot (e.run t).1 = Function.update (slot t) e.key answered.1 ∧ replyOf (e.run t).2 = Slot.reply answered ∧
    Even (e.run t).1.rewards

theorem refines_of_save (h : Even t.rewards) (hfound : e.found = some mail) {next : UserGlobalMailState}
    (happly : applyOp e.visit.profile mail e.mailID e.visit.readings t.rewards (e.read t) e.op = (t.rewards, .ok next))
    (hkey : next.key = e.key) (hclaimed : {i | i ∈ next.claimedLootIndexes} = (slot t e.key).claimed)
    (hkeep : (slot t e.key).mark = .deleted → markOf next.status = .deleted) :
    Refines t e ({ slot t e.key with mark := markOf next.status }, true) := by
  have hrun := @run_found t e mail hfound
  rw [happly] at hrun
  obtain ⟨hslot, hreply⟩ := @save_refines t e t.rewards next { slot t e.key with mark := markOf next.status } hkey rfl
    hclaimed (Function.update_eq_self _ _).symm fun hdeleted => ⟨hkeep hdeleted, rfl⟩
  refine ⟨?_, ?_, ?_⟩ <;> rw [hrun]
  · exact hslot
  · exact hreply
  · exact h

theorem read_refines (t : Tables) (e : Errand) :
    (e.read t).key = e.key ∧ markOf (e.read t).status = (slot t e.key).mark ∧
      {i | i ∈ (e.read t).claimedLootIndexes} = (slot t e.key).claimed :=
  read_slot t e.visit.profile e.mailID e.visit.readings.appliedAt

theorem run_claim (hfound : e.found = some mail) (hlive : (e.read t).status ≠ .deleted) {lootIndexes : List Int}
    (hop : e.op = .claim lootIndexes) {rewards : Rewards} {result : Except String Unit}
    (hgrants : grantRewards e.visit.profile mail e.mailID e.visit.readings t.rewards
      (newLootIndexes (e.read t).claimedLootIndexes lootIndexes) = (rewards, result)) :
    e.run t =
      let next := stamped e.visit.readings.appliedAt (claimed e.visit.readings.appliedAt lootIndexes (e.read t))
      match result with
      | .error err => (⟨t.states, rewards⟩, .error err)
      | .ok _ => (⟨t.states.saveUserState next, rewards⟩, .ok next) := by
  rw [run_found hfound]
  simp only [hop, applyOp, if_neg hlive, hgrants]
  cases result <;> rfl

theorem grants_refine (h : Even t.rewards) {lootIndexes : List Int} {rewards : Rewards} {result : Except String Unit}
    (hgrants : grantRewards e.visit.profile mail e.mailID e.visit.readings t.rewards
      (newLootIndexes (e.read t).claimedLootIndexes lootIndexes) = (rewards, result)) :
    let asked := {i | i ∈ lootIndexes} \ (slot t e.key).claimed
    Even rewards ∧
      slot ⟨t.states, rewards⟩ = Function.update (slot t) e.key
        ((slot t e.key).deliver (loots mail) (Slot.served (loots mail) asked)) ∧
      ((∀ i ∈ asked, (loots mail i).isSome) ∧ result = .ok () ∨
        ¬ (∀ i ∈ asked, (loots mail i).isSome) ∧ ∃ err, result = .error err) := by
  obtain ⟨_, _, hread⟩ := read_refines t e
  have hcalls := @grantRewards_calls e.visit.profile mail e.mailID e.visit.readings t.rewards
    (newLootIndexes (e.read t).claimedLootIndexes lootIndexes)
  have hresult := grantRewards_result e.visit.profile mail e.mailID e.visit.readings t.rewards
    (newLootIndexes (e.read t).claimedLootIndexes lootIndexes)
  rw [hgrants] at hcalls hresult
  obtain rfl : rewards = _ := hcalls
  refine ⟨even_grants h _, ?_, ?_⟩
  · rw [← hread, served_eq]
    exact slot_grants h e.visit.profile mail e.mailID e.visit.readings.appliedAt e.visit.readings _
  · have hall : (∀ i ∈ {i | i ∈ lootIndexes} \ (slot t e.key).claimed, (loots mail i).isSome) ↔
        ∀ i ∈ newLootIndexes (e.read t).claimedLootIndexes lootIndexes, (loots mail i).isSome := by
      simp only [mem_newLootIndexes, ← hread, Set.mem_sdiff, Set.mem_ofPred_eq]
    rw [hall]
    split_ifs at hresult with hvalid
    · exact Or.inl ⟨hvalid, hresult⟩
    · exact Or.inr ⟨hvalid, hresult⟩

theorem claim_refines (h : Even t.rewards) (hfound : e.found = some mail) (hlive : (slot t e.key).mark ≠ .deleted)
    {lootIndexes : List Int} (hop : e.op = .claim lootIndexes) :
    Refines t e ((slot t e.key).claim (loots mail) {i | i ∈ lootIndexes}) := by
  obtain ⟨hkey, hmark, hread⟩ := read_refines t e
  have hstatus : (e.read t).status ≠ .deleted := by
    rwa [Ne, ← markOf_eq_deleted, hmark]
  obtain ⟨rewards, result, hgrants⟩ : ∃ rewards result, grantRewards e.visit.profile mail e.mailID e.visit.readings
      t.rewards (newLootIndexes (e.read t).claimedLootIndexes lootIndexes) = (rewards, result) := ⟨_, _, rfl⟩
  have hrun := run_claim hfound hstatus hop hgrants
  obtain ⟨heven, hgiven, ⟨hall, rfl⟩ | ⟨hall, err, rfl⟩⟩ := grants_refine h hgrants
  · obtain ⟨hslot, hreply⟩ := @save_refines t e rewards (claimed e.visit.readings.appliedAt lootIndexes (e.read t))
      ((slot t e.key).claim (loots mail) {i | i ∈ lootIndexes}).1 hkey (by rw [Slot.claim, if_pos hall]; rfl)
      (by
        rw [Slot.claim, if_pos hall, ← hread]
        ext i
        exact mem_mergeLootIndexes)
      (by rw [Slot.claim, if_pos hall]; exact hgiven) fun hdeleted => absurd hdeleted hlive
    have haccepted : ((slot t e.key).claim (loots mail) {i | i ∈ lootIndexes}).2 = true := by
      rw [Slot.claim, if_pos hall]
    refine ⟨?_, ?_, ?_⟩ <;> rw [hrun]
    · exact hslot
    · rw [← haccepted] at hreply
      exact hreply
    · exact heven
  · rw [Slot.claim, if_neg hall]
    refine ⟨?_, ?_, ?_⟩ <;> rw [hrun]
    · exact hgiven
    · rfl
    · exact heven

theorem errand_refines (h : Even t.rewards) (e : Errand) :
    Refines t e ((slot t e.key).answer (e.found.map loots) (deed e.op)) := by
  cases hfound : e.found with
  | none =>
    have hrun := @run_notFound t e hfound
    refine ⟨?_, ?_, ?_⟩ <;> rw [hrun]
    · exact (Function.update_eq_self _ _).symm
    · rfl
    · exact h
  | some mail =>
    obtain ⟨hkey, hmark, hread⟩ := read_refines t e
    cases hop : e.op with
    | markRead =>
      have hnext : markOf (markedRead e.visit.readings.appliedAt (e.read t)).status =
          if (slot t e.key).mark = .unread then .read else (slot t e.key).mark := by
        rw [← hmark, markedRead]
        cases hstatus : (e.read t).status <;> simp [hstatus, markOf]
      have hsaved := @refines_of_save t e mail h hfound (markedRead e.visit.readings.appliedAt (e.read t))
        (by rw [hop]; rfl) (by rw [← hkey, markedRead]; split_ifs <;> rfl)
        (by rw [← hread, markedRead]; split_ifs <;> rfl) (fun hdeleted => by rw [hnext, hdeleted]; rfl)
      rw [hnext] at hsaved
      simp only [Option.map_some, deed, Slot.answer]
      split_ifs at hsaved ⊢ <;> exact hsaved
    | delete =>
      exact @refines_of_save t e mail h hfound (deleted e.visit.readings.appliedAt (e.read t)) (by rw [hop]; rfl) hkey
        hread fun _ => rfl
    | claim lootIndexes =>
      simp only [Option.map_some, deed, Slot.answer]
      split_ifs with hdeleted
      · have hstatus : (e.read t).status = .deleted := by
          rwa [← markOf_eq_deleted, hmark]
        have hsaved := @refines_of_save t e mail h hfound (e.read t) (by rw [hop]; exact if_pos hstatus) hkey hread
          fun _ => markOf_eq_deleted.mpr hstatus
        rwa [hmark] at hsaved
      · exact claim_refines h hfound hdeleted hop

end Errands

theorem runAll_refines {t : Tables} (h : Even t.rewards) (errands : List Errand) :
    slot (runAll t errands).1 = (Mailbox.callAll (slot t) (errands.map Errand.request)).1 ∧
      (runAll t errands).2.map replyOf = (Mailbox.callAll (slot t) (errands.map Errand.request)).2 := by
  induction errands generalizing t with
  | nil => exact ⟨rfl, rfl⟩
  | cons e rest ih =>
    obtain ⟨hslot, hreply, heven⟩ := errand_refines h e
    obtain ⟨hrest, hreplies⟩ := ih heven
    have hcall : Mailbox.call (slot t) e.request = (slot (e.run t).1, replyOf (e.run t).2) := by
      rw [hslot, hreply]
      rfl
    simp only [runAll, List.map_cons, Mailbox.callAll, hcall, hrest, hreplies, and_self]

section Listing

variable {t : Tables} {v : View} {visit : Visit} {mail : GlobalMail}

theorem mem_listing {item : MailItem} :
    item ∈ (listGlobalMails (v.server t) visit.readings visit.profile).2 ↔
      item.mail ∈ (v.refreshed visit.readings).visibleMails visit.profile visit.readings.checkedAt ∧
        mailItem t.states visit.profile.roleID item.mail = some item := by
  have hlist : (listGlobalMails (v.server t) visit.readings visit.profile).2 =
      listedItems t.states (v.refreshed visit.readings) visit.profile visit.readings.checkedAt := rfl
  rw [hlist, listedItems, List.mem_insertionSort, List.mem_filterMap]
  constructor
  · rintro ⟨mail, hmail, hitem⟩
    rw [mailItem_mail hitem]
    exact ⟨hmail, hitem⟩
  · rintro ⟨hmail, hitem⟩
    exact ⟨item.mail, hmail, hitem⟩

theorem mailItem_slot {mark : Mark} {claimed : Set Int} :
    (∃ item, mailItem t.states visit.profile.roleID mail = some item ∧ markOf item.status = mark ∧
        {i | i ∈ item.claimedLootIndexes} = claimed) ↔
      mark ≠ .deleted ∧ (slot t (visit.profile.roleID, mail.id)).mark = mark ∧
        (slot t (visit.profile.roleID, mail.id)).claimed = claimed := by
  simp only [mailItem, slot]
  cases t.states.find? (visit.profile.roleID, mail.id) with
  | none =>
    constructor
    · rintro ⟨_, ⟨⟩, rfl, rfl⟩
      exact ⟨Mark.noConfusion, rfl, rfl⟩
    · rintro ⟨_, rfl, rfl⟩
      exact ⟨_, rfl, rfl, rfl⟩
  | some state =>
    by_cases hdeleted : state.status = .deleted
    · simp [hdeleted, markOf]
      exact fun h he => absurd he.symm h
    · have hmark : markOf state.status ≠ .deleted := fun h => hdeleted (markOf_eq_deleted.mp h)
      simp only [hdeleted, if_false, Option.map_some, Option.getD_some]
      constructor
      · rintro ⟨_, ⟨⟩, rfl, rfl⟩
        exact ⟨hmark, rfl, rfl⟩
      · rintro ⟨_, rfl, rfl⟩
        exact ⟨_, rfl, rfl, rfl⟩

end Listing

theorem slot_empty : slot .empty = fun _ => Slot.fresh := by
  funext k
  apply Slot.ext
  · rfl
  · ext i
    exact iff_of_false List.not_mem_nil id
  · rfl

theorem mailbox_refined (errands : List Errand) :
    let t := (runAll .empty errands).1
    let box := Mailbox.callAll (fun _ => Slot.fresh) (errands.map Errand.request)
    slot t = box.1 ∧ (runAll .empty errands).2.map replyOf = box.2 ∧
      ∀ (v : View) (visit : Visit) (mail : GlobalMail) (mark : Mark) (claimed : Set Int),
        (∃ item ∈ (listGlobalMails (v.server t) visit.readings visit.profile).2, item.mail = mail ∧
            markOf item.status = mark ∧ {i | i ∈ item.claimedLootIndexes} = claimed) ↔
          mail ∈ (v.refreshed visit.readings).visibleMails visit.profile visit.readings.checkedAt ∧
            mark ≠ .deleted ∧ (box.1 (visit.profile.roleID, mail.id)).mark = mark ∧
            (box.1 (visit.profile.roleID, mail.id)).claimed = claimed := by
  obtain ⟨hslot, hreplies⟩ := @runAll_refines .empty (fun _ => rfl) errands
  rw [slot_empty] at hslot hreplies
  refine ⟨hslot, hreplies, fun v visit mail mark claimed => ?_⟩
  rw [← hslot, ← mailItem_slot]
  constructor
  · rintro ⟨item, hitem, rfl, hmark, hclaimed⟩
    obtain ⟨hvisible, hitem⟩ := mem_listing.mp hitem
    exact ⟨hvisible, item, hitem, hmark, hclaimed⟩
  · rintro ⟨hvisible, item, hitem, hmark, hclaimed⟩
    have hmail := mailItem_mail hitem
    subst hmail
    exact ⟨item, mem_listing.mpr ⟨hvisible, hitem⟩, rfl, hmark, hclaimed⟩

theorem claimed_backed (errands : List Errand) (roleID mailID index : Int) (state : UserGlobalMailState)
    (hstate : (runAll .empty errands).1.states.find? (roleID, mailID) = some state)
    (hindex : index ∈ state.claimedLootIndexes) :
    ∃ item, (runAll .empty errands).1.rewards.backpack.find? (grantKey roleID mailID index) = some item := by
  obtain ⟨hslot, _⟩ := @runAll_refines .empty (fun _ => rfl) errands
  rw [slot_empty] at hslot
  have hbacked := @Mailbox.backed_callAll _ _ _ _ _ (fun _ : Int × Int => (Slot.fresh : Slot Int RawMessage))
    (fun _ _ h => absurd h id) (errands.map Errand.request) (roleID, mailID)
  rw [← hslot] at hbacked
  have hitem := hbacked index (by simpa [slot, hstate] using hindex)
  simpa [slot, Option.isSome_iff_exists] using hitem

theorem twoLootView_built :
    ∃ version mails now, CacheSnapshot.build 1 [twoLootMail] 0 = .build version mails now := ⟨1, [twoLootMail], 0, rfl⟩

def twoLootView : View := ⟨.empty, .empty, .build 1 [twoLootMail] 0, twoLootView_built⟩

def twoLootErrands : List Errand :=
  [⟨twoLootView, visitAt 1, 20, .claim [0, 7]⟩, ⟨twoLootView, visitAt 2, 20, .claim [1]⟩]

theorem secondLoot_backed :
    ∃ item, (runAll .empty twoLootErrands).1.rewards.backpack.find? (grantKey 0 20 1) = some item := by
  have hstate : (runAll .empty twoLootErrands).1.states.find? (0, 20) =
      some (((runAll .empty twoLootErrands).1.states.find? (0, 20)).get (by decide)) := (Option.some_get _).symm
  exact claimed_backed twoLootErrands 0 20 1 _ hstate (by decide)

end GlobalMailSystem.PlayerMail
