import GlobalMailSystem.MailTypes
import GlobalMailSystem.Table
import GlobalMailSystem.Transition

namespace GlobalMailSystem

structure RewardLedgerRow where
  grantKey : String
  roleID : Int
  serverID : Int
  globalMailID : Int
  lootIndex : Int
  status : RewardStatus
  externalRewardID : String
  failureReason : String
  createTime : Time
  updateTime : Time

structure Rewards where
  ledger : Table RewardLedgerRow.grantKey
  backpack : Table BackpackGrant.grantKey

namespace Rewards

def empty : Rewards := ⟨.empty, .empty⟩

def ledgerRow (grant : RewardGrant) (now : Time) : RewardLedgerRow :=
  let createTime := if grant.createTime = zeroTime then now else grant.createTime
  { grantKey := grant.grantKey, roleID := grant.roleID, serverID := grant.serverID
    globalMailID := grant.globalMailID, lootIndex := grant.lootIndex
    status := if grant.status = .unset then .succeeded else grant.status
    externalRewardID := grant.externalRewardID, failureReason := grant.failureReason
    createTime := createTime
    updateTime := if grant.updateTime = zeroTime then createTime else grant.updateTime }

def reserveGlobalMailReward (t : Rewards) (grant : RewardGrant) (now : Time) : Rewards × Bool :=
  let added := t.ledger.insertIgnore (ledgerRow grant now)
  ({ t with ledger := added.1 }, added.2)

def succeededRow (externalRewardID : String) (updatedAt : Time) (row : RewardLedgerRow) :
    RewardLedgerRow :=
  { row with
    status := .succeeded, externalRewardID := externalRewardID, failureReason := ""
    updateTime := updatedAt }

theorem succeededRow_grantKey (externalRewardID : String) (updatedAt : Time) (row : RewardLedgerRow) :
    (succeededRow externalRewardID updatedAt row).grantKey = row.grantKey :=
  rfl

def markGlobalMailRewardSucceeded (t : Rewards) (grantKey externalRewardID : String)
    (updatedAt : Time) : Rewards :=
  { t with
    ledger := t.ledger.updateWhere grantKey (succeededRow externalRewardID updatedAt)
      (succeededRow_grantKey externalRewardID updatedAt) }

def failedRow (cause : String) (updatedAt : Time) (row : RewardLedgerRow) : RewardLedgerRow :=
  { row with status := .failed, failureReason := cause, updateTime := updatedAt }

theorem failedRow_grantKey (cause : String) (updatedAt : Time) (row : RewardLedgerRow) :
    (failedRow cause updatedAt row).grantKey = row.grantKey :=
  rfl

def markGlobalMailRewardFailed (t : Rewards) (grantKey cause : String) (updatedAt : Time) : Rewards :=
  { t with
    ledger := t.ledger.updateWhere grantKey (failedRow cause updatedAt)
      (failedRow_grantKey cause updatedAt) }

def backpackExternalID (grantKey : String) : String := "playersrv-backpack:" ++ grantKey

def grantBackpackReward (t : Rewards) (grant : BackpackGrant) : Rewards × String × Bool :=
  let added := t.backpack.insertIgnore grant
  ({ t with backpack := added.1 }, backpackExternalID grant.grantKey, added.2)

section Find

variable (t : Rewards) (k : String)

@[simp]
theorem reserve_ledger (grant : RewardGrant) (now : Time) :
    (t.reserveGlobalMailReward grant now).1.ledger.find? k =
      if grant.grantKey = k then some ((t.ledger.find? k).getD (ledgerRow grant now))
      else t.ledger.find? k :=
  Table.find?_insertIgnore

@[simp]
theorem reserve_added (grant : RewardGrant) (now : Time) :
    (t.reserveGlobalMailReward grant now).2 = (t.ledger.find? grant.grantKey).isNone :=
  Table.insertIgnore_added_iff

@[simp]
theorem reserve_backpack (grant : RewardGrant) (now : Time) :
    (t.reserveGlobalMailReward grant now).1.backpack = t.backpack :=
  rfl

@[simp]
theorem succeeded_ledger (grantKey externalRewardID : String) (updatedAt : Time) :
    (t.markGlobalMailRewardSucceeded grantKey externalRewardID updatedAt).ledger.find? k =
      if k = grantKey then (t.ledger.find? k).map (succeededRow externalRewardID updatedAt)
      else t.ledger.find? k := by
  simp only [markGlobalMailRewardSucceeded, Table.find?_updateWhere]

@[simp]
theorem succeeded_backpack (grantKey externalRewardID : String) (updatedAt : Time) :
    (t.markGlobalMailRewardSucceeded grantKey externalRewardID updatedAt).backpack = t.backpack :=
  rfl

@[simp]
theorem failed_ledger (grantKey cause : String) (updatedAt : Time) :
    (t.markGlobalMailRewardFailed grantKey cause updatedAt).ledger.find? k =
      if k = grantKey then (t.ledger.find? k).map (failedRow cause updatedAt)
      else t.ledger.find? k := by
  simp only [markGlobalMailRewardFailed, Table.find?_updateWhere]

@[simp]
theorem failed_backpack (grantKey cause : String) (updatedAt : Time) :
    (t.markGlobalMailRewardFailed grantKey cause updatedAt).backpack = t.backpack :=
  rfl

@[simp]
theorem grantBackpack_ledger (grant : BackpackGrant) :
    (t.grantBackpackReward grant).1.ledger = t.ledger :=
  rfl

@[simp]
theorem grantBackpack_backpack (grant : BackpackGrant) :
    (t.grantBackpackReward grant).1.backpack.find? k =
      if grant.grantKey = k then some ((t.backpack.find? k).getD grant) else t.backpack.find? k :=
  Table.find?_insertIgnore

end Find

end Rewards

inductive GrantPC
  | reserve (grant : RewardGrant) (now : Time)
  | backpack (grant : RewardGrant) (now : Time)
  | markFailed (grant : RewardGrant) (now : Time) (err : String)
  | markSucceeded (grant : RewardGrant) (now : Time) (externalRewardID : String)
  | returned (grantKey : String) (result : Except String Bool)

namespace GrantPC

def pendingGrant (grant : RewardGrant) (now : Time) : RewardGrant :=
  { grant with
    createTime := if grant.createTime = zeroTime then now else grant.createTime
    updateTime := now, status := .pending }

def start (grant : RewardGrant) (now : Time) : GrantPC := .reserve (pendingGrant grant now) now

def backpackGrant (grant : RewardGrant) (now : Time) : BackpackGrant :=
  ⟨grant.roleID, grant.serverID, grant.grantKey, grant.lootIndex, grant.loot, now⟩

def step (t : Rewards) (serverNow : Time) (outcome : Outcome) : GrantPC → Option (Rewards × GrantPC)
  | .reserve grant now =>
    match outcome with
    | .ok =>
      let reserved := t.reserveGlobalMailReward grant serverNow
      some (reserved.1, if reserved.2 then .backpack grant now else .returned grant.grantKey (.ok false))
    | .failed err => some (t, .returned grant.grantKey (.error err))
    | .lost err =>
      some ((t.reserveGlobalMailReward grant serverNow).1, .returned grant.grantKey (.error err))
  | .backpack grant now =>
    let granted := t.grantBackpackReward (backpackGrant grant now)
    match outcome with
    | .ok => some (granted.1, .markSucceeded grant now granted.2.1)
    | .failed err => some (t, .markFailed grant now err)
    | .lost err => some (granted.1, .markFailed grant now err)
  | .markFailed grant now err =>
    some (if outcome.executed then t.markGlobalMailRewardFailed grant.grantKey err now else t,
      .returned grant.grantKey (.error err))
  | .markSucceeded grant now externalRewardID =>
    let marked := t.markGlobalMailRewardSucceeded grant.grantKey externalRewardID now
    match outcome with
    | .ok => some (marked, .returned grant.grantKey (.ok true))
    | .failed err => some (t, .returned grant.grantKey (.error err))
    | .lost err => some (marked, .returned grant.grantKey (.error err))
  | .returned _ _ => none

def Carries (P : RewardGrant → Prop) : GrantPC → Prop
  | .reserve grant _ => P grant
  | .backpack grant _ => P grant
  | .markFailed grant _ _ => P grant
  | .markSucceeded grant _ _ => P grant
  | .returned _ _ => True

theorem step_carries {P : RewardGrant → Prop} {t t' : Rewards} {serverNow : Time} {outcome : Outcome}
    {pc pc' : GrantPC} (hP : pc.Carries P) (h : pc.step t serverNow outcome = some (t', pc')) :
    pc'.Carries P := by
  cases pc with
  | reserve grant now =>
    cases outcome with
    | ok =>
      simp only [step, Option.some.injEq, Prod.mk.injEq] at h
      rw [← h.2]
      split_ifs
      · exact hP
      · trivial
    | failed err => cases h; trivial
    | lost err => cases h; trivial
  | backpack grant now => cases outcome <;> cases h <;> exact hP
  | markFailed grant now err => cases h; trivial
  | markSucceeded grant now ext => cases outcome <;> cases h <;> trivial
  | returned grantKey result => cases h

theorem step_backpack {t t' : Rewards} {serverNow : Time} {outcome : Outcome} {pc pc' : GrantPC}
    (h : pc.step t serverNow outcome = some (t', pc')) {row : BackpackGrant}
    (hrow : row ∈ t'.backpack.rows) :
    row ∈ t.backpack.rows ∨ ∃ grant now, pc = .backpack grant now ∧ row = backpackGrant grant now := by
  have inserted {grant : RewardGrant} {now : Time}
      (hr : row ∈ (t.grantBackpackReward (backpackGrant grant now)).1.backpack.rows) :
      row ∈ t.backpack.rows ∨ ∃ g n, GrantPC.backpack grant now = .backpack g n ∧ row = backpackGrant g n := by
    rcases Table.mem_insertIgnore.mp hr with hr | ⟨hr, _⟩
    · exact Or.inl hr
    · exact Or.inr ⟨grant, now, rfl, hr⟩
  cases pc with
  | reserve grant now =>
    left
    cases outcome with
    | ok =>
      simp only [step, Option.some.injEq, Prod.mk.injEq] at h
      rw [← h.1] at hrow
      exact hrow
    | failed err => cases h; exact hrow
    | lost err => cases h; exact hrow
  | backpack grant now =>
    cases outcome with
    | ok => cases h; exact inserted hrow
    | failed err => cases h; exact Or.inl hrow
    | lost err => cases h; exact inserted hrow
  | markFailed grant now err =>
    left
    cases h
    split_ifs at hrow
    · exact hrow
    · exact hrow
  | markSucceeded grant now ext =>
    left
    cases outcome <;> cases h <;> exact hrow
  | returned grantKey result => cases h

theorem step_backpack_mono {t t' : Rewards} {serverNow : Time} {outcome : Outcome} {pc pc' : GrantPC}
    (h : pc.step t serverNow outcome = some (t', pc')) {row : BackpackGrant}
    (hrow : row ∈ t.backpack.rows) : row ∈ t'.backpack.rows := by
  cases pc with
  | reserve grant now =>
    cases outcome with
    | ok =>
      simp only [step, Option.some.injEq, Prod.mk.injEq] at h
      rw [← h.1]
      exact hrow
    | failed err => cases h; exact hrow
    | lost err => cases h; exact hrow
  | backpack grant now =>
    cases outcome with
    | ok => cases h; exact Table.mem_insertIgnore.mpr (Or.inl hrow)
    | failed err => cases h; exact hrow
    | lost err => cases h; exact Table.mem_insertIgnore.mpr (Or.inl hrow)
  | markFailed grant now err =>
    cases h
    split_ifs
    · exact hrow
    · exact hrow
  | markSucceeded grant now ext => cases outcome <;> cases h <;> exact hrow
  | returned grantKey result => cases h

end GrantPC

end GlobalMailSystem
