import GlobalMailSystem.DecimalKey
import GlobalMailSystem.MailTypes
import GlobalMailSystem.Table

namespace GlobalMailSystem

namespace UserGlobalMailState

def key (state : UserGlobalMailState) : Int × Int := (state.roleID, state.globalMailID)

end UserGlobalMailState

abbrev StateTable := Table UserGlobalMailState.key

namespace StateTable

def preserveDeleted {α : Type} (status : UserMailStatus) (column value : α) : α :=
  if status = .deleted then column else value

/-- `ON DUPLICATE KEY UPDATE`: the assignments run in the order of their column names, so those of
`update_time` and `version` already see the new `status`. -/
def updatedRow (state row : UserGlobalMailState) : UserGlobalMailState :=
  let status := preserveDeleted row.status row.status state.status
  { row with
    claimTime := preserveDeleted row.status row.claimTime state.claimTime
    claimedLootIndexes := preserveDeleted row.status row.claimedLootIndexes state.claimedLootIndexes
    deleteTime := preserveDeleted row.status row.deleteTime state.deleteTime
    serverID := preserveDeleted row.status row.serverID state.serverID
    status := status
    updateTime := preserveDeleted status row.updateTime state.updateTime
    version := preserveDeleted status row.version state.version }

theorem updatedRow_key (state row : UserGlobalMailState) : (updatedRow state row).key = row.key := rfl

theorem updatedRow_of_deleted {state row : UserGlobalMailState} (h : row.status = .deleted) :
    updatedRow state row = row := by
  simp only [updatedRow, preserveDeleted, if_pos h]

/-- A zero `Version` is left to the column's default. -/
def insertedRow (state : UserGlobalMailState) : UserGlobalMailState :=
  { state with version := if state.version = 0 then 1 else state.version }

def saveUserState (t : StateTable) (state : UserGlobalMailState) : StateTable :=
  match t.insert (insertedRow state) with
  | some t' => t'
  | none => t.updateWhere state.key (updatedRow state) (updatedRow_key state)

def savedRow (state : UserGlobalMailState) : Option UserGlobalMailState → UserGlobalMailState
  | none => insertedRow state
  | some row => updatedRow state row

theorem find?_saveUserState (t : StateTable) (state : UserGlobalMailState) (k : Int × Int) :
    (t.saveUserState state).find? k =
      if k = state.key then some (savedRow state (t.find? k)) else t.find? k := by
  unfold saveUserState
  cases h : t.insert (insertedRow state) with
  | some t' =>
    have hnone : t.find? state.key = none := Table.find?_eq_none.mpr (Table.insert_eq_some h).2
    split_ifs with hk
    · rw [hk, hnone, Table.find?_eq_some]
      exact ⟨(Table.mem_insert h).mpr (Or.inr rfl), rfl⟩
    · apply Table.find?_of_mem_iff
      intro row hrow
      rw [Table.mem_insert h]
      constructor
      · rintro (hr | rfl)
        · exact hr
        · exact absurd hrow.symm hk
      · exact Or.inl
  | none =>
    obtain ⟨row, hrow, hkey⟩ := Table.insert_eq_none.mp h
    have hfind : t.find? state.key = some row := Table.find?_eq_some.mpr ⟨hrow, hkey⟩
    simp only [Table.find?_updateWhere]
    split_ifs with hk
    · rw [hk, hfind]
      rfl
    · rfl

theorem mem_saveUserState {t : StateTable} {state row : UserGlobalMailState}
    (h : row ∈ (t.saveUserState state).rows) :
    row ∈ t.rows ∨ (row.key = state.key ∧ row = savedRow state (t.find? state.key)) := by
  have hfind : (t.saveUserState state).find? row.key = some row := Table.find?_eq_some.mpr ⟨h, rfl⟩
  rw [find?_saveUserState] at hfind
  split_ifs at hfind with hk
  · rw [hk] at hfind
    exact Or.inr ⟨hk, (Option.some.inj hfind).symm⟩
  · exact Or.inl (Table.find?_eq_some.mp hfind).1

end StateTable

namespace PlayerMail

def errMailNotVisible : String := "global mail is not visible to user"

def keepNew (seen : List Int) : List Int → List Int
  | [] => []
  | i :: rest => if i ∈ seen then keepNew seen rest else i :: keepNew (i :: seen) rest

def sortInts (indexes : List Int) : List Int := indexes.insertionSort (· ≤ ·)

def mergeLootIndexes (existing next : List Int) : List Int := sortInts (keepNew [] (existing ++ next))

def newLootIndexes (existing next : List Int) : List Int := sortInts (keepNew existing next)

def lootAtIndex (loots : RawMessage) (index : Int) : Except String RawMessage :=
  if index < 0 then .error ("loot index " ++ toString index ++ " is invalid")
  else
    match loots with
    | .empty => .ok .empty
    | loots =>
      match RawJson.unmarshalItems loots with
      | none => .error "json: cannot unmarshal loots"
      | some items =>
        match items[index.toNat]? with
        | none => .error ("loot index " ++ toString index ++ " out of range")
        | some item => .ok item

theorem mem_keepNew {seen indexes : List Int} {i : Int} :
    i ∈ keepNew seen indexes ↔ i ∈ indexes ∧ i ∉ seen := by
  induction indexes generalizing seen with
  | nil => simp [keepNew]
  | cons j rest ih =>
    simp only [keepNew]
    split_ifs with hj
    · rw [ih, List.mem_cons]
      constructor
      · rintro ⟨hi, hs⟩
        exact ⟨Or.inr hi, hs⟩
      · rintro ⟨rfl | hi, hs⟩
        · exact absurd hj hs
        · exact ⟨hi, hs⟩
    · rw [List.mem_cons, ih, List.mem_cons, List.mem_cons]
      constructor
      · rintro (rfl | ⟨hi, hs⟩)
        · exact ⟨Or.inl rfl, hj⟩
        · exact ⟨Or.inr hi, fun h => hs (Or.inr h)⟩
      · rintro ⟨rfl | hi, hs⟩
        · exact Or.inl rfl
        · by_cases he : i = j
          · exact Or.inl he
          · refine Or.inr ⟨hi, ?_⟩
            rintro (h | h)
            · exact he h
            · exact hs h

theorem mem_mergeLootIndexes {existing next : List Int} {i : Int} :
    i ∈ mergeLootIndexes existing next ↔ i ∈ existing ∨ i ∈ next := by
  simp [mergeLootIndexes, sortInts, mem_keepNew]

theorem mem_newLootIndexes {existing next : List Int} {i : Int} :
    i ∈ newLootIndexes existing next ↔ i ∈ next ∧ i ∉ existing := by
  simp [newLootIndexes, sortInts, mem_keepNew]

theorem lootAtIndex_array {items : List Json} {index : Int} {loot : RawMessage}
    (h : lootAtIndex (.value (.arr items)) index = .ok loot) :
    0 ≤ index ∧ ∃ hlt : index.toNat < items.length, loot = .value (items.get ⟨index.toNat, hlt⟩) := by
  unfold lootAtIndex at h
  split_ifs at h with hneg
  simp only [RawJson.unmarshalItems_array, List.getElem?_map] at h
  refine ⟨not_lt.mp hneg, ?_⟩
  cases hi : items[index.toNat]? with
  | none => simp [hi] at h
  | some item =>
    simp only [hi, Option.map_some, Except.ok.injEq] at h
    obtain ⟨hlt, hitem⟩ := List.getElem?_eq_some_iff.mp hi
    exact ⟨hlt, by rw [← h, ← hitem]; rfl⟩

inductive Op
  | markRead
  | claim (lootIndexes : List Int)
  | delete
  deriving DecidableEq

def initialState (profile : UserProfile) (mailID : Int) (now : Time) : UserGlobalMailState :=
  { roleID := profile.roleID, serverID := profile.serverID, globalMailID := mailID, status := .unread
    claimedLootIndexes := [], claimTime := none, deleteTime := none, version := 0
    createTime := now, updateTime := zeroTime }

def readState (states : StateTable) (profile : UserProfile) (mailID : Int) (now : Time) :
    UserGlobalMailState :=
  let state := (states.find? (profile.roleID, mailID)).getD (initialState profile mailID now)
  { state with version := state.version + 1 }

def markedRead (now : Time) (state : UserGlobalMailState) : UserGlobalMailState :=
  if state.status = .deleted then state
  else
    { state with
      status := if state.status = .unset ∨ state.status = .unread then .read else state.status
      updateTime := now }

def claimed (now : Time) (lootIndexes : List Int) (state : UserGlobalMailState) : UserGlobalMailState :=
  { state with
    status := .claimed
    claimedLootIndexes := mergeLootIndexes state.claimedLootIndexes lootIndexes
    claimTime := some (state.claimTime.getD now)
    updateTime := now }

def deleted (now : Time) (state : UserGlobalMailState) : UserGlobalMailState :=
  { state with
    status := .deleted
    deleteTime := some (state.deleteTime.getD now)
    updateTime := now }

def stamped (now : Time) (state : UserGlobalMailState) : UserGlobalMailState :=
  { state with updateTime := if state.updateTime = zeroTime then now else state.updateTime }

def grantKey (roleID mailID lootIndex : Int) : String := DecimalKey.colonJoin roleID mailID lootIndex

def rewardGrant (profile : UserProfile) (mailID lootIndex : Int) (loot : RawMessage) (now : Time) :
    RewardGrant :=
  { roleID := profile.roleID, serverID := profile.serverID, globalMailID := mailID
    lootIndex := lootIndex, loot := loot, grantKey := grantKey profile.roleID mailID lootIndex
    status := .succeeded, externalRewardID := "", failureReason := "", createTime := now
    updateTime := now }

end PlayerMail

end GlobalMailSystem
