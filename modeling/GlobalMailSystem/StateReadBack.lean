import GlobalMailSystem.UserState
import Mathlib.Data.List.Sort
import Mathlib.Logic.Function.Basic

namespace GlobalMailSystem

inductive StateColumn
  | serverID | status | claimedLootIndexes | claimTime | deleteTime | version | updateTime
  deriving DecidableEq

namespace StateColumn

def name : StateColumn → String
  | serverID => "server_id"
  | status => "status"
  | claimedLootIndexes => "claimed_loot_indexes"
  | claimTime => "claim_time"
  | deleteTime => "delete_time"
  | version => "version"
  | updateTime => "update_time"

def doUpdates : List StateColumn :=
  [serverID, status, claimedLootIndexes, claimTime, deleteTime, version, updateTime]

def assignments : List StateColumn := doUpdates.insertionSort fun a b => a.name ≤ b.name

def assign (state row : UserGlobalMailState) (column : StateColumn) : UserGlobalMailState :=
  if row.status = .deleted then row
  else
    match column with
    | serverID => { row with serverID := state.serverID }
    | status => { row with status := state.status }
    | claimedLootIndexes => { row with claimedLootIndexes := state.claimedLootIndexes }
    | claimTime => { row with claimTime := state.claimTime }
    | deleteTime => { row with deleteTime := state.deleteTime }
    | version => { row with version := state.version }
    | updateTime => { row with updateTime := state.updateTime }

theorem assignments_eq :
    assignments = [claimTime, claimedLootIndexes, deleteTime, serverID, status, updateTime, version] := by
  decide +kernel

theorem assign_of_deleted {state row : UserGlobalMailState} (h : row.status = .deleted) (column : StateColumn) :
    assign state row column = row := if_pos h

theorem foldl_assign_of_deleted {state row : UserGlobalMailState} (h : row.status = .deleted)
    (columns : List StateColumn) : columns.foldl (assign state) row = row := by
  induction columns with
  | nil => rfl
  | cons column columns ih => rw [List.foldl_cons, assign_of_deleted h, ih]

theorem foldl_assign (state row : UserGlobalMailState) :
    assignments.foldl (assign state) row = StateTable.updatedRow state row := by
  -- the first five assignments see the old status, the last two the new one
  by_cases hdeleted : row.status = .deleted
  · rw [foldl_assign_of_deleted hdeleted, StateTable.updatedRow_of_deleted hdeleted]
  · rw [assignments_eq]
    by_cases hstatus : state.status = .deleted
    · simp [assign, StateTable.updatedRow, StateTable.preserveDeleted, hdeleted, hstatus]
    · simp [assign, StateTable.updatedRow, StateTable.preserveDeleted, hdeleted, hstatus]

end StateColumn

namespace StateTable

def putState (states : Int → Option UserGlobalMailState) (row : UserGlobalMailState) :
    Int → Option UserGlobalMailState :=
  Function.update states row.globalMailID (some row)

def getUserStates (t : StateTable) (roleID : Int) (mailIDs : List Int) : Int → Option UserGlobalMailState :=
  if mailIDs = [] then fun _ => none
  else
    (t.rows.filter fun row => row.roleID = roleID ∧ row.globalMailID ∈ mailIDs).foldl putState fun _ => none

theorem foldl_putState (rows : List UserGlobalMailState) (states : Int → Option UserGlobalMailState)
    (hrows : ∀ a ∈ rows, ∀ b ∈ rows, a.globalMailID = b.globalMailID → a = b) (mailID : Int) :
    rows.foldl putState states mailID =
      (rows.find? fun row => row.globalMailID = mailID).or (states mailID) := by
  induction rows generalizing states with
  | nil => rfl
  | cons row rows ih =>
    have hrest := ih (putState states row) fun a ha b hb =>
      hrows a (List.mem_cons_of_mem row ha) b (List.mem_cons_of_mem row hb)
    rw [List.foldl_cons, hrest]
    by_cases hid : row.globalMailID = mailID
    · rw [List.find?_cons_of_pos (by simpa using hid), ← hid, putState, Function.update_self]
      cases hfound : rows.find? fun other => other.globalMailID = row.globalMailID with
      | none => rfl
      | some other =>
        have hsame : other.globalMailID = row.globalMailID := by simpa using List.find?_some hfound
        rw [hrows other (List.mem_cons_of_mem row (List.mem_of_find?_eq_some hfound)) row List.mem_cons_self hsame]
        rfl
    · rw [List.find?_cons_of_neg (by simpa using hid), putState, Function.update_of_ne fun he => hid he.symm]

theorem getUserStates_eq (t : StateTable) (roleID : Int) (mailIDs : List Int) (mailID : Int) :
    t.getUserStates roleID mailIDs mailID = if mailID ∈ mailIDs then t.find? (roleID, mailID) else none := by
  unfold getUserStates
  by_cases hnil : mailIDs = []
  · simp [hnil]
  · rw [if_neg hnil, foldl_putState]
    · rw [Option.or_none, List.find?_filter]
      split_ifs with hmem
      · unfold Table.find?
        congr 1
        funext row
        by_cases hid : row.globalMailID = mailID
        · simp [UserGlobalMailState.key, hid, hmem]
        · simp [UserGlobalMailState.key, hid]
      · apply List.find?_eq_none.mpr
        intro row _ hrow
        simp only [decide_eq_true_eq] at hrow
        exact hmem (hrow.2 ▸ hrow.1.2)
    · intro a ha b hb hab
      simp only [List.mem_filter, decide_eq_true_eq] at ha hb
      exact t.row_unique ha.1 hb.1 (Prod.ext (ha.2.1.trans hb.2.1.symm) hab)

def ReadsBack (t t' : StateTable) (state : UserGlobalMailState) : Prop :=
  ∃ found, t'.getUserStates state.roleID [state.globalMailID] state.globalMailID = some found ∧
    found.serverID = state.serverID ∧ found.status = state.status ∧
    found.claimedLootIndexes = state.claimedLootIndexes ∧ found.claimTime = state.claimTime ∧
    found.deleteTime = state.deleteTime ∧ found.version = state.version ∧
    found.updateTime = state.updateTime ∧
    found.createTime = ((t.find? state.key).getD state).createTime

/-- The version is not the zero that means the default in a first insert, and a transition into deleted
brings no new version or update time. -/
def Carries (t : StateTable) (state : UserGlobalMailState) : Prop :=
  match t.find? state.key with
  | none => state.version ≠ 0
  | some row => state.status = .deleted → state.version = row.version ∧ state.updateTime = row.updateTime

theorem getUserStates_saveUserState (t : StateTable) (state : UserGlobalMailState) :
    (t.saveUserState state).getUserStates state.roleID [state.globalMailID] state.globalMailID =
      some (savedRow state (t.find? state.key)) := by
  rw [getUserStates_eq, if_pos (List.mem_singleton.mpr rfl), find?_saveUserState,
    if_pos (show (state.roleID, state.globalMailID) = state.key from rfl)]
  rfl

theorem readsBack_insert {t : StateTable} {state : UserGlobalMailState} (h : t.find? state.key = none) :
    ReadsBack t (t.saveUserState state) state ↔ state.version ≠ 0 := by
  simp only [ReadsBack, getUserStates_saveUserState, h, savedRow, insertedRow, Option.some.injEq,
    exists_eq_left', Option.getD_none, true_and, and_true]
  constructor
  · intro hv hzero
    rw [if_pos hzero, hzero] at hv
    exact absurd hv (by decide)
  · exact fun hv => if_neg hv

theorem readsBack_update {t : StateTable} {state row : UserGlobalMailState} (h : t.find? state.key = some row)
    (hlive : row.status ≠ .deleted) :
    ReadsBack t (t.saveUserState state) state ↔
      (state.status = .deleted → state.version = row.version ∧ state.updateTime = row.updateTime) := by
  simp only [ReadsBack, getUserStates_saveUserState, h, savedRow, updatedRow, preserveDeleted, if_neg hlive,
    Option.some.injEq, exists_eq_left', Option.getD_some, true_and, and_true]
  by_cases hstatus : state.status = .deleted
  · simp only [hstatus, if_true, true_imp_iff]
    constructor
    · exact fun hsame => ⟨hsame.1.symm, hsame.2.symm⟩
    · exact fun hsame => ⟨hsame.1.symm, hsame.2.symm⟩
  · simp [hstatus]

theorem saveUserState_reads_back (t : StateTable) (state : UserGlobalMailState) :
    (∀ k, k ≠ state.key → (t.saveUserState state).find? k = t.find? k) ∧
    (∀ row, t.find? state.key = some row → row.status = .deleted →
      (t.saveUserState state).find? state.key = some row) ∧
    ((∀ row, t.find? state.key = some row → row.status ≠ .deleted) →
      (ReadsBack t (t.saveUserState state) state ↔ Carries t state)) := by
  refine ⟨?_, ?_, ?_⟩
  · intro k hk
    rw [find?_saveUserState, if_neg hk]
  · intro row hrow hdeleted
    rw [find?_saveUserState, if_pos rfl, hrow, savedRow, updatedRow_of_deleted hdeleted]
  · intro hlive
    unfold Carries
    cases hrow : t.find? state.key with
    | none => exact readsBack_insert hrow
    | some row => exact readsBack_update hrow (hlive row hrow)

def savedUnread : UserGlobalMailState where
  roleID := 1
  serverID := 1
  globalMailID := 7
  status := .unread
  claimedLootIndexes := []
  claimTime := none
  deleteTime := none
  version := 1
  createTime := 10
  updateTime := 10

def savedDeleted : UserGlobalMailState :=
  { savedUnread with status := .deleted, deleteTime := some 20, version := 2, updateTime := 20 }

theorem deleted_keeps_version :
    ((saveUserState .empty savedUnread).saveUserState savedDeleted).getUserStates 1 [7] 7 =
        some { savedDeleted with version := 1, updateTime := 10 } ∧
      ¬ ReadsBack (saveUserState .empty savedUnread) ((saveUserState .empty savedUnread).saveUserState savedDeleted)
        savedDeleted := by
  have hfound : (saveUserState .empty savedUnread).find? savedDeleted.key = some savedUnread := by decide +kernel
  refine ⟨by decide +kernel, fun h => ?_⟩
  have hsame := (readsBack_update hfound (by decide)).mp h rfl
  exact absurd hsame.1 (by decide)

end StateTable

end GlobalMailSystem
