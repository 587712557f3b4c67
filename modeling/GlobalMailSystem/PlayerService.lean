import GlobalMailSystem.LocalCache
import GlobalMailSystem.PlayerMachine

/-!
The calls of `PlayerMailService`, each as a whole: no other call interferes and no repository call
fails.
-/

namespace GlobalMailSystem

def grantGlobalMailReward (t : Rewards) (grant : RewardGrant) (now serverNow : Time) : Rewards × Bool :=
  let grant := GrantPC.pendingGrant grant now
  let reserved := t.reserveGlobalMailReward grant serverNow
  if reserved.2 then
    let granted := reserved.1.grantBackpackReward (GrantPC.backpackGrant grant now)
    (granted.1.markGlobalMailRewardSucceeded grant.grantKey granted.2.1 now, true)
  else (reserved.1, false)

structure Readings where
  refreshedAt : Time
  token : Int
  checkedAt : Time
  appliedAt : Time
  grantedAt : Int → Time
  storedAt : Int → Time

/-- What one player server works on; its snapshot is always one a refresh has built. -/
structure PlayerServer where
  mails : Table GlobalMail.id
  cache : SharedCache
  snapshot : CacheSnapshot
  states : StateTable
  rewards : Rewards
  built : ∃ version mails now, snapshot = .build version mails now

namespace PlayerServer

theorem refreshIfStale_built (s : PlayerServer) (now : Time) (token : Int) :
    ∃ version mails builtAt,
      (LocalCache.refreshIfStale s.mails s.cache s.snapshot now token).2 = .build version mails builtAt := by
  simp only [LocalCache.refreshIfStale]
  split_ifs
  · exact s.built
  · exact ⟨_, _, _, rfl⟩

def refreshIfStale (s : PlayerServer) (now : Time) (token : Int) : PlayerServer :=
  let refreshed := LocalCache.refreshIfStale s.mails s.cache s.snapshot now token
  { s with cache := refreshed.1, snapshot := refreshed.2, built := s.refreshIfStale_built now token }

end PlayerServer

namespace PlayerMail

structure MailItem where
  mail : GlobalMail
  status : UserMailStatus
  claimedLootIndexes : List Int
  state : Option UserGlobalMailState

def mailItem (states : StateTable) (roleID : Int) (mail : GlobalMail) : Option MailItem :=
  match states.find? (roleID, mail.id) with
  | none => some ⟨mail, .unread, [], none⟩
  | some state =>
    if state.status = .deleted then none
    else some ⟨mail, state.status, state.claimedLootIndexes, some state⟩

theorem mailItem_mail {states : StateTable} {roleID : Int} {mail : GlobalMail} {item : MailItem}
    (h : mailItem states roleID mail = some item) : item.mail = mail := by
  unfold mailItem at h
  split at h
  · cases h; rfl
  · split_ifs at h
    cases h; rfl

def listGlobalMails (s : PlayerServer) (r : Readings) (profile : UserProfile) :
    PlayerServer × List MailItem :=
  let s := s.refreshIfStale r.refreshedAt r.token
  let items := (s.snapshot.visibleMails profile r.checkedAt).filterMap (mailItem s.states profile.roleID)
  (s, items.insertionSort fun a b => b.mail.id ≤ a.mail.id)

def grantRewards (profile : UserProfile) (mail : GlobalMail) (mailID : Int) (r : Readings) :
    Rewards → List Int → Rewards × Except String Unit
  | t, [] => (t, .ok ())
  | t, index :: rest =>
    match lootAtIndex mail.loots index with
    | .error err => (t, .error err)
    | .ok loot =>
      let granted := grantGlobalMailReward t (rewardGrant profile mailID index loot r.appliedAt)
        (r.grantedAt index) (r.storedAt index)
      grantRewards profile mail mailID r granted.1 rest

def applyOp (profile : UserProfile) (mail : GlobalMail) (mailID : Int) (r : Readings) (t : Rewards)
    (state : UserGlobalMailState) : Op → Rewards × Except String UserGlobalMailState
  | .markRead => (t, .ok (markedRead r.appliedAt state))
  | .claim lootIndexes =>
    if state.status = .deleted then (t, .ok state)
    else
      match grantRewards profile mail mailID r t
          (newLootIndexes state.claimedLootIndexes lootIndexes) with
      | (t', .error err) => (t', .error err)
      | (t', .ok _) => (t', .ok (claimed r.appliedAt lootIndexes state))
  | .delete => (t, .ok (deleted r.appliedAt state))

def updateVisible (states : StateTable) (t : Rewards) (r : Readings) (profile : UserProfile)
    (mail : GlobalMail) (mailID : Int) (op : Op) :
    StateTable × Rewards × Except String UserGlobalMailState :=
  match applyOp profile mail mailID r t (readState states profile mailID r.appliedAt) op with
  | (t', .error err) => (states, t', .error err)
  | (t', .ok next) =>
    let next := stamped r.appliedAt next
    (states.saveUserState next, t', .ok next)

def updateGlobalMailState (s : PlayerServer) (r : Readings) (profile : UserProfile) (mailID : Int)
    (op : Op) : PlayerServer × Except String UserGlobalMailState :=
  let s := s.refreshIfStale r.refreshedAt r.token
  match visibleMail s.snapshot profile r.checkedAt mailID with
  | none => (s, .error errMailNotVisible)
  | some mail =>
    let updated := updateVisible s.states s.rewards r profile mail mailID op
    ({ s with states := updated.1, rewards := updated.2.1 }, updated.2.2)

def markGlobalMailRead (s : PlayerServer) (r : Readings) (profile : UserProfile) (mailID : Int) :
    PlayerServer × Except String UserGlobalMailState :=
  updateGlobalMailState s r profile mailID .markRead

def claimGlobalMail (s : PlayerServer) (r : Readings) (profile : UserProfile) (mailID : Int)
    (lootIndexes : List Int) : PlayerServer × Except String UserGlobalMailState :=
  updateGlobalMailState s r profile mailID (.claim lootIndexes)

def deleteGlobalMail (s : PlayerServer) (r : Readings) (profile : UserProfile) (mailID : Int) :
    PlayerServer × Except String UserGlobalMailState :=
  updateGlobalMailState s r profile mailID .delete

section Machine

open Transition

def Undisturbed (c : Nat) (l : Label) : Prop :=
  (∃ now grantNow, l = .getState c now grantNow .ok) ∨
    (∃ serverNow grantNow, l = .grant c serverNow grantNow .ok) ∨ l = .save c .ok

variable {w : World} {c : Nat} (hc : c < w.calls.length) {request : Request} {checkedAt : Time}
include hc

theorem save_reaches (read next : UserGlobalMailState) :
    Reaches step (Undisturbed c) (w.setCall c ⟨request, checkedAt, .save read next⟩)
      ({ w with states := w.states.saveUserState next }.setCall c
        ⟨request, checkedAt, .returned (.ok next)⟩) := by
  refine Reaches.head (Or.inr (Or.inr rfl)) ?_ (Reaches.refl _)
  simp [step, World.setCall, List.getElem?_set_self hc, saveResult]

theorem grantStep_reaches {mail : GlobalMail} {read : UserGlobalMailState} {now : Time}
    (serverNow grantNow : Time) {lootIndexes : List Int} {index : Int} {rest : List Int}
    {t t' : Rewards} {pc pc' : GrantPC} (h : pc.step t serverNow .ok = some (t', pc')) {u : World}
    (hu : Reaches step (Undisturbed c) ({ w with rewards := t' }.setCall c
      ⟨request, checkedAt, grantPC request mail read now grantNow lootIndexes index rest pc'⟩) u) :
    Reaches step (Undisturbed c) ({ w with rewards := t }.setCall c
      ⟨request, checkedAt, .grant mail read now lootIndexes index rest pc⟩) u := by
  refine Reaches.head (Or.inr (Or.inl ⟨serverNow, grantNow, rfl⟩)) ?_ hu
  simp [step, World.setCall, List.getElem?_set_self hc, h]

theorem grant_reaches (mail : GlobalMail) (read : UserGlobalMailState)
    (now serverNow grantNow next : Time) (lootIndexes : List Int) (index : Int) (rest : List Int)
    (grant : RewardGrant) (t : Rewards) :
    Reaches step (Undisturbed c)
      ({ w with rewards := t }.setCall c
        ⟨request, checkedAt, .grant mail read now lootIndexes index rest (.start grant grantNow)⟩)
      ({ w with rewards := (grantGlobalMailReward t grant grantNow serverNow).1 }.setCall c
        ⟨request, checkedAt, claimPC request mail read now next lootIndexes rest⟩) := by
  obtain ⟨reserved, added, hreserved⟩ : ∃ reserved added,
      t.reserveGlobalMailReward (GrantPC.pendingGrant grant grantNow) serverNow =
        (reserved, added) := ⟨_, _, rfl⟩
  cases added with
  | false =>
    have hstep : (GrantPC.start grant grantNow).step t serverNow .ok =
        some (reserved, .returned (GrantPC.pendingGrant grant grantNow).grantKey (.ok false)) := by
      simp [GrantPC.start, GrantPC.step, hreserved]
    simp only [grantGlobalMailReward, hreserved]
    exact grantStep_reaches hc serverNow next hstep (Reaches.refl _)
  | true =>
    have hstep : (GrantPC.start grant grantNow).step t serverNow .ok =
        some (reserved, .backpack (GrantPC.pendingGrant grant grantNow) grantNow) := by
      simp [GrantPC.start, GrantPC.step, hreserved]
    simp only [grantGlobalMailReward, hreserved, if_true]
    apply grantStep_reaches hc serverNow next hstep
    apply grantStep_reaches hc serverNow next rfl
    apply grantStep_reaches hc serverNow next rfl
    exact Reaches.refl _

def nextGrantTime (r : Readings) : List Int → Time
  | [] => r.appliedAt
  | index :: _ => r.grantedAt index

def claimEnd (read : UserGlobalMailState) (r : Readings) (lootIndexes : List Int) :
    Except String Unit → CallPC
  | .error err => .returned (.error err)
  | .ok _ => .save read (stamped r.appliedAt (claimed r.appliedAt lootIndexes read))

theorem grantRewards_reaches (mail : GlobalMail) (read : UserGlobalMailState) (r : Readings)
    (lootIndexes indexes : List Int) (t : Rewards) :
    Reaches step (Undisturbed c)
      ({ w with rewards := t }.setCall c ⟨request, checkedAt, claimPC request mail read r.appliedAt
        (nextGrantTime r indexes) lootIndexes indexes⟩)
      ({ w with rewards := (grantRewards request.profile mail request.mailID r t indexes).1 }.setCall c
        ⟨request, checkedAt, claimEnd read r lootIndexes
          (grantRewards request.profile mail request.mailID r t indexes).2⟩) := by
  induction indexes generalizing t with
  | nil => exact Reaches.refl _
  | cons index rest ih =>
    cases hloot : lootAtIndex mail.loots index with
    | error err =>
      simp only [grantRewards, claimPC, hloot]
      exact Reaches.refl _
    | ok loot =>
      simp only [grantRewards, claimPC, hloot]
      exact (grant_reaches hc _ _ _ (r.storedAt index) _ (nextGrantTime r rest) _ _ _ _ t).trans (ih _)

theorem readState_reaches (mail : GlobalMail) (now grantNow : Time) {u : World}
    (hu : Reaches step (Undisturbed c) (w.setCall c ⟨request, checkedAt, applyPC request mail
      (readState w.states request.profile request.mailID now) now grantNow⟩) u) :
    Reaches step (Undisturbed c) (w.setCall c ⟨request, checkedAt, .readState mail⟩) u := by
  refine Reaches.head (Or.inl ⟨now, grantNow, rfl⟩) ?_ hu
  simp [step, World.setCall, List.getElem?_set_self hc, readPC]

theorem updateVisible_reaches (mail : GlobalMail) (r : Readings) :
    Reaches step (Undisturbed c) (w.setCall c ⟨request, checkedAt, .readState mail⟩)
      ({ w with
          states := (updateVisible w.states w.rewards r request.profile mail request.mailID request.op).1
          rewards :=
            (updateVisible w.states w.rewards r request.profile mail request.mailID request.op).2.1 }.setCall
        c ⟨request, checkedAt, .returned
          (updateVisible w.states w.rewards r request.profile mail request.mailID request.op).2.2⟩) := by
  cases hop : request.op with
  | markRead =>
    apply readState_reaches hc mail r.appliedAt r.appliedAt
    simp only [applyPC, hop]
    exact save_reaches hc _ _
  | delete =>
    apply readState_reaches hc mail r.appliedAt r.appliedAt
    simp only [applyPC, hop]
    exact save_reaches hc _ _
  | claim lootIndexes =>
    apply readState_reaches hc mail r.appliedAt (nextGrantTime r (newLootIndexes
      (readState w.states request.profile request.mailID r.appliedAt).claimedLootIndexes lootIndexes))
    simp only [applyPC, updateVisible, applyOp, hop]
    split_ifs with hdeleted
    · exact save_reaches hc _ _
    · apply (grantRewards_reaches hc mail _ r lootIndexes _ w.rewards).trans
      cases hgranted : grantRewards request.profile mail request.mailID r w.rewards (newLootIndexes
          (readState w.states request.profile request.mailID r.appliedAt).claimedLootIndexes
          lootIndexes) with
      | mk t' result =>
        cases result with
        | error err => exact Reaches.refl _
        | ok done => exact save_reaches (w := { w with rewards := t' }) hc _ _

end Machine

end PlayerMail

end GlobalMailSystem
