import GlobalMailSystem.DeliveredOnce
import GlobalMailSystem.PlayerService

namespace GlobalMailSystem.PlayerMail

open Transition

def listedItems (states : StateTable) (snapshot : CacheSnapshot) (profile : UserProfile) (now : Time) :
    List MailItem :=
  ((snapshot.visibleMails profile now).filterMap (mailItem states profile.roleID)).insertionSort
    fun a b => b.mail.id ≤ a.mail.id

theorem listGlobalMails_items (s : PlayerServer) (r : Readings) (profile : UserProfile) :
    (listGlobalMails s r profile).2 =
      listedItems (listGlobalMails s r profile).1.states (listGlobalMails s r profile).1.snapshot profile
        r.checkedAt := rfl

theorem mem_listedItems {states : StateTable} {snapshot : CacheSnapshot} {profile : UserProfile}
    {now : Time} {item : MailItem} (h : item ∈ listedItems states snapshot profile now) :
    mailItem states profile.roleID item.mail = some item := by
  rw [listedItems, List.mem_insertionSort] at h
  obtain ⟨mail, -, hitem⟩ := List.mem_filterMap.mp h
  rw [mailItem_mail hitem, hitem]

def HoldsDeleted (key : Int × Int) (row : UserGlobalMailState) (w : World) : Prop :=
  w.states.find? key = some row ∧ row.status = .deleted

theorem saveUserState_keeps_deleted {states : StateTable} {key : Int × Int} {row : UserGlobalMailState}
    (h : states.find? key = some row) (hdeleted : row.status = .deleted) (next : UserGlobalMailState) :
    (states.saveUserState next).find? key = some row := by
  rw [StateTable.find?_saveUserState]
  split_ifs with hkey
  · rw [h, StateTable.savedRow, StateTable.updatedRow_of_deleted hdeleted]
  · exact h

theorem holdsDeleted_step {key : Int × Int} {row : UserGlobalMailState} {w w' : World} {l : Label}
    (hw : HoldsDeleted key row w) (h : step w l = some w') : HoldsDeleted key row w' := by
  refine ⟨?_, hw.2⟩
  cases step_inv h with
  | addMail | install | start | getState | grant | stop => exact hw.1
  | @save c outcome request checkedAt read next hc =>
    cases outcome with
    | failed err => exact hw.1
    | ok => exact saveUserState_keeps_deleted hw.1 hw.2 next
    | lost err => exact saveUserState_keeps_deleted hw.1 hw.2 next

theorem not_listed_of_deleted {states : StateTable} {profile : UserProfile} {mailID : Int}
    {row : UserGlobalMailState} (h : states.find? (profile.roleID, mailID) = some row)
    (hdeleted : row.status = .deleted) {snapshot : CacheSnapshot} {now : Time} {item : MailItem}
    (hitem : item ∈ listedItems states snapshot profile now) : item.mail.id ≠ mailID := by
  rintro rfl
  have hsome := mem_listedItems hitem
  simp only [mailItem, h, if_pos hdeleted] at hsome
  cases hsome

theorem deletion_final (roleID mailID : Int) (row : UserGlobalMailState) (w w' : World)
    (ls : List Label) (hrow : w.states.find? (roleID, mailID) = some row)
    (hdeleted : row.status = .deleted) (hrun : run step w ls = some w') :
    w'.states.find? (roleID, mailID) = some row ∧
      ∀ (snapshot : CacheSnapshot) (profile : UserProfile) (now : Time), profile.roleID = roleID →
        ∀ item ∈ listedItems w'.states snapshot profile now, item.mail.id ≠ mailID := by
  have hheld : HoldsDeleted (roleID, mailID) row w' :=
    run_invariant (fun _ _ _ => holdsDeleted_step) ⟨hrow, hdeleted⟩ hrun
  refine ⟨hheld.1, ?_⟩
  rintro snapshot profile now rfl item hitem
  exact not_listed_of_deleted hheld.1 hdeleted hitem

def deletedDuringRead : World :=
  (run step init (opened ++ ([.start ⟨0, player, 10, .markRead⟩ 5 none, .getState 0 6 6 .ok,
    .start ⟨0, player, 10, .delete⟩ 7 none, .getState 1 8 8 .ok, .save 1 .ok] : List Label))).get (by decide)

theorem deletedDuringRead_final :
    ∃ row w', deletedDuringRead.states.find? (1, 10) = some row ∧ row.deleteTime = some 8 ∧
      run step deletedDuringRead [.save 0 .ok] = some w' ∧
      w'.states.find? (1, 10) = some row ∧
      ∀ (snapshot : CacheSnapshot) (profile : UserProfile) (now : Time), profile.roleID = 1 →
        ∀ item ∈ listedItems w'.states snapshot profile now, item.mail.id ≠ 10 := by
  have hrow : deletedDuringRead.states.find? (1, 10) =
      some ((deletedDuringRead.states.find? (1, 10)).get (by decide)) := (Option.some_get _).symm
  have hsave : run step deletedDuringRead [.save 0 .ok] =
      some ((run step deletedDuringRead [.save 0 .ok]).get (by decide)) := (Option.some_get _).symm
  exact ⟨_, _, hrow, by decide, hsave, deletion_final 1 10 _ _ _ _ hrow (by decide) hsave⟩

end GlobalMailSystem.PlayerMail
