import GlobalMailSystem.DeletedFinal

namespace GlobalMailSystem

namespace CacheSnapshot

theorem foldl_addToServer (mailID : Int) (serverIDs : List Int) (index : Int → List Int) (serverID : Int) :
    serverIDs.foldl (addToServer mailID) index serverID =
      index serverID ++ List.replicate (serverIDs.count serverID) mailID := by
  induction serverIDs generalizing index with
  | nil => simp
  | cons head rest ih =>
    rw [List.foldl_cons, ih]
    by_cases hs : head = serverID
    · simp [addToServer, hs, List.replicate_succ]
    · simp [addToServer, hs, Function.update_of_ne (Ne.symm hs)]

def namings (mail : GlobalMail) (serverID : Int) : Nat := (serverIDsFromConditions mail.conditions).count serverID

variable (version : Int) (mails : List GlobalMail) (builtAt : Time)

theorem build_mailIDsByServer (serverID : Int) :
    (build version mails builtAt).mailIDsByServer serverID =
      mails.flatMap fun mail => List.replicate (namings mail serverID) mail.id := by
  induction mails using List.reverseRecOn with
  | nil => rfl
  | append_singleton mails last ih =>
    rw [build_append, List.flatMap_append, List.flatMap_singleton, ← ih]
    exact foldl_addToServer last.id _ _ serverID

def candidacies (serverID : Int) (mail : GlobalMail) : Nat :=
  if mails.all fun other => namings other serverID = 0 then 1 else namings mail serverID

theorem candidateIDs_build (profile : UserProfile) :
    (build version mails builtAt).candidateIDs profile =
      mails.flatMap fun mail => List.replicate (candidacies mails profile.serverID mail) mail.id := by
  unfold candidateIDs candidacies
  have hnone : ((build version mails builtAt).mailIDsByServer profile.serverID).length = 0 ↔
      (mails.all fun other => namings other profile.serverID = 0) = true := by
    rw [List.length_eq_zero_iff, build_mailIDsByServer, List.flatMap_eq_nil_iff]
    simp
  by_cases hempty : (mails.all fun other => namings other profile.serverID = 0) = true
  · rw [if_pos (hnone.mpr hempty), build_activeMailIDs]
    simp only [if_pos hempty, List.replicate_one]
    rw [← List.map_eq_flatMap]
  · rw [if_neg fun h => hempty (hnone.mp h), build_mailIDsByServer]
    simp only [if_neg hempty]

theorem candidacies_le_one {serverID : Int} {mail : GlobalMail} (hmail : mail ∈ mails) :
    candidacies mails serverID mail ≤ 1 ↔ namings mail serverID ≤ 1 := by
  unfold candidacies
  split_ifs with hall
  · have hzero : namings mail serverID = 0 := by simpa using List.all_eq_true.mp hall mail hmail
    omega
  · rfl

end CacheSnapshot

namespace PlayerMail

open CacheSnapshot

variable {states : StateTable} {profile : UserProfile} {now : Time}

def NotDeleted (states : StateTable) (roleID : Int) (mail : GlobalMail) : Prop :=
  ∀ state, states.find? (roleID, mail.id) = some state → state.status ≠ .deleted

theorem mailItem_isSome {roleID : Int} {mail : GlobalMail} :
    (mailItem states roleID mail).isSome ↔ NotDeleted states roleID mail := by
  unfold mailItem NotDeleted
  cases states.find? (roleID, mail.id) with
  | none => simp
  | some state => by_cases hdeleted : state.status = .deleted <;> simp [hdeleted]

def listed? (states : StateTable) (snapshot : CacheSnapshot) (profile : UserProfile) (now : Time) (mailID : Int) :
    Option MailItem :=
  (snapshot.visible? profile now mailID).bind (mailItem states profile.roleID)

theorem listed?_id {version : Int} {mails : List GlobalMail} {builtAt : Time} {mailID : Int} {item : MailItem}
    (h : listed? states (build version mails builtAt) profile now mailID = some item) : item.mail.id = mailID := by
  obtain ⟨mail, hvisible, hitem⟩ := Option.bind_eq_some_iff.mp h
  rw [mailItem_mail hitem]
  exact (build_mailsByID_mem (visible?_build.mp hvisible).1).2

theorem listed?_eq_some {version : Int} {mails : List GlobalMail} {builtAt : Time}
    (hids : (mails.map (·.id)).Nodup) {mail : GlobalMail} (hmail : mail ∈ mails) {item : MailItem} :
    listed? states (build version mails builtAt) profile now mail.id = some item ↔
      mail.Eligible profile now ∧ mailItem states profile.roleID mail = some item := by
  have hfound : (build version mails builtAt).mailsByID mail.id = some mail :=
    (build_mailsByID hids).mpr ⟨hmail, rfl⟩
  simp only [listed?, Option.bind_eq_some_iff, visible?_build, hfound, Option.some.injEq]
  constructor
  · rintro ⟨other, ⟨rfl, heligible⟩, hitem⟩
    exact ⟨heligible, hitem⟩
  · rintro ⟨heligible, hitem⟩
    exact ⟨mail, ⟨rfl, heligible⟩, hitem⟩

theorem listed?_isSome {version : Int} {mails : List GlobalMail} {builtAt : Time}
    (hids : (mails.map (·.id)).Nodup) {mail : GlobalMail} (hmail : mail ∈ mails) :
    (listed? states (build version mails builtAt) profile now mail.id).isSome ↔
      mail.Eligible profile now ∧ NotDeleted states profile.roleID mail := by
  simp only [← mailItem_isSome, Option.isSome_iff_exists, listed?_eq_some hids hmail, exists_and_left]

section Listed

variable {version : Int} {mails : List GlobalMail} {builtAt : Time}

theorem listedItems_perm :
    ((listedItems states (build version mails builtAt) profile now).map (·.mail.id)).Perm
      (((build version mails builtAt).candidateIDs profile).filter fun mailID =>
        (listed? states (build version mails builtAt) profile now mailID).isSome) := by
  apply ((List.perm_insertionSort _ _).map _).trans
  rw [visibleMails, List.filterMap_filterMap, List.map_filterMap, ← List.filterMap_eq_filter]
  apply List.Perm.of_eq
  congr 1
  funext mailID
  change (listed? states (build version mails builtAt) profile now mailID).map _ = _
  cases hlisted : listed? states (build version mails builtAt) profile now mailID with
  | none => simp [Option.guard, hlisted]
  | some item => simp [Option.guard, hlisted, listed?_id hlisted]

theorem mem_ite_replicate {listed : Bool} {n : Nat} {mailID other : Int}
    (h : other ∈ if listed = true then List.replicate n mailID else []) : other = mailID := by
  cases listed with
  | false => cases h
  | true => exact List.eq_of_mem_replicate h

theorem listedIDs_nodup (hids : (mails.map (·.id)).Nodup) :
    ((listedItems states (build version mails builtAt) profile now).map (·.mail.id)).Nodup ↔
      ∀ mail ∈ mails, mail.Eligible profile now → NotDeleted states profile.roleID mail →
        namings mail profile.serverID ≤ 1 := by
  rw [listedItems_perm.nodup_iff, candidateIDs_build, List.filter_flatMap, List.nodup_flatMap]
  simp only [List.filter_replicate]
  have hdisjoint : mails.Pairwise (Function.onFun List.Disjoint fun mail =>
      if (listed? states (build version mails builtAt) profile now mail.id).isSome then
        List.replicate (candidacies mails profile.serverID mail) mail.id else []) := by
    apply (List.pairwise_map.mp hids).imp
    intro a b hne mailID ha hb
    exact hne ((mem_ite_replicate ha).symm.trans (mem_ite_replicate hb))
  simp only [hdisjoint, and_true]
  apply forall₂_congr
  intro mail hmail
  have hlisted : (listed? states (build version mails builtAt) profile now mail.id).isSome ↔ _ :=
    listed?_isSome hids hmail
  rw [← candidacies_le_one mails hmail, ← and_imp, ← hlisted]
  split_ifs with hsome
  · simp [hsome, List.nodup_replicate]
  · simp [hsome]

theorem listedItems_sorted (snapshot : CacheSnapshot) :
    ((listedItems states snapshot profile now).map (·.mail.id)).Pairwise (· ≥ ·) := by
  rw [listedItems, List.map_insertionSort _ (· ≥ ·)]
  · exact List.pairwise_insertionSort _ _
  · exact fun a _ b _ => Iff.rfl

theorem listedIDs_decreasing (snapshot : CacheSnapshot) :
    ((listedItems states snapshot profile now).map (·.mail.id)).Pairwise (· > ·) ↔
      ((listedItems states snapshot profile now).map (·.mail.id)).Nodup := by
  constructor
  · exact fun h => h.imp fun hlt => ne_of_gt hlt
  · intro hnodup
    apply ((listedItems_sorted snapshot).and hnodup).imp
    exact fun h => lt_of_le_of_ne h.1 (Ne.symm h.2)

end Listed

theorem mailItem_state {roleID : Int} {mail : GlobalMail} {item : MailItem}
    (h : mailItem states roleID mail = some item) :
    match states.find? (roleID, mail.id) with
    | none => item.status = .unread ∧ item.claimedLootIndexes = []
    | some state => item.status = state.status ∧ item.claimedLootIndexes = state.claimedLootIndexes := by
  unfold mailItem at h
  cases hstate : states.find? (roleID, mail.id) with
  | none =>
    rw [hstate, Option.some.injEq] at h
    rw [← h]
    exact ⟨rfl, rfl⟩
  | some state =>
    simp only [hstate] at h
    split_ifs at h
    rw [← Option.some.inj h]
    exact ⟨rfl, rfl⟩

theorem mail_list_ordered (s : PlayerServer) (r : Readings) (profile : UserProfile) (version : Int)
    (mails : List GlobalMail) (builtAt : Time)
    (hbuilt : (s.refreshIfStale r.refreshedAt r.token).snapshot = .build version mails builtAt)
    (hids : (mails.map (·.id)).Nodup) :
    let items := (listGlobalMails s r profile).2
    let visible := (s.refreshIfStale r.refreshedAt r.token).snapshot.visibleMails profile r.checkedAt
    (((items.map (·.mail.id)).Pairwise (· > ·) ∧
        ∀ mail ∈ visible, NotDeleted s.states profile.roleID mail → (items.map (·.mail.id)).count mail.id = 1) ↔
      ∀ mail ∈ mails, mail.Eligible profile r.checkedAt → NotDeleted s.states profile.roleID mail →
        namings mail profile.serverID ≤ 1) ∧
    ∀ item ∈ items, item.mail ∈ visible ∧ NotDeleted s.states profile.roleID item.mail ∧
      match s.states.find? (profile.roleID, item.mail.id) with
      | none => item.status = .unread ∧ item.claimedLootIndexes = []
      | some state => item.status = state.status ∧ item.claimedLootIndexes = state.claimedLootIndexes := by
  intro items visible
  have hitems : items = listedItems s.states (build version mails builtAt) profile r.checkedAt := by
    rw [← hbuilt]
    rfl
  refine ⟨?_, ?_⟩
  · rw [← @listedIDs_nodup s.states profile r.checkedAt version mails builtAt hids, hitems, listedIDs_decreasing]
    refine ⟨And.left, fun hnodup => ⟨hnodup, fun mail hmail hlive => ?_⟩⟩
    apply List.count_eq_one_of_mem hnodup
    obtain ⟨item, hitem⟩ := Option.isSome_iff_exists.mp (mailItem_isSome.mpr hlive)
    refine List.mem_map.mpr ⟨item, ?_, by rw [mailItem_mail hitem]⟩
    rw [listedItems, List.mem_insertionSort, ← hbuilt]
    exact List.mem_filterMap.mpr ⟨mail, hmail, hitem⟩
  · intro item hitem
    rw [hitems, ← hbuilt] at hitem
    have hstate := mem_listedItems hitem
    rw [listedItems, List.mem_insertionSort] at hitem
    obtain ⟨mail, hmail, hfrom⟩ := List.mem_filterMap.mp hitem
    refine ⟨by rw [mailItem_mail hfrom]; exact hmail, ?_, mailItem_state hstate⟩
    exact mailItem_isSome.mp (Option.isSome_iff_exists.mpr ⟨item, hstate⟩)

def namedOnce : GlobalMail :=
  { (default : GlobalMail) with
    id := 20, startTime := 0, expireTime := 90 * minute, status := .published
    conditions := [⟨1, 20, "server", "in", .value (.arr [.int 0])⟩] }

def namedTwice : GlobalMail :=
  { namedOnce with
    conditions := [⟨1, 20, "server", "in", .value (.arr [.int 0])⟩, ⟨2, 20, "server_id", "eq", .value (.int 0)⟩] }

def otherMail : GlobalMail := { namedOnce with id := 21, conditions := [⟨3, 21, "server", "in", .value (.arr [.int 0])⟩] }

def listingServer (mails : List GlobalMail) : PlayerServer :=
  ⟨.empty, .empty, .build 1 mails 0, .empty, .empty, 1, mails, 0, rfl⟩

def listedIDs (mails : List GlobalMail) : List Int :=
  (listGlobalMails (listingServer mails) ⟨1, 9, 1, 1, fun _ => 1, fun _ => 1⟩ default).2.map (·.mail.id)

theorem namedOnce_ordered : 20 ∈ listedIDs [namedOnce, otherMail] ∧ 21 ∈ listedIDs [namedOnce, otherMail] ∧
    (listedIDs [namedOnce, otherMail]).Pairwise (· > ·) := by
  have hordered := (mail_list_ordered (listingServer [namedOnce, otherMail]) ⟨1, 9, 1, 1, fun _ => 1, fun _ => 1⟩
    default 1 [namedOnce, otherMail] 0 rfl (by decide)).1.mpr ?_
  · exact ⟨by decide +kernel, by decide +kernel, hordered.1⟩
  · intro mail hmail _ _
    rcases List.mem_pair.mp hmail with rfl | rfl
    · decide
    · decide

theorem namedTwice_repeated : listedIDs [namedTwice] = [20, 20] := by
  decide +kernel

end PlayerMail

end GlobalMailSystem
