import GlobalMailSystem.MailCommands

namespace GlobalMailSystem.MailCommands

open Rpc PlayerMail

def withProfile (profile : Option Rpc.UserProfile) : Payload → Payload
  | .listGlobalMailsRequest _ => .listGlobalMailsRequest profile
  | .globalMailStateRequest _ mailID => .globalMailStateRequest profile mailID
  | .claimGlobalMailRequest _ mailID lootIndexes => .claimGlobalMailRequest profile mailID lootIndexes
  | .otherMessage => .otherMessage

def requestWith (req : CommandRequest) (profile : Option Rpc.UserProfile) : CommandRequest :=
  { req with payload := req.payload.map (withProfile profile) }

def commandProfile (req : CommandRequest) (profile : Option Rpc.UserProfile) :
    GlobalMailSystem.UserProfile :=
  toDomainProfile (ensureCommandProfile req profile)

theorem commandProfile_roleID (req : CommandRequest) (profile : Option Rpc.UserProfile) :
    (commandProfile req profile).roleID = req.roleID := by
  cases profile <;> rfl

theorem commandProfile_serverID (req : CommandRequest) (profile : Option Rpc.UserProfile) :
    (commandProfile req profile).serverID = req.serverID := by
  cases profile <;> rfl

def openMails (snapshot : CacheSnapshot) (profile : GlobalMailSystem.UserProfile) (now : Time) :
    List GlobalMail :=
  ((snapshot.candidateIDs profile).filterMap snapshot.mailsByID).filter fun mail =>
    mail.status = .published ∧ mail.inWindow now

def matchesProfile (profile : GlobalMailSystem.UserProfile) (mail : GlobalMail) : Bool :=
  conditionsMatch (compileConditions mail.conditions) profile

section Visible

variable {s : PlayerServer} {profile : GlobalMailSystem.UserProfile} {now : Time} {mail : GlobalMail}

theorem mem_openMails :
    mail ∈ openMails s.snapshot profile now ↔
      mail.id ∈ s.snapshot.candidateIDs profile ∧ s.snapshot.mailsByID mail.id = some mail ∧
        mail.status = .published ∧ mail.inWindow now := by
  obtain ⟨version, mails, builtAt, hbuilt⟩ := s.built
  simp only [openMails, List.mem_filter, List.mem_filterMap, decide_eq_true_eq]
  constructor
  · rintro ⟨⟨id, hid, hmail⟩, hopen⟩
    rw [hbuilt] at hmail
    obtain rfl := (CacheSnapshot.build_mailsByID_mem hmail).2
    rw [← hbuilt] at hmail
    exact ⟨hid, hmail, hopen⟩
  · rintro ⟨hid, hmail, hopen⟩
    exact ⟨⟨mail.id, hid, hmail⟩, hopen⟩

theorem openMails_unique {other : GlobalMail} (hm : mail ∈ openMails s.snapshot profile now)
    (ho : other ∈ openMails s.snapshot profile now) (hid : mail.id = other.id) : mail = other := by
  have hmail := (mem_openMails.mp hm).2.1
  have hother := (mem_openMails.mp ho).2.1
  rw [hid, hother] at hmail
  exact (Option.some.inj hmail).symm

theorem visible?_eq_some_iff {id : Int} (hid : id ∈ s.snapshot.candidateIDs profile) :
    s.snapshot.visible? profile now id = some mail ↔
      mail ∈ openMails s.snapshot profile now ∧ mail.id = id ∧ matchesProfile profile mail = true := by
  rw [mem_openMails]
  obtain ⟨version, mails, builtAt, hbuilt⟩ := s.built
  rw [hbuilt] at hid ⊢
  rw [CacheSnapshot.visible?_build, GlobalMail.Eligible]
  constructor
  · rintro ⟨hmail, hstatus, hwindow, hmatch⟩
    obtain rfl := (CacheSnapshot.build_mailsByID_mem hmail).2
    exact ⟨⟨hid, hmail, hstatus, hwindow⟩, rfl, hmatch⟩
  · rintro ⟨⟨_, hmail, hstatus, hwindow⟩, rfl, hmatch⟩
    exact ⟨hmail, hstatus, hwindow, hmatch⟩

theorem mem_visibleMails :
    mail ∈ s.snapshot.visibleMails profile now ↔
      mail ∈ openMails s.snapshot profile now ∧ matchesProfile profile mail = true := by
  simp only [CacheSnapshot.visibleMails, List.mem_filterMap]
  constructor
  · rintro ⟨id, hid, hvisible⟩
    obtain ⟨hopen, _, hmatch⟩ := (visible?_eq_some_iff hid).mp hvisible
    exact ⟨hopen, hmatch⟩
  · rintro ⟨hopen, hmatch⟩
    have hid := (mem_openMails.mp hopen).1
    exact ⟨mail.id, hid, (visible?_eq_some_iff hid).mpr ⟨hopen, rfl, hmatch⟩⟩

theorem visibleMail_eq_some {mailID : Int} :
    visibleMail s.snapshot profile now mailID = some mail ↔
      mail ∈ openMails s.snapshot profile now ∧ mail.id = mailID ∧ matchesProfile profile mail = true := by
  unfold visibleMail
  constructor
  · intro h
    obtain ⟨hopen, hmatch⟩ := mem_visibleMails.mp (List.mem_of_find?_eq_some h)
    exact ⟨hopen, by simpa using List.find?_some h, hmatch⟩
  · rintro ⟨hopen, rfl, hmatch⟩
    cases hfind : (s.snapshot.visibleMails profile now).find? fun m => m.id = mail.id with
    | none =>
      have hnone := List.find?_eq_none.mp hfind mail (mem_visibleMails.mpr ⟨hopen, hmatch⟩)
      simp at hnone
    | some found =>
      obtain ⟨hfound, _⟩ := mem_visibleMails.mp (List.mem_of_find?_eq_some hfind)
      have hid : found.id = mail.id := by simpa using List.find?_some hfind
      rw [openMails_unique hfound hopen hid]

end Visible

section Identity

variable {p q : GlobalMailSystem.UserProfile} (hrole : p.roleID = q.roleID)
  (hserver : p.serverID = q.serverID)

include hserver

theorem openMails_congr (snapshot : CacheSnapshot) (now : Time) :
    openMails snapshot p now = openMails snapshot q now := by
  simp only [openMails, CacheSnapshot.candidateIDs, hserver]

theorem visibleMail_eq_iff (s : PlayerServer) (now : Time) (mailID : Int) :
    visibleMail s.snapshot p now mailID = visibleMail s.snapshot q now mailID ↔
      ∀ mail ∈ openMails s.snapshot p now, mail.id = mailID →
        matchesProfile p mail = matchesProfile q mail := by
  have hopen := openMails_congr hserver s.snapshot now
  constructor
  · intro h mail hm hid
    rw [Bool.eq_iff_iff]
    constructor
    · intro hmatch
      have hvisible := visibleMail_eq_some.mpr ⟨hm, hid, hmatch⟩
      rw [h] at hvisible
      exact (visibleMail_eq_some.mp hvisible).2.2
    · intro hmatch
      have hvisible := visibleMail_eq_some.mpr ⟨hopen ▸ hm, hid, hmatch⟩
      rw [← h] at hvisible
      exact (visibleMail_eq_some.mp hvisible).2.2
  · intro h
    apply Option.ext
    intro mail
    rw [visibleMail_eq_some, visibleMail_eq_some, ← hopen]
    constructor
    · rintro ⟨hm, hid, hmatch⟩
      exact ⟨hm, hid, (h mail hm hid).symm.trans hmatch⟩
    · rintro ⟨hm, hid, hmatch⟩
      exact ⟨hm, hid, (h mail hm hid).trans hmatch⟩

include hrole

theorem grantRewards_congr (mail : GlobalMail) (mailID : Int) (r : Readings) (t : Rewards)
    (indexes : List Int) :
    grantRewards p mail mailID r t indexes = grantRewards q mail mailID r t indexes := by
  induction indexes generalizing t with
  | nil => rfl
  | cons index rest ih =>
    simp only [grantRewards, rewardGrant, hrole, hserver, ih]

theorem updateVisible_congr (states : StateTable) (t : Rewards) (r : Readings) (mail : GlobalMail)
    (mailID : Int) (op : Op) :
    updateVisible states t r p mail mailID op = updateVisible states t r q mail mailID op := by
  have hread : readState states p mailID r.appliedAt = readState states q mailID r.appliedAt := by
    simp only [readState, initialState, hrole, hserver]
  have happly : ∀ state, applyOp p mail mailID r t state op = applyOp q mail mailID r t state op := by
    intro state
    cases op with
    | markRead => rfl
    | claim lootIndexes => simp only [applyOp, grantRewards_congr hrole hserver]
    | delete => rfl
  simp only [updateVisible, hread, happly]

end Identity

theorem lootAtIndex_error (loots : RawMessage) (index : Int) :
    lootAtIndex loots index ≠ .error errMailNotVisible := by
  have hindex (text : String) : "loot index " ++ text ≠ errMailNotVisible := by
    intro h
    have hhead := congrArg (fun s => s.toList.head?) h
    simp [errMailNotVisible] at hhead
  unfold lootAtIndex
  split_ifs
  · intro h
    rw [String.append_assoc] at h
    exact hindex _ (Except.error.inj h)
  · split
    · exact fun h => by cases h
    · split
      · intro h
        exact absurd (Except.error.inj h) (by decide)
      · split
        · intro h
          rw [String.append_assoc] at h
          exact hindex _ (Except.error.inj h)
        · exact fun h => by cases h

theorem grantRewards_error (profile : GlobalMailSystem.UserProfile) (mail : GlobalMail) (mailID : Int)
    (r : Readings) (t : Rewards) (indexes : List Int) :
    (grantRewards profile mail mailID r t indexes).2 ≠ .error errMailNotVisible := by
  induction indexes generalizing t with
  | nil => exact fun h => by cases h
  | cons index rest ih =>
    have hloot := lootAtIndex_error mail.loots index
    simp only [grantRewards]
    split
    · rename_i err herr
      intro h
      rw [Except.error.inj h] at herr
      exact hloot herr
    · exact ih _

theorem applyOp_error (profile : GlobalMailSystem.UserProfile) (mail : GlobalMail) (mailID : Int)
    (r : Readings) (t : Rewards) (state : UserGlobalMailState) (op : Op) :
    (applyOp profile mail mailID r t state op).2 ≠ .error errMailNotVisible := by
  cases op with
  | markRead => exact fun h => by cases h
  | delete => exact fun h => by cases h
  | claim lootIndexes =>
    have hgranted := grantRewards_error profile mail mailID r t
      (newLootIndexes state.claimedLootIndexes lootIndexes)
    simp only [applyOp]
    split_ifs
    · exact fun h => by cases h
    · split
      · rename_i t' err herr
        rw [herr] at hgranted
        exact fun h => hgranted (congrArg _ (Except.error.inj h))
      · exact fun h => by cases h

theorem updateVisible_error (states : StateTable) (t : Rewards) (r : Readings)
    (profile : GlobalMailSystem.UserProfile) (mail : GlobalMail) (mailID : Int) (op : Op) :
    (updateVisible states t r profile mail mailID op).2.2 ≠ .error errMailNotVisible := by
  have happlied := applyOp_error profile mail mailID r t
    (readState states profile mailID r.appliedAt) op
  simp only [updateVisible]
  split
  · rename_i t' err herr
    rw [herr] at happlied
    exact fun h => happlied (congrArg _ (Except.error.inj h))
  · exact fun h => by cases h

def Listed (s : PlayerServer) (profile : GlobalMailSystem.UserProfile) (now : Time) (id : Int) : Prop :=
  ∃ mail ∈ openMails s.snapshot profile now, matchesProfile profile mail = true ∧
    (mailItem s.states profile.roleID mail).isSome ∧ mail.id = id

theorem mem_listedIDs {rfc3339Nano : Time → String} {s : PlayerServer} {r : Readings}
    {profile : GlobalMailSystem.UserProfile} {id : Int} :
    id ∈ ((listGlobalMails s r profile).2.map (toRPCMailItem rfc3339Nano)).map (·.globalMailID) ↔
      Listed (s.refreshIfStale r.refreshedAt r.token) profile r.checkedAt id := by
  simp only [listGlobalMails, List.mem_map, List.mem_insertionSort, List.mem_filterMap,
    mem_visibleMails, exists_exists_and_eq_and]
  constructor
  · rintro ⟨item, ⟨mail, ⟨hopen, hmatch⟩, hitem⟩, rfl⟩
    exact ⟨mail, hopen, hmatch, by rw [hitem]; rfl, by rw [← mailItem_mail hitem]; rfl⟩
  · rintro ⟨mail, hopen, hmatch, hitem, rfl⟩
    obtain ⟨item, hitem⟩ := Option.isSome_iff_exists.mp hitem
    exact ⟨item, ⟨mail, ⟨hopen, hmatch⟩, hitem⟩, by rw [← mailItem_mail hitem]; rfl⟩

theorem listed_iff {s : PlayerServer} {profile : GlobalMailSystem.UserProfile} {now : Time}
    {mail : GlobalMail} (hm : mail ∈ openMails s.snapshot profile now)
    (hitem : (mailItem s.states profile.roleID mail).isSome) :
    Listed s profile now mail.id ↔ matchesProfile profile mail = true := by
  constructor
  · rintro ⟨other, hopen, hmatch, _, hid⟩
    rw [← openMails_unique hopen hm hid]
    exact hmatch
  · intro hmatch
    exact ⟨mail, hm, hmatch, hitem, rfl⟩

theorem items_congr {s : PlayerServer} {now : Time} {p q : GlobalMailSystem.UserProfile}
    (hrole : p.roleID = q.roleID) (hserver : p.serverID = q.serverID)
    (h : ∀ mail ∈ openMails s.snapshot p now, (mailItem s.states p.roleID mail).isSome →
      matchesProfile p mail = matchesProfile q mail) :
    (s.snapshot.visibleMails p now).filterMap (mailItem s.states p.roleID) =
      (s.snapshot.visibleMails q now).filterMap (mailItem s.states q.roleID) := by
  have hcandidates : s.snapshot.candidateIDs q = s.snapshot.candidateIDs p := by
    simp only [CacheSnapshot.candidateIDs, hserver]
  simp only [CacheSnapshot.visibleMails, List.filterMap_filterMap, hcandidates, ← hrole]
  apply List.filterMap_congr
  intro id hid
  apply Option.ext
  intro item
  simp only [Option.bind_eq_some_iff, visible?_eq_some_iff hid,
    visible?_eq_some_iff (hcandidates.symm ▸ hid), ← openMails_congr hserver]
  constructor
  · rintro ⟨mail, ⟨hopen, hmailID, hmatch⟩, hitem⟩
    exact ⟨mail, ⟨hopen, hmailID, (h mail hopen (by rw [hitem]; rfl)).symm.trans hmatch⟩, hitem⟩
  · rintro ⟨mail, ⟨hopen, hmailID, hmatch⟩, hitem⟩
    exact ⟨mail, ⟨hopen, hmailID, (h mail hopen (by rw [hitem]; rfl)).trans hmatch⟩, hitem⟩

section Responses

variable (rfc3339Nano : Time → String) (s : PlayerServer) (r : Readings)
  {p q : GlobalMailSystem.UserProfile} (hrole : p.roleID = q.roleID) (hserver : p.serverID = q.serverID)
include hrole hserver

theorem update_eq_iff (mailID : Int) (op : Op) :
    stateResponse rfc3339Nano (updateGlobalMailState s r p mailID op) =
        stateResponse rfc3339Nano (updateGlobalMailState s r q mailID op) ↔
      ∀ mail ∈ openMails (s.refreshIfStale r.refreshedAt r.token).snapshot p r.checkedAt,
        mail.id = mailID → matchesProfile p mail = matchesProfile q mail := by
  rw [← visibleMail_eq_iff hserver]
  simp only [updateGlobalMailState]
  have hidden (server : PlayerServer) (result : PlayerServer × Except String UserGlobalMailState)
      (hresult : result.2 ≠ .error errMailNotVisible) :
      stateResponse rfc3339Nano (server, .error errMailNotVisible) ≠ stateResponse rfc3339Nano result := by
    intro h
    apply hresult
    cases hr : result.2 with
    | ok state =>
      have hsnd := congrArg Prod.snd h
      simp [stateResponse, hr, Except.map] at hsnd
    | error err =>
      have hsnd := congrArg Prod.snd h
      simp only [stateResponse, hr, Except.map, Except.error.injEq] at hsnd
      rw [hsnd]
  cases hp : visibleMail (s.refreshIfStale r.refreshedAt r.token).snapshot p r.checkedAt mailID with
  | none =>
    cases hq : visibleMail (s.refreshIfStale r.refreshedAt r.token).snapshot q r.checkedAt mailID with
    | none => simp
    | some mail =>
      simp only [reduceCtorEq, iff_false]
      exact hidden _ _ (updateVisible_error _ _ _ _ _ _ _)
  | some mail =>
    cases hq : visibleMail (s.refreshIfStale r.refreshedAt r.token).snapshot q r.checkedAt mailID with
    | none =>
      simp only [reduceCtorEq, iff_false]
      exact (hidden _ _ (updateVisible_error _ _ _ _ _ _ _)).symm
    | some other =>
      obtain ⟨hmail, hid, _⟩ := visibleMail_eq_some.mp hp
      obtain ⟨hother, hid', _⟩ := visibleMail_eq_some.mp hq
      rw [← openMails_congr hserver] at hother
      obtain rfl := openMails_unique hmail hother (hid.trans hid'.symm)
      simp only [updateVisible_congr hrole hserver]

theorem list_eq_iff :
    (listGlobalMails s r p).2.map (toRPCMailItem rfc3339Nano) =
        (listGlobalMails s r q).2.map (toRPCMailItem rfc3339Nano) ↔
      ∀ mail ∈ openMails (s.refreshIfStale r.refreshedAt r.token).snapshot p r.checkedAt,
        (mailItem (s.refreshIfStale r.refreshedAt r.token).states p.roleID mail).isSome →
          matchesProfile p mail = matchesProfile q mail := by
  constructor
  · intro h mail hm hitem
    have hids := congrArg (fun items => mail.id ∈ items.map (·.globalMailID)) h
    simp only [eq_iff_iff, mem_listedIDs] at hids
    rw [Bool.eq_iff_iff, ← listed_iff hm hitem, hids]
    rw [openMails_congr hserver] at hm
    rw [hrole] at hitem
    exact listed_iff hm hitem
  · intro h
    simp only [listGlobalMails, items_congr hrole hserver h]

end Responses

def decidingMails (s : PlayerServer) (r : Readings) (req : CommandRequest) : List GlobalMail :=
  let s := s.refreshIfStale r.refreshedAt r.token
  let mails := openMails s.snapshot (commandProfile req none) r.checkedAt
  match req.commandID, req.payload with
  | .mailListGlobal, some (.listGlobalMailsRequest _) =>
    mails.filter fun mail => (mailItem s.states req.roleID mail).isSome
  | .mailMarkRead, some (.globalMailStateRequest _ mailID) => mails.filter fun mail => mail.id = mailID
  | .mailClaim, some (.claimGlobalMailRequest _ mailID _) => mails.filter fun mail => mail.id = mailID
  | .mailDelete, some (.globalMailStateRequest _ mailID) => mails.filter fun mail => mail.id = mailID
  | _, _ => []

theorem respond_eq_iff (req : CommandRequest) (a b : PlayerServer × Except String ResponsePayload) :
    ((a.1, a.2.map fun payload => (⟨req.commandID, req.seq, 0, "ok", some payload⟩ : CommandResponse)) =
        (b.1, b.2.map fun payload => ⟨req.commandID, req.seq, 0, "ok", some payload⟩)) ↔ a = b := by
  obtain ⟨s, x⟩ := a
  obtain ⟨t, y⟩ := b
  cases x <;> cases y <;> simp [Except.map]

section Handlers

variable (rfc3339Nano : Time → String) (s : PlayerServer) (r : Readings) (req : CommandRequest)
  (p q : Option Rpc.UserProfile)

theorem commandProfile_identity :
    (commandProfile req p).roleID = (commandProfile req q).roleID ∧
      (commandProfile req p).serverID = (commandProfile req q).serverID := by
  simp only [commandProfile_roleID, commandProfile_serverID, and_self]

theorem command_update_iff (mailID : Int) (op : Op) :
    stateResponse rfc3339Nano (updateGlobalMailState s r (commandProfile req p) mailID op) =
        stateResponse rfc3339Nano (updateGlobalMailState s r (commandProfile req q) mailID op) ↔
      ∀ mail ∈ (openMails (s.refreshIfStale r.refreshedAt r.token).snapshot (commandProfile req none)
          r.checkedAt).filter fun mail => mail.id = mailID,
        matchesProfile (commandProfile req p) mail = matchesProfile (commandProfile req q) mail := by
  obtain ⟨hrole, hserver⟩ := commandProfile_identity req p q
  rw [update_eq_iff rfc3339Nano s r hrole hserver,
    openMails_congr (commandProfile_identity req p none).2]
  simp only [List.mem_filter, decide_eq_true_eq, and_imp]

theorem command_list_iff :
    (listGlobalMails s r (commandProfile req p)).2.map (toRPCMailItem rfc3339Nano) =
        (listGlobalMails s r (commandProfile req q)).2.map (toRPCMailItem rfc3339Nano) ↔
      ∀ mail ∈ (openMails (s.refreshIfStale r.refreshedAt r.token).snapshot (commandProfile req none)
          r.checkedAt).filter fun mail =>
            (mailItem (s.refreshIfStale r.refreshedAt r.token).states req.roleID mail).isSome,
        matchesProfile (commandProfile req p) mail = matchesProfile (commandProfile req q) mail := by
  obtain ⟨hrole, hserver⟩ := commandProfile_identity req p q
  rw [list_eq_iff rfc3339Nano s r hrole hserver,
    openMails_congr (commandProfile_identity req p none).2, commandProfile_roleID]
  simp only [List.mem_filter, and_imp]

end Handlers

theorem dispatch_agrees_iff (rfc3339Nano : Time → String) (s : PlayerServer) (r : Readings)
    (req : CommandRequest) (p q : Option Rpc.UserProfile) :
    dispatch (mailRegistry rfc3339Nano) s r (requestWith req p) =
        dispatch (mailRegistry rfc3339Nano) s r (requestWith req q) ↔
      ∀ mail ∈ decidingMails s r req,
        conditionsMatch (compileConditions mail.conditions) (commandProfile req p) =
          conditionsMatch (compileConditions mail.conditions) (commandProfile req q) := by
  obtain ⟨commandID, uid, roleID, serverID, seq, payload⟩ := req
  have none_decides {P : GlobalMail → Prop} : ∀ mail ∈ ([] : List GlobalMail), P mail :=
    fun mail hm => absurd hm List.not_mem_nil
  cases commandID with
  | unspecified => exact iff_of_true rfl none_decides
  | other number => exact iff_of_true rfl none_decides
  | mailListGlobal =>
    apply (respond_eq_iff ⟨.mailListGlobal, uid, roleID, serverID, seq, payload⟩ _ _).trans
    rcases payload with _ | ⟨profile⟩ | ⟨profile, mailID⟩ | ⟨profile, mailID, lootIndexes⟩ | _
    · exact iff_of_true rfl none_decides
    · refine Iff.trans ?_ (command_list_iff rfc3339Nano s r _ p q)
      constructor
      · intro h
        exact ResponsePayload.listGlobalMailsResponse.inj (Except.ok.inj (congrArg Prod.snd h))
      · intro h
        exact congrArg (fun mails => (s.refreshIfStale r.refreshedAt r.token,
          Except.ok (ResponsePayload.listGlobalMailsResponse mails))) h
    all_goals exact iff_of_true rfl none_decides
  | mailMarkRead =>
    apply (respond_eq_iff ⟨.mailMarkRead, uid, roleID, serverID, seq, payload⟩ _ _).trans
    rcases payload with _ | ⟨profile⟩ | ⟨profile, mailID⟩ | ⟨profile, mailID, lootIndexes⟩ | _
    case some.globalMailStateRequest => exact command_update_iff rfc3339Nano s r _ p q mailID .markRead
    all_goals exact iff_of_true rfl none_decides
  | mailClaim =>
    apply (respond_eq_iff ⟨.mailClaim, uid, roleID, serverID, seq, payload⟩ _ _).trans
    rcases payload with _ | ⟨profile⟩ | ⟨profile, mailID⟩ | ⟨profile, mailID, lootIndexes⟩ | _
    case some.claimGlobalMailRequest =>
      exact command_update_iff rfc3339Nano s r _ p q mailID (.claim lootIndexes)
    all_goals exact iff_of_true rfl none_decides
  | mailDelete =>
    apply (respond_eq_iff ⟨.mailDelete, uid, roleID, serverID, seq, payload⟩ _ _).trans
    rcases payload with _ | ⟨profile⟩ | ⟨profile, mailID⟩ | ⟨profile, mailID, lootIndexes⟩ | _
    case some.globalMailStateRequest => exact command_update_iff rfc3339Nano s r _ p q mailID .delete
    all_goals exact iff_of_true rfl none_decides

def vipMail : GlobalMail :=
  { (default : GlobalMail) with
    id := 20, loots := .value (.arr [.int 7]), startTime := 0, expireTime := 90 * minute
    status := .published, conditions := [⟨1, 20, "vip_level", "gte", .value (.int 5)⟩] }

def vipServer : PlayerServer :=
  ⟨.empty, .empty, .build 1 [vipMail] 0, .empty, .empty, 1, [vipMail], 0, rfl⟩

def vipClaim : CommandRequest :=
  ⟨.mailClaim, 1, 1, 1, 1, some (.claimGlobalMailRequest none 20 [0])⟩

def claimStating (vipLevel : Int) : PlayerServer × Except String CommandResponse :=
  dispatch (mailRegistry fun _ => "") vipServer ⟨1, 9, 1, 1, fun _ => 1, fun _ => 1⟩
    (requestWith vipClaim (some ⟨1, 1, 1, vipLevel, 0, 0, 0, "", ""⟩))

theorem claimStating_delivers :
    (claimStating 0).1.rewards.backpack.rows.length = 0 ∧
      (claimStating 5).1.rewards.backpack.rows.length = 1 ∧ claimStating 0 ≠ claimStating 5 := by
  have hlow : (claimStating 0).1.rewards.backpack.rows.length = 0 := by decide
  have hhigh : (claimStating 5).1.rewards.backpack.rows.length = 1 := by decide
  refine ⟨hlow, hhigh, fun h => ?_⟩
  rw [h, hhigh] at hlow
  cases hlow

end GlobalMailSystem.MailCommands
