import GlobalMailSystem.PlayerSteps

namespace GlobalMailSystem.PlayerMail

open Transition

structure Checked (w : World) (request : Request) (checkedAt : Time) (mail : GlobalMail) : Prop where
  stored : mail ∈ w.mails.rows
  id : mail.id = request.mailID
  eligible : mail.Eligible request.profile checkedAt

structure GrantFor (request : Request) (mail : GlobalMail) (index : Int) (grant : RewardGrant) :
    Prop where
  roleID : grant.roleID = request.profile.roleID
  lootIndex : grant.lootIndex = index
  grantKey : grant.grantKey = grantKey request.profile.roleID request.mailID index
  loot : lootAtIndex mail.loots index = .ok grant.loot

def CallOk (w : World) (request : Request) (checkedAt : Time) : CallPC → Prop
  | .readState mail => Checked w request checkedAt mail
  | .grant mail _ _ lootIndexes index rest pc =>
    Checked w request checkedAt mail ∧ request.op = .claim lootIndexes ∧ index ∈ lootIndexes ∧
      (∀ i ∈ rest, i ∈ lootIndexes) ∧ pc.Carries (GrantFor request mail index)
  | .save _ _ => True
  | .returned _ => True

def SnapshotOk (w : World) (snapshot : CacheSnapshot) : Prop :=
  ∀ id mail, snapshot.mailsByID id = some mail →
    mail ∈ w.mails.rows ∧ mail.id = id ∧
      snapshot.compiledConditions id = compileConditions mail.conditions

structure Stems (w : World) (row : BackpackGrant) (request : Request) (checkedAt : Time)
    (mail : GlobalMail) (lootIndexes : List Int) : Prop where
  checked : Checked w request checkedAt mail
  op : request.op = .claim lootIndexes
  named : row.lootIndex ∈ lootIndexes
  roleID : row.roleID = request.profile.roleID
  grantKey : row.grantKey = grantKey request.profile.roleID request.mailID row.lootIndex
  loot : lootAtIndex mail.loots row.lootIndex = .ok row.loot

def StemsFromCall (w : World) (row : BackpackGrant) : Prop :=
  ∃ call ∈ w.calls, ∃ mail lootIndexes,
    Stems w row call.request call.checkedAt mail lootIndexes

structure Inv (w : World) : Prop where
  snapshots : ∀ server, SnapshotOk w (w.snapshots server)
  calls : ∀ call ∈ w.calls, CallOk w call.request call.checkedAt call.pc
  backpack : ∀ row ∈ w.rewards.backpack.rows, StemsFromCall w row

section Mono

variable {w w' : World} (hext : Extends w w') {request : Request} {checkedAt : Time}
include hext

theorem Checked.mono {mail : GlobalMail} (h : Checked w request checkedAt mail) :
    Checked w' request checkedAt mail :=
  ⟨hext.mails _ h.stored, h.id, h.eligible⟩

theorem CallOk.mono {pc : CallPC} (h : CallOk w request checkedAt pc) : CallOk w' request checkedAt pc := by
  cases pc with
  | readState mail => exact Checked.mono hext h
  | grant mail read now lootIndexes index rest pc => exact ⟨Checked.mono hext h.1, h.2⟩
  | save read next => trivial
  | returned result => trivial

theorem SnapshotOk.mono {snapshot : CacheSnapshot} (h : SnapshotOk w snapshot) :
    SnapshotOk w' snapshot := by
  intro id mail hm
  obtain ⟨hmem, hid, hcond⟩ := h id mail hm
  exact ⟨hext.mails _ hmem, hid, hcond⟩

theorem StemsFromCall.mono {row : BackpackGrant} (h : StemsFromCall w row) : StemsFromCall w' row := by
  obtain ⟨call, hcall, mail, lootIndexes, hs⟩ := h
  obtain ⟨pc, hcall'⟩ := hext.calls call hcall
  exact ⟨_, hcall', mail, lootIndexes, { hs with checked := hs.checked.mono hext }⟩

end Mono

theorem snapshotOk_build (w : World) (version : Int) (mailIDs : List Int) (now : Time) :
    SnapshotOk w (CacheSnapshot.build version (mailIDs.filterMap w.mails.find?) now) := by
  intro id mail h
  obtain ⟨hmem, hid⟩ := CacheSnapshot.build_mailsByID_mem h
  obtain ⟨mailID, _, hfind⟩ := List.mem_filterMap.mp hmem
  exact ⟨(Table.find?_eq_some.mp hfind).1, hid, CacheSnapshot.build_compiledConditions h⟩

theorem visibleMail_checked {w : World} {snapshot : CacheSnapshot} {request : Request} {now : Time}
    {mail : GlobalMail} (hs : SnapshotOk w snapshot)
    (h : visibleMail snapshot request.profile now request.mailID = some mail) :
    Checked w request now mail := by
  have hid : mail.id = request.mailID := by simpa using List.find?_some h
  have hvisible := List.mem_of_find?_eq_some h
  obtain ⟨id, _, hv⟩ := List.mem_filterMap.mp hvisible
  obtain ⟨hmail, hpublished, hwindow, hmatch⟩ := CacheSnapshot.visible?_eq_some.mp hv
  obtain ⟨hstored, _, hcond⟩ := hs id mail hmail
  rw [hcond] at hmatch
  exact ⟨hstored, hid, hpublished, hwindow, hmatch⟩

theorem startPC_ok {w : World} {snapshot : CacheSnapshot} (hs : SnapshotOk w snapshot)
    (request : Request) (now : Time) (failure : Option String) :
    CallOk w request now (startPC snapshot request now failure) := by
  cases failure with
  | some err => trivial
  | none =>
    simp only [startPC]
    split
    · trivial
    · rename_i mail hv
      exact visibleMail_checked hs hv

theorem claimPC_ok {w : World} {request : Request} {checkedAt : Time} {mail : GlobalMail}
    {lootIndexes : List Int} (hc : Checked w request checkedAt mail)
    (hop : request.op = .claim lootIndexes) (read : UserGlobalMailState) (now grantNow : Time)
    {rest : List Int} (hrest : ∀ i ∈ rest, i ∈ lootIndexes) :
    CallOk w request checkedAt (claimPC request mail read now grantNow lootIndexes rest) := by
  refine claimPC_rule (fun _ => trivial) (fun _ => trivial) ?_
  rintro index tail loot rfl hloot
  have htail : ∀ i ∈ tail, i ∈ lootIndexes := fun i hi => hrest i (List.mem_cons_of_mem _ hi)
  exact ⟨hc, hop, hrest index List.mem_cons_self, htail, rfl, rfl, rfl, hloot⟩

theorem readPC_ok {w : World} {request : Request} {checkedAt : Time} {mail : GlobalMail}
    (hc : Checked w request checkedAt mail) (states : StateTable) (now grantNow : Time)
    (outcome : Outcome) :
    CallOk w request checkedAt (readPC states request mail now grantNow outcome) := by
  cases outcome with
  | failed err => trivial
  | lost err => trivial
  | ok =>
    refine applyPC_rule (fun _ => trivial) (fun _ => trivial) (fun _ _ _ => trivial) ?_
    intro lootIndexes hop _
    exact claimPC_ok hc hop _ _ _ fun i hi => (mem_newLootIndexes.mp hi).1

theorem grantPC_ok {w : World} {request : Request} {checkedAt now : Time} {mail : GlobalMail}
    {read : UserGlobalMailState} {lootIndexes rest : List Int} {index : Int} {pc pc' : GrantPC}
    (h : CallOk w request checkedAt (.grant mail read now lootIndexes index rest pc))
    (hcarries : pc'.Carries (GrantFor request mail index)) (grantNow : Time) :
    CallOk w request checkedAt
      (grantPC request mail read now grantNow lootIndexes index rest pc') := by
  obtain ⟨hc, hop, hindex, hrest, _⟩ := h
  exact grantPC_rule (fun _ => trivial) (claimPC_ok hc hop read now grantNow hrest)
    ⟨hc, hop, hindex, hrest, hcarries⟩

theorem backpack_stems {w : World} (hw : Inv w) {request : Request} {checkedAt now : Time}
    {mail : GlobalMail} {read : UserGlobalMailState} {lootIndexes rest : List Int} {index : Int}
    {pc pc' : GrantPC} {serverNow : Time} {outcome : Outcome} {rewards : Rewards}
    (hcall : ⟨request, checkedAt, .grant mail read now lootIndexes index rest pc⟩ ∈ w.calls)
    (h : pc.step w.rewards serverNow outcome = some (rewards, pc')) {row : BackpackGrant}
    (hrow : row ∈ rewards.backpack.rows) : StemsFromCall w row := by
  rcases GrantPC.step_backpack h hrow with hrow | ⟨grant, grantNow, rfl, rfl⟩
  · exact hw.backpack row hrow
  · obtain ⟨hchecked, hop, hindex, _, hgrant⟩ := hw.calls _ hcall
    have hlootIndex : (GrantPC.backpackGrant grant grantNow).lootIndex = index := hgrant.lootIndex
    refine ⟨_, hcall, mail, lootIndexes, hchecked, hop, ?_, hgrant.roleID, ?_, ?_⟩
    · rw [hlootIndex]
      exact hindex
    · rw [hlootIndex]
      exact hgrant.grantKey
    · rw [hlootIndex]
      exact hgrant.loot

theorem inv_of_extends {w w' : World} (hext : Extends w w')
    (hsnapshots : ∀ server, SnapshotOk w (w'.snapshots server))
    (hcalls : ∀ call ∈ w'.calls, CallOk w call.request call.checkedAt call.pc)
    (hbackpack : ∀ row ∈ w'.rewards.backpack.rows, StemsFromCall w row) : Inv w' where
  snapshots server := (hsnapshots server).mono hext
  calls call hc := (hcalls call hc).mono hext
  backpack row hrow := (hbackpack row hrow).mono hext

theorem inv_setCall {w : World} (hw : Inv w) {c : Nat} {request : Request} {checkedAt : Time}
    {pc pc' : CallPC} {states : StateTable} {rewards : Rewards}
    (hc : w.calls[c]? = some ⟨request, checkedAt, pc⟩) (hpc : CallOk w request checkedAt pc')
    (hbackpack : ∀ row ∈ rewards.backpack.rows, StemsFromCall w row) :
    Inv ({ w with states, rewards }.setCall c ⟨request, checkedAt, pc'⟩) := by
  refine inv_of_extends (extends_setCall hc) hw.snapshots (fun call hcall => ?_) hbackpack
  rcases mem_setCall hcall with rfl | hcall
  · exact hpc
  · exact hw.calls call hcall

theorem inv_step {w w' : World} {l : Label} (hw : Inv w) (h : step w l = some w') : Inv w' := by
  have hstep := step_inv h
  have hext := step_extends hstep
  cases hstep with
  | addMail hinsert => exact inv_of_extends hext hw.snapshots hw.calls hw.backpack
  | @install server version mailIDs now =>
    refine inv_of_extends hext (fun s => ?_) hw.calls hw.backpack
    simp only [Function.update_apply]
    split_ifs
    · exact snapshotOk_build w version mailIDs now
    · exact hw.snapshots s
  | @start request now failure =>
    refine inv_of_extends hext hw.snapshots (fun call hcall => ?_) hw.backpack
    rcases List.mem_append.mp hcall with hcall | hcall
    · exact hw.calls call hcall
    · rw [List.mem_singleton.mp hcall]
      exact startPC_ok (hw.snapshots request.server) request now failure
  | @getState c now grantNow checkedAt outcome request mail hc =>
    have hcall := hw.calls _ (List.mem_of_getElem? hc)
    exact inv_setCall hw hc (readPC_ok hcall w.states now grantNow outcome) hw.backpack
  | @grant c serverNow grantNow checkedAt now outcome request mail read lootIndexes rest index pc pc'
      rewards hc hgrant =>
    have hcall := hw.calls _ (List.mem_of_getElem? hc)
    have hcarries := GrantPC.step_carries hcall.2.2.2.2 hgrant
    exact inv_setCall hw hc (grantPC_ok hcall hcarries grantNow)
      fun row hrow => backpack_stems hw (List.mem_of_getElem? hc) hgrant hrow
  | @save c outcome request checkedAt read next hc =>
    have hpc : CallOk w request checkedAt (saveResult w.states next outcome).2 := by
      cases outcome <;> trivial
    exact inv_setCall hw hc hpc hw.backpack
  | @stop c request checkedAt pc hc hprogress => exact inv_setCall hw hc trivial hw.backpack

theorem inv_init : Inv init where
  snapshots server id mail h := by cases h
  calls call h := by cases h
  backpack row h := by cases h

def DeliveredFor (w : World) (row : BackpackGrant) (r m i : Int) : Prop :=
  row.roleID = r ∧ row.lootIndex = i ∧
    ∃ call ∈ w.calls, ∃ lootIndexes,
      call.request.profile.roleID = r ∧ call.request.mailID = m ∧
      call.request.op = .claim lootIndexes ∧ i ∈ lootIndexes ∧
      ∃ mail ∈ w.mails.rows, mail.id = m ∧ mail.Eligible call.request.profile call.checkedAt ∧
        ∀ items, mail.loots = .value (.arr items) → items ≠ [] →
          0 ≤ i ∧ ∃ hlt : i.toNat < items.length, row.loot = .value (items.get ⟨i.toNat, hlt⟩)

theorem stems_deliveredFor {w : World} {row : BackpackGrant} (h : StemsFromCall w row) :
    ∃ r m i, row.grantKey = grantKey r m i ∧ DeliveredFor w row r m i := by
  obtain ⟨call, hcall, mail, lootIndexes, hs⟩ := h
  refine ⟨call.request.profile.roleID, call.request.mailID, row.lootIndex, hs.grantKey, hs.roleID, rfl,
    call, hcall, lootIndexes, rfl, rfl, hs.op, hs.named, mail, hs.checked.stored, hs.checked.id,
    hs.checked.eligible, ?_⟩
  intro items hitems _
  have hloot := hs.loot
  rw [hitems] at hloot
  exact lootAtIndex_array hloot

theorem delivered_once (ls : List Label) (w : World) (h : run step init ls = some w) :
    (∀ r m i, ∀ row ∈ w.rewards.backpack.rows, ∀ row' ∈ w.rewards.backpack.rows,
      row.grantKey = grantKey r m i → row'.grantKey = grantKey r m i → row = row') ∧
    ∀ row ∈ w.rewards.backpack.rows,
      (∃ r m i, row.grantKey = grantKey r m i) ∧
        ∀ r m i, row.grantKey = grantKey r m i → DeliveredFor w row r m i := by
  have hw : Inv w := run_invariant (fun _ _ _ hs hstep => inv_step hs hstep) inv_init h
  constructor
  · intro r m i row hrow row' hrow' hkey hkey'
    exact w.rewards.backpack.row_unique hrow hrow' (hkey.trans hkey'.symm)
  · intro row hrow
    obtain ⟨r, m, i, hkey, hdelivered⟩ := stems_deliveredFor (hw.backpack row hrow)
    refine ⟨⟨r, m, i, hkey⟩, fun r' m' i' hkey' => ?_⟩
    obtain ⟨rfl, rfl, rfl⟩ := DecimalKey.colonJoin_inj (hkey.symm.trans hkey')
    exact hdelivered

def lootMail : GlobalMail :=
  { (default : GlobalMail) with
    id := 10, loots := .value (.arr [.int 7, .int 8]), expireTime := 90 * minute, startTime := 0
    status := .published }

def player : UserProfile := { (default : UserProfile) with roleID := 1, serverID := 1 }

def opened : List Label := [.addMail lootMail, .install 0 1 [10] 0]

def claimBoth : List Label :=
  opened ++ [.start ⟨0, player, 10, .claim [1, 0, 1]⟩ 5 none, .getState 0 6 6 .ok] ++
    List.replicate 6 (.grant 0 7 7 .ok) ++ [.save 0 .ok]

theorem claimBoth_delivered :
    ∃ w, run step init claimBoth = some w ∧ w.rewards.backpack.rows.length = 2 ∧
      (∀ r m i, ∀ row ∈ w.rewards.backpack.rows, ∀ row' ∈ w.rewards.backpack.rows,
        row.grantKey = grantKey r m i → row'.grantKey = grantKey r m i → row = row') ∧
      ∀ row ∈ w.rewards.backpack.rows,
        (∃ r m i, row.grantKey = grantKey r m i) ∧
          ∀ r m i, row.grantKey = grantKey r m i → DeliveredFor w row r m i := by
  have hrun : run step init claimBoth = some ((run step init claimBoth).get (by decide)) :=
    (Option.some_get _).symm
  exact ⟨_, hrun, by decide, delivered_once claimBoth _ hrun⟩

end GlobalMailSystem.PlayerMail
