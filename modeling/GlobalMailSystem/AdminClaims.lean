import GlobalMailSystem.AdminServer

namespace GlobalMailSystem.Admin

open Publisher Transition PlayerMail

def Label.fails (c : Nat) : Label → Bool
  | .player (.getState _ _ _ .ok) | .player (.grant _ _ _ .ok) | .player (.save _ .ok) => false
  | .player (.getState d ..) | .player (.grant d ..) | .player (.save d _) | .player (.stop d) => d = c
  | _ => false

section Granted

variable {player player' : PlayerMail.World} {request : Request} {mail : GlobalMail} {read : UserGlobalMailState}
  {lootIndexes rest : List Int}

structure Bare (request : Request) (state : UserGlobalMailState) : Prop where
  recorded : ∀ i ∈ state.claimedLootIndexes, 0 ≤ i
  named : ∀ lootIndexes, request.op = .claim lootIndexes →
    (∀ i ∈ lootIndexes, 0 ≤ i ∧ i ∈ state.claimedLootIndexes) ∨ state.status = .deleted

def CallBare (request : Request) : CallPC → Prop
  | .readState mail => mail.loots = .empty
  | .grant mail read _ lootIndexes _ rest _ =>
    mail.loots = .empty ∧ request.op = .claim lootIndexes ∧ (∀ i ∈ read.claimedLootIndexes, 0 ≤ i) ∧
      ∀ i ∈ lootIndexes, i ∈ rest ∨ 0 ≤ i
  | .save _ next => Bare request next
  | .returned (.ok state) => Bare request state
  | .returned (.error _) => True

structure Lootless (player : PlayerMail.World) : Prop where
  calls : ∀ call ∈ player.calls, CallBare call.request call.pc
  states : ∀ state ∈ player.states.rows, ∀ i ∈ state.claimedLootIndexes, 0 ≤ i

theorem lootAtIndex_empty {index : Int} {loot : RawMessage} :
    lootAtIndex .empty index = .ok loot ↔ 0 ≤ index ∧ loot = .empty := by
  unfold lootAtIndex
  split_ifs with hneg
  · simp only [false_iff, not_and]
    exact fun h => absurd hneg (not_lt.mpr h)
  · simp only [Except.ok.injEq]
    exact ⟨fun h => ⟨not_lt.mp hneg, h.symm⟩, fun h => h.2.symm⟩

theorem claimPC_bare (hmail : mail.loots = .empty) (hop : request.op = .claim lootIndexes)
    (hread : ∀ i ∈ read.claimedLootIndexes, 0 ≤ i) (hrest : ∀ i ∈ lootIndexes, i ∈ rest ∨ 0 ≤ i) (now grantNow : Time) :
    CallBare request (claimPC request mail read now grantNow lootIndexes rest) := by
  apply claimPC_rule
  · rintro rfl
    have hnonneg : ∀ i ∈ lootIndexes, 0 ≤ i := fun i hi => (hrest i hi).resolve_left List.not_mem_nil
    refine ⟨fun i hi => ?_, fun named hnamed => Or.inl fun i hi => ?_⟩
    · rcases mem_mergeLootIndexes.mp hi with hi | hi
      · exact hread i hi
      · exact hnonneg i hi
    · cases hop.symm.trans hnamed
      exact ⟨hnonneg i hi, mem_mergeLootIndexes.mpr (Or.inr hi)⟩
  · exact fun err => trivial
  · rintro index tail loot rfl hloot
    rw [hmail] at hloot
    refine ⟨hmail, hop, hread, fun i hi => ?_⟩
    rcases hrest i hi with hmem | hnonneg
    · rcases List.mem_cons.mp hmem with rfl | hmem
      · exact Or.inr (lootAtIndex_empty.mp hloot).1
      · exact Or.inl hmem
    · exact Or.inr hnonneg

theorem applyPC_bare (hmail : mail.loots = .empty) (hread : ∀ i ∈ read.claimedLootIndexes, 0 ≤ i)
    (now grantNow : Time) : CallBare request (applyPC request mail read now grantNow) := by
  apply applyPC_rule
  · intro hop
    refine ⟨?_, fun lootIndexes hclaim => by rw [hop] at hclaim; cases hclaim⟩
    simp only [stamped, markedRead]
    split <;> exact hread
  · intro hop
    exact ⟨hread, fun lootIndexes hclaim => by rw [hop] at hclaim; cases hclaim⟩
  · exact fun lootIndexes hop hdeleted => ⟨hread, fun _ _ => Or.inr hdeleted⟩
  · intro lootIndexes hop _
    refine claimPC_bare hmail hop hread (fun i hi => ?_) now grantNow
    by_cases hold : i ∈ read.claimedLootIndexes
    · exact Or.inr (hread i hold)
    · exact Or.inl (mem_newLootIndexes.mpr ⟨hi, hold⟩)

theorem readState_recorded (hw : Lootless player) (profile : UserProfile) (mailID : Int) (now : Time) :
    ∀ i ∈ (readState player.states profile mailID now).claimedLootIndexes, 0 ≤ i := by
  unfold readState
  cases hfind : player.states.find? (profile.roleID, mailID) with
  | none => exact fun i hi => absurd hi List.not_mem_nil
  | some state => exact hw.states state (Table.find?_eq_some.mp hfind).1

theorem saveUserState_recorded (hw : Lootless player) {next : UserGlobalMailState}
    (hnext : ∀ i ∈ next.claimedLootIndexes, 0 ≤ i) :
    ∀ state ∈ (player.states.saveUserState next).rows, ∀ i ∈ state.claimedLootIndexes, 0 ≤ i := by
  intro state hstate
  rcases StateTable.mem_saveUserState hstate with hstate | ⟨_, rfl⟩
  · exact hw.states state hstate
  · cases hfind : player.states.find? next.key with
    | none => exact hnext
    | some row =>
      have hrow := hw.states row (Table.find?_eq_some.mp hfind).1
      simp only [StateTable.savedRow, StateTable.updatedRow, StateTable.preserveDeleted]
      split <;> assumption

theorem Lootless.setCall {c : Nat} {checkedAt : Time} {pc : CallPC} {states : StateTable} {rewards : Rewards}
    (hw : Lootless player) (hpc : CallBare request pc)
    (hstates : ∀ state ∈ states.rows, ∀ i ∈ state.claimedLootIndexes, 0 ≤ i) :
    Lootless ({ player with states, rewards }.setCall c ⟨request, checkedAt, pc⟩) := by
  refine ⟨fun call hcall => ?_, hstates⟩
  rcases mem_setCall hcall with rfl | hcall
  · exact hpc
  · exact hw.calls call hcall

theorem startPC_bare (hinv : PlayerMail.Inv player) (hmails : ∀ mail ∈ player.mails.rows, mail.loots = .empty)
    (request : Request) (now : Time) (failure : Option String) :
    CallBare request (startPC (player.snapshots request.server) request now failure) := by
  have hok := startPC_ok (hinv.snapshots request.server) request now failure
  cases failure with
  | some err => trivial
  | none =>
    simp only [startPC] at hok ⊢
    split
    · trivial
    · rename_i mail hvisible
      rw [hvisible] at hok
      exact hmails mail hok.stored

theorem lootless_step {l : PlayerMail.Label} (hw : Lootless player) (hinv : PlayerMail.Inv player)
    (hmails : ∀ mail ∈ player.mails.rows, mail.loots = .empty) (h : PlayerMail.step player l = some player') :
    Lootless player' := by
  cases PlayerMail.step_inv h with
  | addMail _ => exact ⟨hw.calls, hw.states⟩
  | install => exact ⟨hw.calls, hw.states⟩
  | @start request now failure =>
    refine ⟨fun call hcall => ?_, hw.states⟩
    rcases List.mem_append.mp hcall with hcall | hcall
    · exact hw.calls call hcall
    · rw [List.mem_singleton.mp hcall]
      exact startPC_bare hinv hmails request now failure
  | @getState c now grantNow checkedAt outcome request mail hc =>
    have hmail : mail.loots = .empty := hw.calls _ (List.mem_of_getElem? hc)
    apply hw.setCall ?_ hw.states
    cases outcome with
    | ok => exact applyPC_bare hmail (readState_recorded hw _ _ _) now grantNow
    | failed err => trivial
    | lost err => trivial
  | @grant c serverNow grantNow checkedAt now outcome request mail read lootIndexes rest index pc pc' rewards hc hgrant =>
    have hcall := hw.calls _ (List.mem_of_getElem? hc)
    obtain ⟨hmail, hop, hread, hrest⟩ := hcall
    refine hw.setCall ?_ hw.states
    exact grantPC_rule (fun _ => trivial) (claimPC_bare hmail hop hread hrest now grantNow) ⟨hmail, hop, hread, hrest⟩
  | @save c outcome request checkedAt read next hc =>
    have hnext : Bare request next := hw.calls _ (List.mem_of_getElem? hc)
    cases outcome with
    | ok => exact hw.setCall hnext (saveUserState_recorded hw hnext.recorded)
    | failed err => exact hw.setCall trivial hw.states
    | lost err => exact hw.setCall trivial (saveUserState_recorded hw hnext.recorded)
  | stop hc _ => exact hw.setCall trivial hw.states

end Granted

section Unrefused

variable {player player' : PlayerMail.World} {request : Request} {mail : GlobalMail} {read : UserGlobalMailState}
  {lootIndexes rest : List Int}

def Going : CallPC → Prop
  | .readState mail => mail.loots = .empty
  | .grant mail _ _ _ _ rest pc =>
    mail.loots = .empty ∧ (∀ i ∈ rest, 0 ≤ i) ∧
      (∀ grant now err, pc ≠ .markFailed grant now err) ∧ ∀ key err, pc ≠ .returned key (.error err)
  | .save _ _ => True
  | .returned result => ∃ state, result = .ok state

theorem claimPC_going (request : Request) (read : UserGlobalMailState) (lootIndexes : List Int)
    (hmail : mail.loots = .empty) (hrest : ∀ i ∈ rest, 0 ≤ i) (now grantNow : Time) :
    Going (claimPC request mail read now grantNow lootIndexes rest) := by
  cases rest with
  | nil => trivial
  | cons index tail =>
    have hloot : lootAtIndex mail.loots index = .ok .empty := by
      rw [hmail]
      exact lootAtIndex_empty.mpr ⟨hrest index List.mem_cons_self, rfl⟩
    simp only [claimPC, hloot]
    refine ⟨hmail, fun i hi => hrest i (List.mem_cons_of_mem _ hi), fun _ _ _ he => ?_, fun _ _ he => ?_⟩
    · cases he
    · cases he

theorem applyPC_going (hmail : mail.loots = .empty) (hop : request.op = .claim lootIndexes)
    (hnonneg : ∀ i ∈ lootIndexes, 0 ≤ i) (now grantNow : Time) :
    Going (applyPC request mail read now grantNow) := by
  simp only [applyPC, hop]
  split_ifs
  · trivial
  · exact claimPC_going _ _ _ hmail (fun i hi => hnonneg i (mem_newLootIndexes.mp hi).1) now grantNow

theorem grantPC_going {index : Int} {pc pc' : GrantPC} {t t' : Rewards} {now serverNow grantNow : Time}
    (h : Going (.grant mail read now lootIndexes index rest pc)) (hstep : pc.step t serverNow .ok = some (t', pc')) :
    Going (grantPC request mail read now grantNow lootIndexes index rest pc') := by
  obtain ⟨hmail, hrest, hmark, _⟩ := h
  have hnext := claimPC_going request read lootIndexes hmail hrest now grantNow
  cases pc with
  | reserve grant at_ =>
    simp only [GrantPC.step, Option.some.injEq, Prod.mk.injEq] at hstep
    rw [← hstep.2]
    split_ifs
    · exact ⟨hmail, hrest, fun _ _ _ he => (by cases he), fun _ _ he => (by cases he)⟩
    · exact hnext
  | backpack grant at_ =>
    cases hstep
    exact ⟨hmail, hrest, fun _ _ _ he => (by cases he), fun _ _ he => (by cases he)⟩
  | markFailed grant at_ err => exact absurd rfl (hmark grant at_ err)
  | markSucceeded grant at_ ext =>
    cases hstep
    exact hnext
  | returned key result => cases hstep

theorem getElem?_setCall (player : PlayerMail.World) {c d : Nat} {old call : Call} (hc : player.calls[c]? = some old) :
    (player.setCall d call).calls[c]? = some (if d = c then call else old) := by
  have hlt := (List.getElem?_eq_some_iff.mp hc).1
  rw [PlayerMail.World.setCall, List.getElem?_set]
  split_ifs with hdc
  · rfl
  · exact absurd (hdc ▸ hlt) ‹_›
  · exact hc

theorem going_step {l : PlayerMail.Label} {c : Nat} {checkedAt : Time} (hop : request.op = .claim lootIndexes)
    (hnonneg : ∀ i ∈ lootIndexes, 0 ≤ i) (hfails : (Label.player l).fails c = false)
    (h : PlayerMail.step player l = some player')
    (hc : ∃ pc, player.calls[c]? = some ⟨request, checkedAt, pc⟩ ∧ Going pc) :
    ∃ pc, player'.calls[c]? = some ⟨request, checkedAt, pc⟩ ∧ Going pc := by
  obtain ⟨pc, hc, hpc⟩ := hc
  -- a step of another call leaves this one as it is
  have moved {d : Nat} {states : StateTable} {rewards : Rewards} {call : Call} (pc' : CallPC)
      (hcall : d = c → call = ⟨request, checkedAt, pc'⟩ ∧ Going pc') :
      ∃ pc, ({ player with states, rewards }.setCall d call).calls[c]? = some ⟨request, checkedAt, pc⟩ ∧ Going pc := by
    rw [getElem?_setCall { player with states, rewards } hc]
    by_cases hd : d = c
    · exact ⟨pc', by rw [if_pos hd, (hcall hd).1], (hcall hd).2⟩
    · exact ⟨pc, by rw [if_neg hd], hpc⟩
  cases PlayerMail.step_inv h with
  | addMail _ => exact ⟨pc, hc, hpc⟩
  | install => exact ⟨pc, hc, hpc⟩
  | start =>
    refine ⟨pc, ?_, hpc⟩
    rw [List.getElem?_append_left (List.getElem?_eq_some_iff.mp hc).1]
    exact hc
  | @getState d now grantNow _ outcome _ mail hd =>
    apply moved _
    rintro rfl
    cases hd.symm.trans hc
    cases outcome with
    | ok => exact ⟨rfl, applyPC_going hpc hop hnonneg now grantNow⟩
    | failed | lost => simp [Label.fails] at hfails
  | @grant d serverNow grantNow _ now outcome _ mail read _ rest index grant grant' rewards hd hgrant =>
    apply moved _
    rintro rfl
    cases hd.symm.trans hc
    cases outcome with
    | ok => exact ⟨rfl, grantPC_going hpc hgrant⟩
    | failed | lost => simp [Label.fails] at hfails
  | @save d outcome _ _ _ next hd =>
    apply moved _
    rintro rfl
    cases hd.symm.trans hc
    cases outcome with
    | ok => exact ⟨rfl, next, rfl⟩
    | failed | lost => simp [Label.fails] at hfails
  | @stop d =>
    refine moved pc fun hd => ?_
    simp [Label.fails, hd] at hfails

end Unrefused

section Runs

variable {sha256 : PublishPayload → String} {config : Nat → Relay.Config} {w w' : World} {ls more : List Label}

theorem mails_lootless (h : run (step sha256 config) init ls = some w) :
    ∀ mail ∈ w.player.mails.rows, mail.loots = .empty := by
  intro mail hmail
  rw [(shared_run h).mails] at hmail
  obtain ⟨p, req, headerKey, now, newMailID, auto, _, rfl⟩ := mail_asked h hmail
  rfl

theorem lootless_run (h : run (step sha256 config) init ls = some w) : Lootless w.player := by
  apply reachable_invariant (I := fun u : World => Lootless u.player) ?_ ?_ h
  · intro as u l v hrun hu hl
    cases step_moves hl with
    | player _ hplayer => exact lootless_step hu (shared_run hrun).player (mails_lootless hrun) hplayer
    | relay _ _ => exact ⟨hu.calls, hu.states⟩
  · exact ⟨fun call hcall => (by cases hcall), fun state hstate => (by cases hstate)⟩

theorem going_run {c : Nat} {request : Request} {checkedAt : Time} {lootIndexes : List Int}
    (hop : request.op = .claim lootIndexes) (hnonneg : ∀ i ∈ lootIndexes, 0 ≤ i)
    (hfails : ∀ l ∈ more, l.fails c = false) (hmore : run (step sha256 config) w more = some w')
    (hc : ∃ pc, w.player.calls[c]? = some ⟨request, checkedAt, pc⟩ ∧ Going pc) :
    ∃ pc, w'.player.calls[c]? = some ⟨request, checkedAt, pc⟩ ∧ Going pc := by
  have hguarded : Guarded (step sha256 config) (fun _ l => l.fails c = false) w more :=
    guarded_of_labels fun l hl _ => hfails l hl
  apply guarded_invariant (I := fun u : World => ∃ pc, u.player.calls[c]? = some ⟨request, checkedAt, pc⟩ ∧ Going pc)
    ?_ hc hguarded hmore
  intro u l v hu hok hl
  cases step_moves hl with
  | player _ hplayer => exact going_step hop hnonneg hok hplayer hu
  | relay _ _ => exact hu

end Runs

/-- Mails published through the admin server have no loots. Every reward granted for them is empty, a claim succeeds
only with indexes from 0 on, and no claim of such indexes is refused once the mail is found. -/
theorem claims_of_nothing (sha256 : PublishPayload → String) (config : Nat → Relay.Config) {ls : List Label} {w : World}
    (h : run (step sha256 config) init ls = some w) :
    (∀ row ∈ w.player.rewards.backpack.rows, row.loot = .empty ∧ 0 ≤ row.lootIndex) ∧
    (∀ call ∈ w.player.calls, ∀ lootIndexes state, call.request.op = .claim lootIndexes →
      call.pc = .returned (.ok state) →
        (∀ i ∈ lootIndexes, 0 ≤ i ∧ i ∈ state.claimedLootIndexes) ∨ state.status = .deleted) ∧
    ∀ c call mail lootIndexes, w.player.calls[c]? = some call → call.pc = .readState mail →
      call.request.op = .claim lootIndexes → (∀ i ∈ lootIndexes, 0 ≤ i) →
        ∀ more w', run (step sha256 config) w more = some w' → (∀ l ∈ more, l.fails c = false) →
          ∃ call', w'.player.calls[c]? = some call' ∧ ∀ err, call'.pc ≠ .returned (.error err) := by
  have hbare := lootless_run h
  refine ⟨fun row hrow => ?_, fun call hcall lootIndexes state hop hpc => ?_, ?_⟩
  · obtain ⟨call, _, mail, lootIndexes, hstems⟩ := (shared_run h).player.backpack row hrow
    have hloot := hstems.loot
    rw [mails_lootless h mail hstems.checked.stored] at hloot
    exact (lootAtIndex_empty.mp hloot).symm
  · have hcallBare := hbare.calls call hcall
    rw [hpc] at hcallBare
    exact hcallBare.named lootIndexes hop
  · rintro c ⟨request, checkedAt, pc⟩ mail lootIndexes hc rfl hop hnonneg more w' hmore hfails
    have hmail : mail.loots = .empty := hbare.calls _ (List.mem_of_getElem? hc)
    obtain ⟨pc, hcall, hgoing⟩ := going_run hop hnonneg hfails hmore ⟨_, hc, hmail⟩
    refine ⟨_, hcall, fun err he => ?_⟩
    have hreturned : Going (.returned (.error err)) := he ▸ hgoing
    obtain ⟨state, hok⟩ := hreturned
    cases hok

def claimOfNotice : List Label :=
  publishNotice ++ [.player (.install 0 1 [100] 0), .player (.start ⟨0, PlayerMail.player, 100, .claim [0]⟩ 5 none),
    .player (.getState 0 6 6 .ok)] ++ List.replicate 3 (.player (.grant 0 7 7 .ok)) ++ [.player (.save 0 .ok)]

def claimedWorld : World := (run (step (fun _ => "") fun _ => ⟨"", 0, 0⟩) init claimOfNotice).get (by decide)

theorem claimedWorld_empty : claimedWorld.player.rewards.backpack.rows.length = 1 ∧
    ∀ row ∈ claimedWorld.player.rewards.backpack.rows, row.loot = .empty := by
  have hrun : run (step (fun _ => "") fun _ => ⟨"", 0, 0⟩) init claimOfNotice = some claimedWorld :=
    (Option.some_get _).symm
  exact ⟨by decide, fun row hrow => ((claims_of_nothing _ _ hrun).1 row hrow).1⟩

end GlobalMailSystem.Admin
