import GlobalMailSystem.PlayerMachine

namespace GlobalMailSystem.PlayerMail

open Transition

inductive Step (w : World) : Label → World → Prop
  | addMail {mail : GlobalMail} {mails : Table GlobalMail.id} (h : w.mails.insert mail = some mails) :
      Step w (.addMail mail) { w with mails }
  | install {server : Nat} {version : Int} {mailIDs : List Int} {now : Time} :
      Step w (.install server version mailIDs now)
        { w with
          snapshots := Function.update w.snapshots server
            (CacheSnapshot.build version (mailIDs.filterMap w.mails.find?) now) }
  | start {request : Request} {now : Time} {failure : Option String} :
      Step w (.start request now failure)
        { w with
          calls := w.calls ++
            [⟨request, now, startPC (w.snapshots request.server) request now failure⟩] }
  | getState {c : Nat} {now grantNow checkedAt : Time} {outcome : Outcome} {request : Request}
      {mail : GlobalMail} (hc : w.calls[c]? = some ⟨request, checkedAt, .readState mail⟩) :
      Step w (.getState c now grantNow outcome)
        (w.setCall c ⟨request, checkedAt, readPC w.states request mail now grantNow outcome⟩)
  | grant {c : Nat} {serverNow grantNow checkedAt now : Time} {outcome : Outcome} {request : Request}
      {mail : GlobalMail} {read : UserGlobalMailState} {lootIndexes rest : List Int} {index : Int}
      {pc pc' : GrantPC} {rewards : Rewards}
      (hc : w.calls[c]? = some ⟨request, checkedAt, .grant mail read now lootIndexes index rest pc⟩)
      (h : pc.step w.rewards serverNow outcome = some (rewards, pc')) :
      Step w (.grant c serverNow grantNow outcome)
        ({ w with rewards }.setCall c
          ⟨request, checkedAt, grantPC request mail read now grantNow lootIndexes index rest pc'⟩)
  | save {c : Nat} {outcome : Outcome} {request : Request} {checkedAt : Time}
      {read next : UserGlobalMailState}
      (hc : w.calls[c]? = some ⟨request, checkedAt, .save read next⟩) :
      Step w (.save c outcome)
        ({ w with states := (saveResult w.states next outcome).1 }.setCall c
          ⟨request, checkedAt, (saveResult w.states next outcome).2⟩)
  | stop {c : Nat} {request : Request} {checkedAt : Time} {pc : CallPC}
      (hc : w.calls[c]? = some ⟨request, checkedAt, pc⟩) (hpc : pc.inProgress = true) :
      Step w (.stop c) (w.setCall c ⟨request, checkedAt, .returned (.error "process stopped")⟩)

theorem step_inv {w w' : World} {l : Label} (h : step w l = some w') : Step w l w' := by
  cases l with
  | addMail mail =>
    simp only [step, Option.map_eq_some_iff] at h
    obtain ⟨mails, hmails, rfl⟩ := h
    exact .addMail hmails
  | install server version mailIDs now =>
    cases h
    exact .install
  | start request now failure =>
    cases h
    exact .start
  | getState c now grantNow outcome =>
    simp only [step] at h
    split at h
    · rename_i hc
      cases h
      exact .getState hc
    · cases h
  | grant c serverNow grantNow outcome =>
    simp only [step] at h
    split at h
    · rename_i hc
      simp only [Option.map_eq_some_iff] at h
      obtain ⟨⟨rewards, pc'⟩, hpc, rfl⟩ := h
      exact .grant hc hpc
    · cases h
  | save c outcome =>
    simp only [step] at h
    split at h
    · rename_i hc
      cases h
      exact .save hc
    · cases h
  | stop c =>
    simp only [step] at h
    split at h
    · cases h
    · cases h
    · rename_i request checkedAt pc hnot hc
      cases h
      refine .stop hc ?_
      cases pc with
      | returned result => exact absurd rfl (hnot result)
      | readState | grant | save => rfl

section Rules

variable {P : CallPC → Prop} {request : Request} {mail : GlobalMail} {read : UserGlobalMailState}
  {now grantNow : Time}

theorem claimPC_rule {lootIndexes rest : List Int}
    (hsave : rest = [] → P (.save read (stamped now (claimed now lootIndexes read))))
    (herror : ∀ err, P (.returned (.error err)))
    (hgrant : ∀ index tail loot, rest = index :: tail → lootAtIndex mail.loots index = .ok loot →
      P (.grant mail read now lootIndexes index tail
        (.start (rewardGrant request.profile request.mailID index loot now) grantNow))) :
    P (claimPC request mail read now grantNow lootIndexes rest) := by
  cases rest with
  | nil => exact hsave rfl
  | cons index tail =>
    simp only [claimPC]
    split
    · exact herror _
    · rename_i loot hloot
      exact hgrant index tail loot rfl hloot

theorem applyPC_rule
    (hread : request.op = .markRead → P (.save read (stamped now (markedRead now read))))
    (hdelete : request.op = .delete → P (.save read (stamped now (deleted now read))))
    (hgone : ∀ lootIndexes, request.op = .claim lootIndexes → read.status = .deleted →
      P (.save read (stamped now read)))
    (hclaim : ∀ lootIndexes, request.op = .claim lootIndexes → read.status ≠ .deleted →
      P (claimPC request mail read now grantNow lootIndexes
        (newLootIndexes read.claimedLootIndexes lootIndexes))) :
    P (applyPC request mail read now grantNow) := by
  unfold applyPC
  split
  · rename_i hop
    exact hread hop
  · rename_i lootIndexes hop
    split_ifs with hstatus
    · exact hgone lootIndexes hop hstatus
    · exact hclaim lootIndexes hop hstatus
  · rename_i hop
    exact hdelete hop

theorem grantPC_rule {lootIndexes rest : List Int} {index : Int} {pc : GrantPC}
    (herror : ∀ err, P (.returned (.error err)))
    (hclaim : P (claimPC request mail read now grantNow lootIndexes rest))
    (hgrant : P (.grant mail read now lootIndexes index rest pc)) :
    P (grantPC request mail read now grantNow lootIndexes index rest pc) := by
  cases pc with
  | returned grantKey result =>
    cases result with
    | error err => exact herror err
    | ok granted => exact hclaim
  | reserve | backpack | markFailed | markSucceeded => exact hgrant

end Rules

theorem mem_setCall {w : World} {c : Nat} {call other : Call} (h : other ∈ (w.setCall c call).calls) :
    other = call ∨ other ∈ w.calls := by
  rcases List.mem_or_eq_of_mem_set h with h | h
  · exact Or.inr h
  · exact Or.inl h

theorem mem_setCall_self {w : World} {c : Nat} {old : Call} (hc : w.calls[c]? = some old) (call : Call) :
    call ∈ (w.setCall c call).calls :=
  List.mem_set (List.getElem?_eq_some_iff.mp hc).1 call

theorem mem_setCall_of_ne {w : World} {c : Nat} {old call other : Call}
    (hc : w.calls[c]? = some old) (h : other ∈ w.calls) (hne : other ≠ old) :
    other ∈ (w.setCall c call).calls := by
  obtain ⟨d, hd⟩ := List.mem_iff_getElem?.mp h
  have hdc : c ≠ d := by
    rintro rfl
    exact hne (Option.some.inj (hd.symm.trans hc))
  exact List.mem_iff_getElem?.mpr ⟨d, by simp only [World.setCall, List.getElem?_set_ne hdc, hd]⟩

structure Extends (w w' : World) : Prop where
  mails : ∀ mail ∈ w.mails.rows, mail ∈ w'.mails.rows
  calls : ∀ call ∈ w.calls, ∃ pc, { call with pc } ∈ w'.calls

theorem extends_setCall {w : World} {c : Nat} {request : Request} {checkedAt : Time} {pc pc' : CallPC}
    {states : StateTable} {rewards : Rewards} (hc : w.calls[c]? = some ⟨request, checkedAt, pc⟩) :
    Extends w ({ w with states, rewards }.setCall c ⟨request, checkedAt, pc'⟩) where
  mails _ h := h
  calls call h := by
    by_cases he : call = ⟨request, checkedAt, pc⟩
    · rw [he]
      exact ⟨pc', mem_setCall_self hc _⟩
    · exact ⟨call.pc, mem_setCall_of_ne hc h he⟩

theorem step_extends {w w' : World} {l : Label} (h : Step w l w') : Extends w w' := by
  cases h with
  | addMail h => exact ⟨fun mail hm => (Table.mem_insert h).mpr (Or.inl hm), fun call hc => ⟨_, hc⟩⟩
  | install => exact ⟨fun _ hm => hm, fun call hc => ⟨_, hc⟩⟩
  | start => exact ⟨fun _ hm => hm, fun call hc => ⟨_, List.mem_append_left _ hc⟩⟩
  | getState hc => exact extends_setCall hc
  | grant hc hpc => exact extends_setCall hc
  | save hc => exact extends_setCall hc
  | stop hc hpc => exact extends_setCall hc

end GlobalMailSystem.PlayerMail
