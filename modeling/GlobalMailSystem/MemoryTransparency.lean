import GlobalMailSystem.ReplayIdentity
import GlobalMailSystem.SequentialDispatch

namespace GlobalMailSystem.SequentialDispatch

open Rpc.Wire Transition
open IdempotentDispatch (Record claimFor claimed payloadType)

def Label.saves (key : String) : Label → Bool
  | .dispatch _ req replies => commandIdempotencyKey req ≠ key || replies.save.executed
  | .pass _ => true

def World.keeps (w : World) (key : String) : Bool := (w.store key).all fun stored => w.now < stored.expireAt

/-- The step loses no record of the key: it does not fail to save one, and none runs out. -/
def keepsRecord (ttl : Nat → Time) (hash : Option Any → Except String String) (key : String) (w : World)
    (l : Label) : Bool :=
  l.saves key && (step ttl hash w l).all fun w' => w'.keeps key

structure Coherent (w : World) (key : String) : Prop where
  stored : ∀ d record, w.memory d key = some record → ∃ expireAt, w.store key = some ⟨record, expireAt⟩
  kept : w.keeps key = true

variable {ttl : Nat → Time} {hash : Option Any → Except String String} {w w' : World} {d : Nat} {key h : String}
  {req : CommandRequest} {replies : Replies} {record : Record}

theorem getCommandIdempotency_of_keeps (hkept : w.keeps key = true) :
    w.getCommandIdempotency key = (w.store key).map (·.record) := by
  unfold World.keeps at hkept
  unfold World.getCommandIdempotency
  cases hstore : w.store key with
  | none => rfl
  | some stored =>
    have hlive : w.now < stored.expireAt := by simpa [hstore] using hkept
    simp [hlive]

theorem Coherent.getCommandIdempotency (hw : Coherent w key) (hmem : w.memory d key = some record) :
    w.getCommandIdempotency key = some record := by
  obtain ⟨expireAt, hstore⟩ := hw.stored d record hmem
  rw [getCommandIdempotency_of_keeps hw.kept, hstore]
  rfl

theorem memory_remember (w : World) (d : Nat) (key : String) (record : Record) (d' : Nat) (key' : String) :
    (w.remember d key record).memory d' key' =
      if d' = d ∧ key' = key then some record else w.memory d' key' := by
  by_cases hd : d' = d
  · subst hd
    by_cases hkey : key' = key <;> simp [World.remember, hkey]
  · simp [World.remember, hd]

theorem store_of_get (hget : w.getCommandIdempotency key = some record) :
    ∃ expireAt, w.store key = some ⟨record, expireAt⟩ := by
  unfold World.getCommandIdempotency at hget
  split at hget
  · rename_i stored hstore
    split_ifs at hget
    cases hget
    exact ⟨stored.expireAt, hstore⟩
  · cases hget

theorem dispatched_other {key' : String} {decision : Decision} (hne : key' ≠ key)
    (hdispatched : Dispatched ttl w d key h replies w' decision) :
    (∀ d', w'.memory d' key' = w.memory d' key') ∧ w'.store key' = w.store key' := by
  cases hdispatched with
  | recalled | readFailed | storeConflict | executionFailed => exact ⟨fun _ => rfl, rfl⟩
  | replayed | saveFailed => exact ⟨fun d' => by simp [memory_remember, hne], rfl⟩
  | saved => exact ⟨fun d' => by simp [World.saveCommandIdempotency, memory_remember, hne],
      Function.update_of_ne hne ..⟩

theorem Coherent.dispatched {decision : Decision} (hw : Coherent w key) (hsaves : replies.save.executed = true)
    (hdispatched : Dispatched ttl w d key h replies w' decision) :
    ∀ d' record, w'.memory d' key = some record → ∃ expireAt, w'.store key = some ⟨record, expireAt⟩ := by
  intro d' record' hmem'
  cases hdispatched with
  | recalled | readFailed | storeConflict | executionFailed => exact hw.stored d' record' hmem'
  | @replayed record hmem hread hget hhash =>
    rw [memory_remember] at hmem'
    split_ifs at hmem'
    · cases hmem'
      exact store_of_get hget
    · exact hw.stored d' record' hmem'
  | saveFailed hmem hread hget hresult hsave => cases hsaves.symm.trans hsave
  | @saved response hmem hread hget hresult hsave =>
    -- the store had no record of the key, so no map had one
    change (World.remember _ d key _).memory d' key = some record' at hmem'
    rw [memory_remember] at hmem'
    split_ifs at hmem'
    · cases hmem'
      exact ⟨_, Function.update_self ..⟩
    · have hsome := hw.getCommandIdempotency hmem'
      cases hget.symm.trans hsome

theorem coherent_step {l : Label} (hw : Coherent w key) (hkeeps : keepsRecord ttl hash key w l = true)
    (hstep : step ttl hash w l = some w') : Coherent w' key := by
  simp only [keepsRecord, hstep, Option.all_some, Bool.and_eq_true] at hkeeps
  obtain ⟨hsaves, hkept⟩ := hkeeps
  refine ⟨?_, hkept⟩
  cases l with
  | pass now =>
    simp only [step, Option.ite_none_right_eq_some, Option.some.injEq] at hstep
    obtain ⟨-, rfl⟩ := hstep
    exact hw.stored
  | dispatch d req replies =>
    simp only [step, Option.ite_none_right_eq_some, Option.some.injEq] at hstep
    obtain ⟨-, rfl⟩ := hstep
    unfold dispatch
    split_ifs
    · exact hw.stored
    · split
      · exact hw.stored
      · rename_i h _
        have hdispatched := dispatchKeyed_inv ttl w d (commandIdempotencyKey req) h replies
        by_cases hkey : commandIdempotencyKey req = key
        · subst hkey
          have hbacked := hw.dispatched (by simpa [Label.saves] using hsaves) hdispatched
          exact hbacked
        · obtain ⟨hmem, hstore⟩ := dispatched_other (Ne.symm hkey) hdispatched
          intro d' record hmem'
          obtain ⟨expireAt, hold⟩ := hw.stored d' record ((hmem d').symm.trans hmem')
          exact ⟨expireAt, hstore.trans hold⟩

theorem coherent_init (now : Time) (key : String) : Coherent (init now) key :=
  ⟨fun _ _ hmem => (Option.some_ne_none _ hmem.symm).elim, rfl⟩

theorem Coherent.decision_fresh (hw : Coherent w key) (hread : replies.read = .ok) :
    (dispatchKeyed ttl w d key h replies).2 = (dispatchKeyed ttl (w.fresh d) d key h replies).2 := by
  have hfresh : (w.fresh d).memory d key = none := by simp [World.fresh]
  have hget : (w.fresh d).getCommandIdempotency key = w.getCommandIdempotency key := rfl
  cases hmem : w.memory d key with
  | some record =>
    simp only [dispatchKeyed, hmem, hfresh, hread, hget, hw.getCommandIdempotency hmem]
  | none =>
    simp only [dispatchKeyed, hmem, hfresh, hread, hget]
    cases w.getCommandIdempotency key <;> rfl

theorem memory_transparent (ttl : Nat → Time) (hash : Option Any → Except String String) {now : Time}
    {ls : List Label} {w : World} (d : Nat) (req : CommandRequest) (replies : Replies)
    (hkept : Guarded (step ttl hash)
      (fun w l => keepsRecord ttl hash (commandIdempotencyKey req) w l = true) (init now) ls)
    (h : run (step ttl hash) (init now) ls = some w) (hread : replies.read = .ok) :
    (dispatch ttl hash w d req replies).2 = (dispatch ttl hash (w.fresh d) d req replies).2 := by
  have hw : Coherent w (commandIdempotencyKey req) :=
    guarded_invariant (fun _ _ _ hs hok hl => coherent_step hs hok hl) (coherent_init now _) hkept h
  unfold dispatch
  split_ifs
  · rfl
  · split
    · rfl
    · exact hw.decision_fresh hread

def claimReplies (savedAt : Time) (save : Outcome) : Replies := ⟨.ok, .ok claimed, savedAt, save⟩

def timelyRetry : List Label :=
  [.dispatch 0 (claimFor 1) (claimReplies 0 (.lost "timeout")), .dispatch 1 (claimFor 1) (claimReplies 0 .ok),
    .pass (9 * minute)]

def afterTimelyRetry : World := (run (step (fun _ => 10 * minute) payloadType) (init 0) timelyRetry).get (by decide)

theorem timelyRetry_transparent :
    (run (step (fun _ => 10 * minute) payloadType) (init 0) timelyRetry = some afterTimelyRetry ∧
      (dispatch (fun _ => 10 * minute) payloadType afterTimelyRetry 1 (claimFor 1)
        (claimReplies (9 * minute) .ok)).2 = .replay claimed) ∧
    (dispatch (fun _ => 10 * minute) payloadType afterTimelyRetry 1 (claimFor 1)
        (claimReplies (9 * minute) .ok)).2 =
      (dispatch (fun _ => 10 * minute) payloadType (afterTimelyRetry.fresh 1) 1 (claimFor 1)
        (claimReplies (9 * minute) .ok)).2 := by
  have hrun : run (step (fun _ => 10 * minute) payloadType) (init 0) timelyRetry = some afterTimelyRetry :=
    (Option.some_get _).symm
  exact ⟨⟨hrun, by decide⟩, memory_transparent _ _ 1 (claimFor 1) _ (by decide) hrun rfl⟩

def afterTTL : World :=
  (run (step (fun _ => 10 * minute) payloadType) (init 0)
    [.dispatch 0 (claimFor 1) (claimReplies 0 .ok), .pass (11 * minute)]).get (by decide)

def afterFailedSave : World :=
  (run (step (fun _ => 10 * minute) payloadType) (init 0)
    [.dispatch 0 (claimFor 1) (claimReplies 0 (.failed "down"))]).get (by decide)

theorem memory_outlives_store :
    (run (step (fun _ => 10 * minute) payloadType) (init 0)
        [.dispatch 0 (claimFor 1) (claimReplies 0 .ok), .pass (11 * minute)] = some afterTTL ∧
      (dispatch (fun _ => 10 * minute) payloadType afterTTL 0 (claimFor 1)
        (claimReplies (11 * minute) .ok)).2 = .replay claimed ∧
      (dispatch (fun _ => 10 * minute) payloadType (afterTTL.fresh 0) 0 (claimFor 1)
        (claimReplies (11 * minute) .ok)).2 = .execute) ∧
    run (step (fun _ => 10 * minute) payloadType) (init 0)
        [.dispatch 0 (claimFor 1) (claimReplies 0 (.failed "down"))] = some afterFailedSave ∧
      (dispatch (fun _ => 10 * minute) payloadType afterFailedSave 0 (claimFor 1)
        (claimReplies 0 .ok)).2 = .replay claimed ∧
      (dispatch (fun _ => 10 * minute) payloadType (afterFailedSave.fresh 0) 0 (claimFor 1)
        (claimReplies 0 .ok)).2 = .execute :=
  ⟨⟨(Option.some_get _).symm, by decide, by decide⟩, (Option.some_get _).symm, by decide, by decide⟩

end GlobalMailSystem.SequentialDispatch
