import GlobalMailSystem.IdempotentDispatch
import GlobalMailSystem.MailTypes

/-!
`IdempotentCommandDispatcher.Dispatch` call after call, on any number of dispatchers that share a store. A record
of the store runs out with its TTL, a record in the map of a dispatcher never does.
-/

namespace GlobalMailSystem.SequentialDispatch

open Rpc.Wire Transition
open IdempotentDispatch (Record)

structure Stored where
  record : Record
  expireAt : Time

structure World where
  now : Time
  calls : Nat
  store : String → Option Stored
  memory : Nat → String → Option Record

def init (now : Time) : World := ⟨now, 0, fun _ => none, fun _ _ => none⟩

inductive Decision
  | execute
  | replay (response : CommandResponse)
  | conflict
  | failed (err : String)
  deriving DecidableEq

structure Replies where
  read : Outcome
  result : Except String CommandResponse
  savedAt : Time
  save : Outcome

inductive Label
  | pass (now : Time)
  | dispatch (d : Nat) (req : CommandRequest) (replies : Replies)

def World.getCommandIdempotency (w : World) (key : String) : Option Record :=
  match w.store key with
  | some stored => if w.now < stored.expireAt then some stored.record else none
  | none => none

def recordTTL (ttl : Time) : Time := if ttl ≤ 0 then 10 * minute else ttl

def World.saveCommandIdempotency (w : World) (key : String) (record : Record) (ttl : Time) : World :=
  { w with store := Function.update w.store key (some ⟨record, w.now + recordTTL ttl⟩) }

def World.remember (w : World) (d : Nat) (key : String) (record : Record) : World :=
  { w with memory := Function.update w.memory d (Function.update (w.memory d) key (some record)) }

def World.fresh (w : World) (d : Nat) : World :=
  { w with memory := Function.update w.memory d fun _ => none }

def answer (hash : String) (record : Record) : Decision :=
  if record.hash ≠ hash then .conflict else .replay record.response

section Dispatch

variable (ttl : Nat → Time)

def execute (w : World) (d : Nat) (key hash : String) (replies : Replies) : World :=
  match replies.result with
  | .error _ => w
  | .ok response =>
    let record : Record := ⟨hash, response, w.calls⟩
    let w := { w with now := replies.savedAt }.remember d key record
    if replies.save.executed then w.saveCommandIdempotency key record (ttl d) else w

def dispatchKeyed (w : World) (d : Nat) (key hash : String) (replies : Replies) : World × Decision :=
  match w.memory d key with
  | some record => (w, answer hash record)
  | none =>
    match replies.read with
    | .ok =>
      match w.getCommandIdempotency key with
      | some record => (if record.hash ≠ hash then w else w.remember d key record, answer hash record)
      | none => (execute ttl w d key hash replies, .execute)
    | .failed err | .lost err => (w, .failed err)

variable (hash : Option Any → Except String String)

def dispatch (w : World) (d : Nat) (req : CommandRequest) (replies : Replies) : World × Decision :=
  if req.uid = 0 ∨ req.seq = 0 then (w, .execute)
  else
    match hash req.payload with
    | .error err => (w, .failed err)
    | .ok h => dispatchKeyed ttl w d (commandIdempotencyKey req) h replies

def step (w : World) : Label → Option World
  | .pass now => if w.now ≤ now then some { w with now } else none
  | .dispatch d req replies =>
    if w.now ≤ replies.savedAt then some { (dispatch ttl hash w d req replies).1 with calls := w.calls + 1 }
    else none

end Dispatch

inductive Dispatched (ttl : Nat → Time) (w : World) (d : Nat) (key hash : String) (replies : Replies) :
    World → Decision → Prop
  | recalled {record : Record} (hmem : w.memory d key = some record) :
      Dispatched ttl w d key hash replies w (answer hash record)
  | readFailed {err : String} (hmem : w.memory d key = none)
      (hread : replies.read = .failed err ∨ replies.read = .lost err) :
      Dispatched ttl w d key hash replies w (.failed err)
  | storeConflict {record : Record} (hmem : w.memory d key = none) (hread : replies.read = .ok)
      (hget : w.getCommandIdempotency key = some record) (hhash : record.hash ≠ hash) :
      Dispatched ttl w d key hash replies w .conflict
  | replayed {record : Record} (hmem : w.memory d key = none) (hread : replies.read = .ok)
      (hget : w.getCommandIdempotency key = some record) (hhash : record.hash = hash) :
      Dispatched ttl w d key hash replies (w.remember d key record) (.replay record.response)
  | executionFailed {err : String} (hmem : w.memory d key = none) (hread : replies.read = .ok)
      (hget : w.getCommandIdempotency key = none) (hresult : replies.result = .error err) :
      Dispatched ttl w d key hash replies w .execute
  | saveFailed {response : CommandResponse} (hmem : w.memory d key = none) (hread : replies.read = .ok)
      (hget : w.getCommandIdempotency key = none) (hresult : replies.result = .ok response)
      (hsave : replies.save.executed = false) :
      Dispatched ttl w d key hash replies
        ({ w with now := replies.savedAt }.remember d key ⟨hash, response, w.calls⟩) .execute
  | saved {response : CommandResponse} (hmem : w.memory d key = none) (hread : replies.read = .ok)
      (hget : w.getCommandIdempotency key = none) (hresult : replies.result = .ok response)
      (hsave : replies.save.executed = true) :
      Dispatched ttl w d key hash replies
        (({ w with now := replies.savedAt }.remember d key ⟨hash, response, w.calls⟩).saveCommandIdempotency key
          ⟨hash, response, w.calls⟩ (ttl d)) .execute

theorem dispatchKeyed_inv (ttl : Nat → Time) (w : World) (d : Nat) (key hash : String) (replies : Replies) :
    Dispatched ttl w d key hash replies (dispatchKeyed ttl w d key hash replies).1
      (dispatchKeyed ttl w d key hash replies).2 := by
  unfold dispatchKeyed
  cases hmem : w.memory d key with
  | some record => exact .recalled hmem
  | none =>
    cases hread : replies.read with
    | failed err => exact .readFailed hmem (.inl hread)
    | lost err => exact .readFailed hmem (.inr hread)
    | ok =>
      cases hget : w.getCommandIdempotency key with
      | some record =>
        by_cases hhash : record.hash = hash
        · simpa [answer, hhash] using Dispatched.replayed hmem hread hget hhash
        · simpa [answer, hhash] using Dispatched.storeConflict hmem hread hget hhash
      | none =>
        cases hresult : replies.result with
        | error err => simpa [execute, hresult] using Dispatched.executionFailed hmem hread hget hresult
        | ok response =>
          cases hsave : replies.save.executed with
          | false => simpa [execute, hresult, hsave] using Dispatched.saveFailed hmem hread hget hresult hsave
          | true => simpa [execute, hresult, hsave] using Dispatched.saved hmem hread hget hresult hsave

section Simulation

def Decision.value (req : CommandRequest) (replies : Replies) : Decision → Except String CommandResponse
  | .execute =>
    match replies.result with
    | .error err => .error err
    | .ok response =>
      if req.uid = 0 ∨ req.seq = 0 then .ok response
      else
        match replies.save with
        | .ok => .ok response
        | .failed err | .lost err => .error err
  | .replay response => .ok response
  | .conflict => .ok (commandIdempotencyConflictResponse req)
  | .failed err => .error err

/-- The machine of interleaved calls may still hold a record that has run out: it drops a record in a step. -/
structure Corresponds (w : World) (m : IdempotentDispatch.World) : Prop where
  calls : m.calls.length = w.calls
  memory : m.memory = w.memory
  store : ∀ key, m.store key = (w.store key).map (·.record) ∨
    (m.store key = none ∧ w.getCommandIdempotency key = none)

variable {ttl : Nat → Time} {hash : Option Any → Except String String} {w w' : World}
  {m : IdempotentDispatch.World} {d : Nat} {key h : String} {req : CommandRequest} {replies : Replies}

theorem get_none_of_le {now : Time} (hnone : w.getCommandIdempotency key = none) (hnow : w.now ≤ now) :
    { w with now }.getCommandIdempotency key = none := by
  unfold World.getCommandIdempotency at *
  cases hstore : w.store key with
  | none => rfl
  | some stored =>
    simp only [hstore, ite_eq_right_iff, reduceCtorEq, imp_false, not_lt] at hnone ⊢
    exact hnone.trans hnow

theorem Corresponds.later (hw : Corresponds w m) {now : Time} (hnow : w.now ≤ now) :
    Corresponds { w with now } m where
  calls := hw.calls
  memory := hw.memory
  store key := (hw.store key).imp_right fun hnone => ⟨hnone.1, get_none_of_le hnone.2 hnow⟩

theorem Corresponds.settled (hash : Option Any → Except String String) (hw : Corresponds w m) (key : String) :
    ∃ m', Reaches (IdempotentDispatch.step (fun _ => true) hash) (fun _ => True) m m' ∧ Corresponds w m' ∧
      m'.store key = w.getCommandIdempotency key := by
  -- what the machine's store answers for a key is what the store answers, after the record has been dropped if
  -- it has run out
  by_cases hsame : m.store key = w.getCommandIdempotency key
  · exact ⟨m, .refl m, hw, hsame⟩
  · have hnone : w.getCommandIdempotency key = none := by
      rcases hw.store key with hstore | hnone
      · rw [hstore] at hsame
        unfold World.getCommandIdempotency at hsame ⊢
        cases hstored : w.store key with
        | none => rfl
        | some stored =>
          simp only [hstored, Option.map_some] at hsame ⊢
          split_ifs at hsame ⊢ with hlive
          · exact absurd rfl hsame
          · rfl
      · exact hnone.2
    refine ⟨{ m with store := Function.update m.store key none },
      .head (l := .expire key) trivial rfl (.refl _), ?_, ?_⟩
    · refine ⟨hw.calls, hw.memory, fun key' => ?_⟩
      by_cases hkey : key' = key
      · subst hkey
        exact .inr ⟨Function.update_self .., hnone⟩
      · simpa [Function.update_of_ne hkey] using hw.store key'
    · rw [hnone]
      exact Function.update_self ..

def Simulates (hash : Option Any → Except String String) (m : IdempotentDispatch.World) (c : Nat)
    (req : CommandRequest) (w' : World) (value : Except String CommandResponse) : Prop :=
  ∃ m' call answer, Reaches (IdempotentDispatch.step (fun _ => true) hash) (fun _ => True) m m' ∧
    Corresponds w' m' ∧ m'.calls[c]? = some call ∧ call.pc = .returned answer ∧ answer.value req = value

variable {c : Nat} {call : IdempotentDispatch.Call} {pc : IdempotentDispatch.CallPC} {record : Record}
  {completed : Option CommandResponse} {value : Except String CommandResponse}

theorem Simulates.head {t : IdempotentDispatch.World} {l : IdempotentDispatch.Label}
    (hl : IdempotentDispatch.step (fun _ => true) hash m l = some t) (ht : Simulates hash t c req w' value) :
    Simulates hash m c req w' value := by
  obtain ⟨m', call, answer, hreach, hrest⟩ := ht
  exact ⟨m', call, answer, .head trivial hl hreach, hrest⟩

theorem Simulates.advance (event : IdempotentDispatch.Event) {u : IdempotentDispatch.Update}
    (hc : m.calls[c]? = some call)
    (hu : IdempotentDispatch.advance (fun _ => true) m c call call.pc event = some u)
    (h : Simulates hash (m.update c call u) c req w' value) : Simulates hash m c req w' value :=
  .head (l := .step c event) (by simp [IdempotentDispatch.step, hc, hu]) h

theorem simulates_returned {answer : IdempotentDispatch.Answer} (hc : m.calls[c]? = some call)
    (hpc : call.pc = .returned answer) (hw : Corresponds w m) : Simulates hash m c req w (answer.value req) :=
  ⟨m, call, answer, .refl m, hw, hc, hpc, rfl⟩

theorem Corresponds.goto (hw : Corresponds w m) : Corresponds w (m.update c call ⟨pc, none, none, completed⟩) where
  calls := List.length_set.trans hw.calls
  memory := hw.memory
  store := hw.store

theorem Corresponds.remember (hw : Corresponds w m) (call : IdempotentDispatch.Call) :
    Corresponds (w.remember call.dispatcher call.key record) (m.update c call ⟨pc, some record, none, completed⟩) where
  calls := List.length_set.trans hw.calls
  memory := by simp only [IdempotentDispatch.World.update, World.remember, hw.memory]
  store := hw.store

theorem Corresponds.save (hw : Corresponds w m) (ttl : Time) :
    Corresponds (w.saveCommandIdempotency call.key record ttl)
      (m.update c call ⟨pc, none, some record, completed⟩) where
  calls := List.length_set.trans hw.calls
  memory := hw.memory
  store key := by
    by_cases hkey : key = call.key
    · subst hkey
      exact .inl (by simp [IdempotentDispatch.World.update, World.saveCommandIdempotency])
    · have hmachine : (m.update c call ⟨pc, none, some record, completed⟩).store key = m.store key :=
        Function.update_of_ne hkey ..
      have hstore : (w.saveCommandIdempotency call.key record ttl).store key = w.store key :=
        Function.update_of_ne hkey ..
      rw [hmachine, World.getCommandIdempotency, hstore]
      exact hw.store key

section Keyed

variable (hc : m.calls[c]? = some ⟨d, req, h, pc⟩)
include hc

theorem simulates_recalled (hpc : pc = .lookup) (hw : Corresponds w m)
    (hmem : w.memory d (commandIdempotencyKey req) = some record) :
    Simulates hash m c req w ((answer h record).value req replies) := by
  subst hpc
  have hfound : m.memory d (commandIdempotencyKey req) = some record := hw.memory ▸ hmem
  by_cases hhash : record.hash = h
  · refine .advance (u := .goto (.returned (.replayed record))) .lookup hc ?_ ?_
    · simp [IdempotentDispatch.advance, IdempotentDispatch.Call.key, hfound, hhash]
    · rw [answer, if_neg (not_not.mpr hhash)]
      exact simulates_returned (IdempotentDispatch.update_call_same hc) rfl hw.goto
  · refine .advance (u := .goto (.returned .conflict)) .lookup hc ?_ ?_
    · simp [IdempotentDispatch.advance, IdempotentDispatch.Call.key, hfound, hhash]
    · rw [answer, if_pos hhash]
      exact simulates_returned (IdempotentDispatch.update_call_same hc) rfl hw.goto

theorem simulates_missed (hpc : pc = .lookup) (hmem : m.memory d (commandIdempotencyKey req) = none)
    (hrest : Simulates hash (m.update c ⟨d, req, h, .lookup⟩ (.goto .readStore)) c req w' value) :
    Simulates hash m c req w' value := by
  subst hpc
  refine .advance .lookup hc ?_ hrest
  simp [IdempotentDispatch.advance, IdempotentDispatch.Call.key, hmem]

theorem simulates_readFailed {err : String} (hpc : pc = .readStore) (hw : Corresponds w m)
    (hread : replies.read = .failed err ∨ replies.read = .lost err) :
    Simulates hash m c req w ((Decision.failed err).value req replies) := by
  subst hpc
  refine .advance (u := .goto (.returned (.failed err))) (.readStore replies.read) hc ?_ ?_
  · rcases hread with hread | hread <;> simp [IdempotentDispatch.advance, hread]
  · exact simulates_returned (IdempotentDispatch.update_call_same hc) rfl hw.goto

theorem simulates_storeConflict (hpc : pc = .readStore) (hw : Corresponds w m)
    (hstore : m.store (commandIdempotencyKey req) = some record) (hhash : record.hash ≠ h) :
    Simulates hash m c req w (Decision.conflict.value req replies) := by
  subst hpc
  refine .advance (u := .goto (.returned .conflict)) (.readStore .ok) hc ?_ ?_
  · simp [IdempotentDispatch.advance, IdempotentDispatch.Call.key, hstore, hhash]
  · exact simulates_returned (IdempotentDispatch.update_call_same hc) rfl hw.goto

theorem simulates_replayed (hpc : pc = .readStore) (hw : Corresponds w m)
    (hstore : m.store (commandIdempotencyKey req) = some record) (hhash : record.hash = h) :
    Simulates hash m c req (w.remember d (commandIdempotencyKey req) record)
      ((Decision.replay record.response).value req replies) := by
  subst hpc
  refine .advance (u := .goto (.rememberStored record)) (.readStore .ok) hc ?_ ?_
  · simp [IdempotentDispatch.advance, IdempotentDispatch.Call.key, hstore, hhash]
  · have hc' := IdempotentDispatch.update_call_same (u := .goto (.rememberStored record)) hc
    refine .advance .rememberStored hc' rfl ?_
    exact simulates_returned (IdempotentDispatch.update_call_same hc') rfl
      (hw.goto.remember ⟨d, req, h, .rememberStored record⟩)

theorem simulates_storeMissed (hpc : pc = .readStore) (hstore : m.store (commandIdempotencyKey req) = none)
    (hrest : Simulates hash (m.update c ⟨d, req, h, .readStore⟩ (.goto .executing)) c req w' value) :
    Simulates hash m c req w' value := by
  subst hpc
  refine .advance (.readStore .ok) hc ?_ hrest
  simp [IdempotentDispatch.advance, IdempotentDispatch.Call.key, hstore]

theorem simulates_executionFailed {err : String} (hpc : pc = .executing) (hw : Corresponds w m)
    (hresult : replies.result = .error err) :
    Simulates hash m c req w (Decision.execute.value req replies) := by
  subst hpc
  rw [Decision.value, hresult]
  refine .advance (.complete (.error err)) hc rfl ?_
  exact simulates_returned (IdempotentDispatch.update_call_same hc) rfl hw.goto

theorem simulates_executed {response : CommandResponse} (hpc : pc = .executing) (hw : Corresponds w m)
    (hrest : ∀ m', m'.calls[c]? = some ⟨d, req, h, .save response⟩ →
      Corresponds (w.remember d (commandIdempotencyKey req) ⟨h, response, c⟩) m' →
      Simulates hash m' c req w' value) : Simulates hash m c req w' value := by
  subst hpc
  have hc' := IdempotentDispatch.update_call_same (u := ⟨.remember response, none, none, some response⟩) hc
  refine .advance (.complete (.ok response)) hc rfl (.advance .remember hc' rfl ?_)
  exact hrest _ (IdempotentDispatch.update_call_same hc')
    (hw.goto.remember ⟨d, req, h, .remember response⟩)

theorem simulates_saveFailed {response : CommandResponse} (hpc : pc = .save response)
    (hkeyed : ¬ (req.uid = 0 ∨ req.seq = 0)) (hw : Corresponds w m) (hresult : replies.result = .ok response)
    (hsave : replies.save.executed = false) :
    Simulates hash m c req w (Decision.execute.value req replies) := by
  subst hpc
  cases houtcome : replies.save with
  | failed err =>
    simp only [Decision.value, hresult, if_neg hkeyed, houtcome]
    refine .advance (.save (.failed err)) hc rfl ?_
    exact simulates_returned (IdempotentDispatch.update_call_same hc) rfl hw.goto
  | ok | lost => simp [houtcome, Outcome.executed] at hsave

theorem simulates_saved {response : CommandResponse} (hpc : pc = .save response)
    (hkeyed : ¬ (req.uid = 0 ∨ req.seq = 0)) (hw : Corresponds w m) (hresult : replies.result = .ok response)
    (hsave : replies.save.executed = true) (ttl : Time) :
    Simulates hash m c req (w.saveCommandIdempotency (commandIdempotencyKey req) ⟨h, response, c⟩ ttl)
      (Decision.execute.value req replies) := by
  subst hpc
  cases houtcome : replies.save with
  | ok =>
    simp only [Decision.value, hresult, if_neg hkeyed, houtcome]
    refine .advance (.save .ok) hc rfl ?_
    exact simulates_returned (IdempotentDispatch.update_call_same hc) rfl (hw.save ttl)
  | lost err =>
    simp only [Decision.value, hresult, if_neg hkeyed, houtcome]
    refine .advance (.save (.lost err)) hc rfl ?_
    exact simulates_returned (IdempotentDispatch.update_call_same hc) rfl (hw.save ttl)
  | failed err => simp [houtcome, Outcome.executed] at hsave

end Keyed

theorem dispatched_simulated (hw : Corresponds { w with calls := w.calls + 1 } m)
    (hc : m.calls[w.calls]? = some ⟨d, req, h, .lookup⟩) (hkeyed : ¬ (req.uid = 0 ∨ req.seq = 0))
    (hnow : w.now ≤ replies.savedAt)
    (hstore : m.store (commandIdempotencyKey req) = w.getCommandIdempotency (commandIdempotencyKey req))
    {decision : Decision} (hdispatched : Dispatched ttl w d (commandIdempotencyKey req) h replies w' decision) :
    Simulates hash m w.calls req { w' with calls := w.calls + 1 } (decision.value req replies) := by
  have hmiss (hmem : w.memory d (commandIdempotencyKey req) = none) :
      m.memory d (commandIdempotencyKey req) = none := hw.memory ▸ hmem
  have hread := IdempotentDispatch.update_call_same (u := .goto .readStore) hc
  have hexec := IdempotentDispatch.update_call_same (u := .goto .executing) hread
  cases hdispatched with
  | recalled hmem => exact simulates_recalled hc rfl hw hmem
  | readFailed hmem hfailed =>
    exact simulates_missed hc rfl (hmiss hmem) (simulates_readFailed hread rfl hw.goto hfailed)
  | storeConflict hmem _ hget hhash =>
    exact simulates_missed hc rfl (hmiss hmem)
      (simulates_storeConflict hread rfl hw.goto (hstore.trans hget) hhash)
  | replayed hmem _ hget hhash =>
    exact simulates_missed hc rfl (hmiss hmem) (simulates_replayed hread rfl hw.goto (hstore.trans hget) hhash)
  | executionFailed hmem _ hget hresult =>
    exact simulates_missed hc rfl (hmiss hmem) (simulates_storeMissed hread rfl (hstore.trans hget)
      (simulates_executionFailed hexec rfl hw.goto.goto hresult))
  | saveFailed hmem _ hget hresult hsave =>
    refine simulates_missed hc rfl (hmiss hmem) (simulates_storeMissed hread rfl (hstore.trans hget) ?_)
    exact simulates_executed hexec rfl (hw.later hnow).goto.goto fun m' hc' hw' =>
      simulates_saveFailed hc' rfl hkeyed hw' hresult hsave
  | saved hmem _ hget hresult hsave =>
    refine simulates_missed hc rfl (hmiss hmem) (simulates_storeMissed hread rfl (hstore.trans hget) ?_)
    exact simulates_executed hexec rfl (hw.later hnow).goto.goto fun m' hc' hw' =>
      simulates_saved hc' rfl hkeyed hw' hresult hsave (ttl d)

theorem Corresponds.begin (hw : Corresponds w m) (call : IdempotentDispatch.Call) :
    Corresponds { w with calls := w.calls + 1 } { m with calls := m.calls ++ [call] } where
  calls := by simp [hw.calls]
  memory := hw.memory
  store := hw.store

theorem dispatch_simulated (hw : Corresponds w m) (hnow : w.now ≤ replies.savedAt) :
    Simulates hash m w.calls req { (dispatch ttl hash w d req replies).1 with calls := w.calls + 1 }
      ((dispatch ttl hash w d req replies).2.value req replies) := by
  obtain ⟨m₁, hreach, hw₁, hstore⟩ := hw.settled hash (commandIdempotencyKey req)
  have hbegin {w' value} (hrest : Simulates hash
      { m₁ with calls := m₁.calls ++ [IdempotentDispatch.start hash d req] } w.calls req w' value) :
      Simulates hash m w.calls req w' value := by
    obtain ⟨m', call, answer, hrest, hend⟩ := hrest
    exact ⟨m', call, answer, hreach.trans (.head (l := .dispatch d req) trivial rfl hrest), hend⟩
  have hc (call : IdempotentDispatch.Call) : (m₁.calls ++ [call])[w.calls]? = some call := by
    rw [← hw₁.calls, List.getElem?_concat_length]
  apply hbegin
  unfold dispatch IdempotentDispatch.start
  split_ifs with hdirect
  · cases hresult : replies.result with
    | error err =>
      simp only [Decision.value, hresult]
      refine .advance (.complete (.error err)) (hc _) rfl ?_
      exact simulates_returned (IdempotentDispatch.update_call_same (hc _)) rfl (hw₁.begin _).goto
    | ok response =>
      simp only [Decision.value, hresult, if_pos hdirect]
      refine .advance (.complete (.ok response)) (hc _) rfl ?_
      exact simulates_returned (IdempotentDispatch.update_call_same (hc _)) rfl (hw₁.begin _).goto
  · cases hpayload : hash req.payload with
    | error err => exact simulates_returned (hc ⟨d, req, "", .returned (.failed err)⟩) rfl (hw₁.begin _)
    | ok h => exact dispatched_simulated (hw₁.begin _) (hc _) hdirect hnow hstore (dispatchKeyed_inv ..)

theorem run_simulated {now : Time} {ls : List Label} (h : run (step ttl hash) (init now) ls = some w) :
    ∃ m, Reaches (IdempotentDispatch.step (fun _ => true) hash) (fun _ => True) IdempotentDispatch.init m ∧
      Corresponds w m := by
  refine run_invariant (I := fun w => ∃ m, Reaches _ _ IdempotentDispatch.init m ∧ Corresponds w m) ?_
    ⟨_, .refl _, rfl, rfl, fun _ => .inl rfl⟩ h
  rintro w l w' ⟨m, hreach, hw⟩ hstep
  cases l with
  | pass now =>
    simp only [step, Option.ite_none_right_eq_some, Option.some.injEq] at hstep
    obtain ⟨hnow, rfl⟩ := hstep
    exact ⟨m, hreach, hw.later hnow⟩
  | dispatch d req replies =>
    simp only [step, Option.ite_none_right_eq_some, Option.some.injEq] at hstep
    obtain ⟨hnow, rfl⟩ := hstep
    obtain ⟨m', -, -, hrest, hw', -⟩ := dispatch_simulated hw hnow
    exact ⟨m', hreach.trans hrest, hw'⟩

end Simulation

end GlobalMailSystem.SequentialDispatch
