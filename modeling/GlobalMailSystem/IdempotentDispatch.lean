import GlobalMailSystem.CommandMessages
import GlobalMailSystem.Transition

/-!
Any number of `IdempotentCommandDispatcher.Dispatch` calls on any number of dispatchers over one
store. A step of a call is one region under the mutex, one call of the store, or the return of the
wrapped dispatcher.
-/

namespace GlobalMailSystem.IdempotentDispatch

open Rpc.Wire

/-- `producer` is the call whose execution gave the response; the code does not keep it. -/
structure Record where
  hash : String
  response : CommandResponse
  producer : Nat
  deriving DecidableEq

inductive Answer
  | executed (response : CommandResponse)
  | replayed (record : Record)
  | conflict
  | failed (err : String)
  deriving DecidableEq

def Answer.value (req : CommandRequest) : Answer → Except String CommandResponse
  | .executed response => .ok response
  | .replayed record => .ok record.response
  | .conflict => .ok (commandIdempotencyConflictResponse req)
  | .failed err => .error err

inductive CallPC
  | direct
  | lookup
  | readStore
  | rememberStored (record : Record)
  | executing
  | remember (response : CommandResponse)
  | save (response : CommandResponse)
  | returned (answer : Answer)
  deriving DecidableEq

structure Call where
  dispatcher : Nat
  req : CommandRequest
  hash : String
  pc : CallPC

def Call.key (call : Call) : String := commandIdempotencyKey call.req

structure Completion where
  call : Nat
  req : CommandRequest
  response : CommandResponse
  deriving DecidableEq

structure World where
  calls : List Call
  memory : Nat → String → Option Record
  store : String → Option Record
  completed : List Completion

def init : World := ⟨[], fun _ _ => none, fun _ => none, []⟩

inductive Event
  | lookup
  | readStore (outcome : Outcome)
  | rememberStored
  | complete (result : Except String CommandResponse)
  | remember
  | save (outcome : Outcome)

inductive Label
  | dispatch (dispatcher : Nat) (req : CommandRequest)
  | step (call : Nat) (event : Event)
  | expire (key : String)

structure Update where
  pc : CallPC
  memory : Option Record
  store : Option Record
  completed : Option CommandResponse

def Update.goto (pc : CallPC) : Update := ⟨pc, none, none, none⟩

def start (hash : Option Any → Except String String) (d : Nat) (req : CommandRequest) : Call :=
  if req.uid = 0 ∨ req.seq = 0 then ⟨d, req, "", .direct⟩
  else
    match hash req.payload with
    | .error err => ⟨d, req, "", .returned (.failed err)⟩
    | .ok h => ⟨d, req, h, .lookup⟩

section Step

variable (hasStore : Nat → Bool)

def advance (w : World) (c : Nat) (call : Call) : CallPC → Event → Option Update
  | .direct, .complete (.ok response) =>
    some ⟨.returned (.executed response), none, none, some response⟩
  | .direct, .complete (.error err) => some (.goto (.returned (.failed err)))
  | .lookup, .lookup =>
    match w.memory call.dispatcher call.key with
    | some record =>
      if record.hash ≠ call.hash then some (.goto (.returned .conflict))
      else some (.goto (.returned (.replayed record)))
    | none => some (.goto (if hasStore call.dispatcher then .readStore else .executing))
  | .readStore, .readStore .ok =>
    match w.store call.key with
    | some record =>
      if record.hash ≠ call.hash then some (.goto (.returned .conflict))
      else some (.goto (.rememberStored record))
    | none => some (.goto .executing)
  | .readStore, .readStore (.failed err) => some (.goto (.returned (.failed err)))
  | .readStore, .readStore (.lost err) => some (.goto (.returned (.failed err)))
  | .rememberStored record, .rememberStored =>
    some ⟨.returned (.replayed record), some record, none, none⟩
  | .executing, .complete (.ok response) => some ⟨.remember response, none, none, some response⟩
  | .executing, .complete (.error err) => some (.goto (.returned (.failed err)))
  | .remember response, .remember =>
    some ⟨if hasStore call.dispatcher then .save response else .returned (.executed response),
      some ⟨call.hash, response, c⟩, none, none⟩
  | .save response, .save .ok =>
    some ⟨.returned (.executed response), none, some ⟨call.hash, response, c⟩, none⟩
  | .save _, .save (.failed err) => some (.goto (.returned (.failed err)))
  | .save response, .save (.lost err) =>
    some ⟨.returned (.failed err), none, some ⟨call.hash, response, c⟩, none⟩
  | _, _ => none

def World.update (w : World) (c : Nat) (call : Call) (u : Update) : World where
  calls := w.calls.set c { call with pc := u.pc }
  memory := match u.memory with
    | none => w.memory
    | some record =>
      Function.update w.memory call.dispatcher
        (Function.update (w.memory call.dispatcher) call.key (some record))
  store := match u.store with
    | none => w.store
    | some record => Function.update w.store call.key (some record)
  completed := w.completed ++ u.completed.toList.map fun response => ⟨c, call.req, response⟩

def step (hash : Option Any → Except String String) (w : World) : Label → Option World
  | .dispatch d req => some { w with calls := w.calls ++ [start hash d req] }
  | .step c event => do
    let call ← w.calls[c]?
    let u ← advance hasStore w c call call.pc event
    return w.update c call u
  | .expire key => some { w with store := Function.update w.store key none }

inductive Advances (w : World) (c : Nat) (call : Call) : CallPC → Event → Update → Prop
  | passedOn (response : CommandResponse) :
      Advances w c call .direct (.complete (.ok response))
        ⟨.returned (.executed response), none, none, some response⟩
  | passedOnFailed (err : String) :
      Advances w c call .direct (.complete (.error err)) (.goto (.returned (.failed err)))
  | conflict (record : Record) (hfound : w.memory call.dispatcher call.key = some record)
      (hhash : record.hash ≠ call.hash) : Advances w c call .lookup .lookup (.goto (.returned .conflict))
  | replayed (record : Record) (hfound : w.memory call.dispatcher call.key = some record)
      (hhash : record.hash = call.hash) : Advances w c call .lookup .lookup (.goto (.returned (.replayed record)))
  | missed (hmiss : w.memory call.dispatcher call.key = none) :
      Advances w c call .lookup .lookup (.goto (if hasStore call.dispatcher then .readStore else .executing))
  | storeConflict (record : Record) (hfound : w.store call.key = some record) (hhash : record.hash ≠ call.hash) :
      Advances w c call .readStore (.readStore .ok) (.goto (.returned .conflict))
  | stored (record : Record) (hfound : w.store call.key = some record) (hhash : record.hash = call.hash) :
      Advances w c call .readStore (.readStore .ok) (.goto (.rememberStored record))
  | storeMissed (hmiss : w.store call.key = none) :
      Advances w c call .readStore (.readStore .ok) (.goto .executing)
  | readFailed (outcome : Outcome) (err : String) (hfailed : outcome = .failed err ∨ outcome = .lost err) :
      Advances w c call .readStore (.readStore outcome) (.goto (.returned (.failed err)))
  | rememberedStored (record : Record) :
      Advances w c call (.rememberStored record) .rememberStored
        ⟨.returned (.replayed record), some record, none, none⟩
  | executed (response : CommandResponse) :
      Advances w c call .executing (.complete (.ok response)) ⟨.remember response, none, none, some response⟩
  | executionFailed (err : String) :
      Advances w c call .executing (.complete (.error err)) (.goto (.returned (.failed err)))
  | remembered (response : CommandResponse) :
      Advances w c call (.remember response) .remember
        ⟨if hasStore call.dispatcher then .save response else .returned (.executed response),
          some ⟨call.hash, response, c⟩, none, none⟩
  | saved (response : CommandResponse) :
      Advances w c call (.save response) (.save .ok)
        ⟨.returned (.executed response), none, some ⟨call.hash, response, c⟩, none⟩
  | saveFailed (response : CommandResponse) (err : String) :
      Advances w c call (.save response) (.save (.failed err)) (.goto (.returned (.failed err)))
  | saveLost (response : CommandResponse) (err : String) :
      Advances w c call (.save response) (.save (.lost err))
        ⟨.returned (.failed err), none, some ⟨call.hash, response, c⟩, none⟩

variable {hasStore} {w : World} {c : Nat} {call : Call} {u : Update}

theorem lookup_inv {event : Event} (h : advance hasStore w c call .lookup event = some u) :
    Advances hasStore w c call .lookup event u := by
  cases event with
  | lookup =>
    simp only [advance] at h
    split at h
    · rename_i record hfound
      split_ifs at h with hhash
      · cases h; exact .conflict record hfound hhash
      · cases h; exact .replayed record hfound (not_not.mp hhash)
    · rename_i hmiss
      cases h
      exact .missed hmiss
  | complete | readStore | rememberStored | remember | save => cases h

theorem readStore_inv {event : Event} (h : advance hasStore w c call .readStore event = some u) :
    Advances hasStore w c call .readStore event u := by
  cases event with
  | readStore outcome =>
    cases outcome with
    | ok =>
      simp only [advance] at h
      split at h
      · rename_i record hfound
        split_ifs at h with hhash
        · cases h; exact .storeConflict record hfound hhash
        · cases h; exact .stored record hfound (not_not.mp hhash)
      · rename_i hmiss
        cases h
        exact .storeMissed hmiss
    | failed err => cases h; exact .readFailed _ err (.inl rfl)
    | lost err => cases h; exact .readFailed _ err (.inr rfl)
  | complete | lookup | rememberStored | remember | save => cases h

theorem advance_inv {pc : CallPC} {event : Event} (h : advance hasStore w c call pc event = some u) :
    Advances hasStore w c call pc event u := by
  cases pc with
  | lookup => exact lookup_inv h
  | readStore => exact readStore_inv h
  | direct =>
    cases event with
    | complete result =>
      cases result with
      | ok response => cases h; exact .passedOn response
      | error err => cases h; exact .passedOnFailed err
    | lookup | readStore | rememberStored | remember | save => cases h
  | executing =>
    cases event with
    | complete result =>
      cases result with
      | ok response => cases h; exact .executed response
      | error err => cases h; exact .executionFailed err
    | lookup | readStore | rememberStored | remember | save => cases h
  | rememberStored record =>
    cases event with
    | rememberStored => cases h; exact .rememberedStored record
    | complete | lookup | readStore | remember | save => cases h
  | remember response =>
    cases event with
    | remember => cases h; exact .remembered response
    | complete | lookup | readStore | rememberStored | save => cases h
  | save response =>
    cases event with
    | save outcome =>
      cases outcome with
      | ok => cases h; exact .saved response
      | failed err => cases h; exact .saveFailed response err
      | lost err => cases h; exact .saveLost response err
    | complete | lookup | readStore | rememberStored | remember => cases h
  | returned answer => cases event <;> cases h

end Step

section Updates

variable {w : World} {c : Nat} {call : Call} {u : Update}

theorem update_call_same (h : w.calls[c]? = some call) :
    (w.update c call u).calls[c]? = some { call with pc := u.pc } := by
  have hlt : c < w.calls.length := (List.getElem?_eq_some_iff.mp h).1
  simp [World.update, List.getElem?_set_self hlt]

theorem update_call_other {j : Nat} (hj : j ≠ c) : (w.update c call u).calls[j]? = w.calls[j]? := by
  simp only [World.update]
  exact List.getElem?_set_ne (Ne.symm hj)

theorem update_call {j : Nat} {call' : Call} (h : w.calls[c]? = some call)
    (hj : (w.update c call u).calls[j]? = some call') :
    (j = c ∧ call' = { call with pc := u.pc }) ∨ (j ≠ c ∧ w.calls[j]? = some call') := by
  by_cases he : j = c
  · subst he
    rw [update_call_same h] at hj
    exact Or.inl ⟨rfl, (Option.some.inj hj).symm⟩
  · rw [update_call_other he] at hj
    exact Or.inr ⟨he, hj⟩

theorem update_memory (d : Nat) (key : String) :
    (w.update c call u).memory d key =
      if d = call.dispatcher ∧ key = call.key then u.memory.or (w.memory d key)
      else w.memory d key := by
  simp only [World.update]
  cases u.memory with
  | none => simp
  | some record =>
    by_cases hd : d = call.dispatcher
    · subst hd
      by_cases hk : key = call.key <;> simp [Function.update, hk]
    · simp [Function.update, hd]

theorem update_store (key : String) :
    (w.update c call u).store key = if key = call.key then u.store.or (w.store key) else w.store key := by
  simp only [World.update]
  cases u.store with
  | none => simp
  | some record => by_cases hk : key = call.key <;> simp [Function.update, hk]

theorem step_update {hasStore : Nat → Bool} {hash : Option Any → Except String String} {w' : World}
    {event : Event} (h : step hasStore hash w (.step c event) = some w') :
    ∃ call u, w.calls[c]? = some call ∧ advance hasStore w c call call.pc event = some u ∧
      w' = w.update c call u := by
  simp only [step, Option.bind_eq_bind, Option.bind_eq_some_iff] at h
  obtain ⟨call, hcall, u, hu, he⟩ := h
  exact ⟨call, u, hcall, hu, (Option.some.inj he).symm⟩

theorem dispatch_call {call' : Call} {j : Nat}
    (h : (w.calls ++ [call])[j]? = some call') :
    w.calls[j]? = some call' ∨ (j = w.calls.length ∧ call' = call) := by
  rcases lt_trichotomy j w.calls.length with hlt | heq | hgt
  · rw [List.getElem?_append_left hlt] at h
    exact Or.inl h
  · subst heq
    rw [List.getElem?_concat_length] at h
    exact Or.inr ⟨rfl, (Option.some.inj h).symm⟩
  · rw [List.getElem?_eq_none (by simpa using hgt)] at h
    cases h

end Updates

end GlobalMailSystem.IdempotentDispatch
