import GlobalMailSystem.ReplayIdentity

namespace GlobalMailSystem.IdempotentDispatch

open Rpc.Wire Transition

def CallPC.inFlight : CallPC → Bool
  | .executing | .remember _ | .save _ => true
  | _ => false

def CallPC.usesStore : CallPC → Bool
  | .readStore | .save _ => true
  | _ => false

def World.busy (w : World) (key : String) : Bool :=
  w.calls.any fun call => call.key = key && call.pc.inFlight

def Answer.success : Answer → Option CommandResponse
  | .executed response => some response
  | .replayed record => some record.response
  | .conflict | .failed _ => none

def Label.reliable : Label → Bool
  | .step _ (.readStore outcome) | .step _ (.save outcome) => match outcome with
    | .ok => true
    | _ => false
  | .expire _ => false
  | _ => true

section Guards

variable (hasStore : Nat → Bool)

def sharesStore (w : World) : Label → Bool
  | .dispatch d _ => w.calls.all fun call =>
    call.dispatcher = d || (hasStore call.dispatcher && hasStore d)
  | _ => true

/-- A call misses its last lookup while another call with the same key is in flight. -/
def overlaps (w : World) : Label → Bool
  | .step c event =>
    (w.calls[c]?).any fun call => (advance hasStore w c call call.pc event).any fun u =>
      !call.pc.inFlight && u.pc.inFlight && w.busy call.key
  | _ => false

def StageAgrees (done : Option Record) (c : Nat) : CallPC → Prop
  | .direct => False
  | .lookup | .readStore | .returned .conflict | .returned (.failed _) => True
  | .executing => done = none
  | .remember response | .save response | .returned (.executed response) =>
    ∃ h, done = some ⟨h, response, c⟩
  | .rememberStored record | .returned (.replayed record) => done = some record

def Settled (w : World) (d : Nat) (key : String) (record : Record) : Prop :=
  if hasStore d then w.store key = some record else w.memory d key = some record

structure KeyInv (w : World) (key : String) (done : Option Record) : Prop where
  stages : ∀ (c : Nat) (call : Call), w.calls[c]? = some call → call.key = key →
    StageAgrees done c call.pc
  memory : ∀ d record, w.memory d key = some record → done = some record
  store : ∀ record, w.store key = some record → done = some record
  completed : w.completed.countP (fun e => commandIdempotencyKey e.req = key) = done.toList.length
  alone : ∀ (c c' : Nat) (call call' : Call), w.calls[c]? = some call → w.calls[c']? = some call' →
    call.key = key → call'.key = key → call.pc.inFlight = true → call'.pc.inFlight = true → c = c'
  findable : ∀ record, done = some record → ∃ call : Call, w.calls[record.producer]? = some call ∧
    call.key = key ∧ call.hash = record.hash ∧
      (call.pc.inFlight = true ∨ Settled hasStore w call.dispatcher key record)

structure Shared (w : World) : Prop where
  dispatchers : ∀ a ∈ w.calls, ∀ b ∈ w.calls,
    a.dispatcher = b.dispatcher ∨ hasStore a.dispatcher = true ∧ hasStore b.dispatcher = true
  users : ∀ a ∈ w.calls, a.pc.usesStore = true → hasStore a.dispatcher = true

end Guards

section Steps

variable {hasStore : Nat → Bool} {hash : Option Any → Except String String}

theorem busy_of_call {w : World} {c : Nat} {call : Call} (hc : w.calls[c]? = some call)
    (h : call.pc.inFlight = true) : w.busy call.key = true := by
  apply List.any_eq_true.mpr
  exact ⟨call, List.mem_of_getElem? hc, by simp [h]⟩

theorem settled_update {w : World} {c : Nat} {call : Call} {u : Update} {d : Nat} {key : String}
    {done : Option Record} {record : Record} (hdone : done = some record)
    (hmemory : ∀ r, u.memory = some r → done = some r)
    (hstore : ∀ r, u.store = some r → done = some r) (h : Settled hasStore w d key record) :
    Settled hasStore (w.update c call u) d key record := by
  -- the step writes nothing for the key but the record itself
  have kept {old new : Option Record} (hnew : ∀ r, new = some r → done = some r)
      (hold : old = some record) : new.or old = some record := by
    cases new with
    | none => exact hold
    | some r => exact (hnew r rfl).symm.trans hdone
  unfold Settled at h ⊢
  split_ifs at h ⊢
  · rw [update_store]
    split_ifs
    · exact kept hstore h
    · exact h
  · rw [update_memory]
    split_ifs
    · exact kept hmemory h
    · exact h

theorem KeyInv.alone_update {w : World} {key : String} {done : Option Record} (hw : KeyInv hasStore w key done)
    {c : Nat} {call : Call} (hc : w.calls[c]? = some call) (hkey : call.key = key) {u : Update}
    (henter : u.pc.inFlight = true → call.pc.inFlight = true ∨ w.busy key = false)
    {j j' : Nat} {a b : Call} (hj : (w.update c call u).calls[j]? = some a)
    (hj' : (w.update c call u).calls[j']? = some b) (ha : a.key = key) (hb : b.key = key)
    (hfa : a.pc.inFlight = true) (hfb : b.pc.inFlight = true) : j = j' := by
  -- a call enters flight only when no other call of the key is in flight
  have others {i : Nat} {other : Call} (hi : w.calls[i]? = some other) (hk : other.key = key)
      (hf : other.pc.inFlight = true) (hu : u.pc.inFlight = true) : i = c := by
    rcases henter hu with hin | hidle
    · exact hw.alone i c other call hi hc hk hkey hf hin
    · rw [← hk, busy_of_call hi hf] at hidle
      cases hidle
  rcases update_call hc hj with ⟨rfl, rfl⟩ | ⟨_, hold⟩
  · rcases update_call hc hj' with ⟨rfl, _⟩ | ⟨_, hold'⟩
    · rfl
    · exact (others hold' hb hfb hfa).symm
  · rcases update_call hc hj' with ⟨rfl, rfl⟩ | ⟨_, hold'⟩
    · exact others hold ha hfa hfb
    · exact hw.alone j j' a b hold hold' ha hb hfa hfb

theorem keyInv_update {w : World} {key : String} {done : Option Record} (hw : KeyInv hasStore w key done)
    {c : Nat} {call : Call} (hc : w.calls[c]? = some call) (hkey : call.key = key) {u : Update}
    (hstage : StageAgrees done c u.pc) (hmemory : ∀ r, u.memory = some r → done = some r)
    (hstore : ∀ r, u.store = some r → done = some r) (hcompleted : u.completed = none)
    (henter : u.pc.inFlight = true → call.pc.inFlight = true ∨ w.busy key = false)
    (hleave : call.pc.inFlight = true → u.pc.inFlight = false → ∀ record, done = some record →
      Settled hasStore (w.update c call u) call.dispatcher key record) :
    KeyInv hasStore (w.update c call u) key done where
  stages j call' hj hk := by
    rcases update_call hc hj with ⟨rfl, rfl⟩ | ⟨_, hj⟩
    · exact hstage
    · exact hw.stages j call' hj hk
  memory d record h := by
    rw [update_memory] at h
    split_ifs at h
    · rcases Option.or_eq_some_iff.mp h with h | ⟨_, h⟩
      · exact hmemory record h
      · exact hw.memory d record h
    · exact hw.memory d record h
  store record h := by
    rw [update_store] at h
    split_ifs at h
    · rcases Option.or_eq_some_iff.mp h with h | ⟨_, h⟩
      · exact hstore record h
      · exact hw.store record h
    · exact hw.store record h
  completed := by simpa [World.update, hcompleted] using hw.completed
  alone j j' a b hj hj' ha hb hfa hfb := hw.alone_update hc hkey henter hj hj' ha hb hfa hfb
  findable record hdone := by
    obtain ⟨p, hp, hpkey, hphash, hpflight⟩ := hw.findable record hdone
    by_cases he : record.producer = c
    · rw [he] at hp ⊢
      rw [hc] at hp
      cases hp
      refine ⟨_, update_call_same hc, hpkey, hphash, ?_⟩
      by_cases hin : u.pc.inFlight = true
      · exact Or.inl hin
      · rcases hpflight with hflight | hsettled
        · exact Or.inr (hleave hflight (Bool.not_eq_true _ ▸ hin) record hdone)
        · exact Or.inr (settled_update hdone hmemory hstore hsettled)
    · refine ⟨p, (update_call_other he).trans hp, hpkey, hphash, ?_⟩
      exact hpflight.imp_right (settled_update hdone hmemory hstore)

theorem keyInv_other {w : World} {key : String} {done : Option Record} (hw : KeyInv hasStore w key done)
    {c : Nat} {call : Call} (hc : w.calls[c]? = some call) (hkey : call.key ≠ key) (u : Update) :
    KeyInv hasStore (w.update c call u) key done := by
  have hmemory (d : Nat) : (w.update c call u).memory d key = w.memory d key := by
    rw [update_memory, if_neg fun h => hkey h.2.symm]
  have hstore : (w.update c call u).store key = w.store key := by
    rw [update_store, if_neg (Ne.symm hkey)]
  have old {j : Nat} {call' : Call} (hj : (w.update c call u).calls[j]? = some call')
      (hk : call'.key = key) : w.calls[j]? = some call' := by
    rcases update_call hc hj with ⟨rfl, rfl⟩ | ⟨_, hold⟩
    · exact absurd hk hkey
    · exact hold
  refine ⟨fun j call' hj hk => hw.stages j call' (old hj hk) hk,
    fun d record h => hw.memory d record (hmemory d ▸ h),
    fun record h => hw.store record (hstore ▸ h), ?_,
    fun j j' a b hj hj' ha hb => hw.alone j j' a b (old hj ha) (old hj' hb) ha hb,
    fun record hdone => ?_⟩
  · rw [← hw.completed, World.update, List.countP_append, Nat.add_eq_left]
    apply List.countP_eq_zero.mpr
    intro e he
    obtain ⟨response, _, rfl⟩ := List.mem_map.mp he
    simpa [Call.key] using hkey
  · obtain ⟨p, hp, hpkey, hphash, hflight⟩ := hw.findable record hdone
    have hne : record.producer ≠ c := by
      rintro rfl
      rw [hc] at hp
      cases hp
      exact hkey hpkey
    refine ⟨p, (update_call_other hne).trans hp, hpkey, hphash, hflight.imp_right fun h => ?_⟩
    unfold Settled at h ⊢
    rwa [hstore, hmemory]

theorem keyInv_complete {w : World} {key : String} (hw : KeyInv hasStore w key none) {c : Nat}
    {call : Call} (hc : w.calls[c]? = some call) (hkey : call.key = key)
    (hflight : call.pc.inFlight = true) (response : CommandResponse) :
    KeyInv hasStore (w.update c call ⟨.remember response, none, none, some response⟩) key
      (some ⟨call.hash, response, c⟩) where
  stages j call' hj hk := by
    rcases update_call hc hj with ⟨rfl, rfl⟩ | ⟨hne, hold⟩
    · exact ⟨call.hash, rfl⟩
    · have hstage := hw.stages j call' hold hk
      cases hpc : call'.pc with
      | executing =>
        exact absurd (hw.alone j c call' call hold hc hk hkey (by rw [hpc]; rfl) hflight) hne
      | direct => rw [hpc] at hstage; exact hstage.elim
      | lookup | readStore => trivial
      | remember | save =>
        rw [hpc] at hstage
        obtain ⟨_, hdone⟩ := hstage
        cases hdone
      | rememberStored =>
        rw [hpc] at hstage
        cases hstage
      | returned answer =>
        rw [hpc] at hstage
        cases answer with
        | conflict | failed => trivial
        | executed => obtain ⟨_, hdone⟩ := hstage; cases hdone
        | replayed => cases hstage
  memory d record h := by cases hw.memory d record h
  store record h := by cases hw.store record h
  completed := by
    have hnone : w.completed.countP (fun e => commandIdempotencyKey e.req = key) = 0 := hw.completed
    have hself : commandIdempotencyKey call.req = key := hkey
    simp only [World.update, List.countP_append, hnone]
    simp [hself]
  alone j j' a b hj hj' ha hb hfa hfb := by
    have only {i : Nat} {other : Call}
        (hi : (w.update c call ⟨.remember response, none, none, some response⟩).calls[i]? = some other)
        (hk : other.key = key) (hf : other.pc.inFlight = true) : i = c := by
      rcases update_call hc hi with ⟨rfl, _⟩ | ⟨_, hold⟩
      · rfl
      · exact hw.alone i c other call hold hc hk hkey hf hflight
    exact (only hj ha hfa).trans (only hj' hb hfb).symm
  findable record hdone := by
    cases hdone
    exact ⟨_, update_call_same hc, hkey, rfl, Or.inl rfl⟩

theorem done_none_of_miss {w : World} {key : String} {done : Option Record}
    (hw : KeyInv hasStore w key done) (hshared : Shared hasStore w) {c : Nat} {call : Call}
    (hc : w.calls[c]? = some call) (hidle : w.busy key = false)
    (hmiss : if hasStore call.dispatcher then w.store key = none else w.memory call.dispatcher key = none) :
    done = none := by
  -- a call that misses its last lookup while no other is in flight is the first of its key
  by_contra hsome
  obtain ⟨record, hdone⟩ := Option.ne_none_iff_exists'.mp hsome
  obtain ⟨p, hp, rfl, _, hflight | hsettled⟩ := hw.findable record hdone
  · rw [busy_of_call hp hflight] at hidle
    cases hidle
  · have hsame : hasStore p.dispatcher = hasStore call.dispatcher ∧
        (hasStore call.dispatcher = true ∨ p.dispatcher = call.dispatcher) := by
      rcases hshared.dispatchers p (List.mem_of_getElem? hp) call (List.mem_of_getElem? hc) with he | ⟨ha, hb⟩
      · exact ⟨by rw [he], Or.inr he⟩
      · exact ⟨ha.trans hb.symm, Or.inl hb⟩
    unfold Settled at hsettled
    rw [hsame.1] at hsettled
    split_ifs at hsettled hmiss with hstore
    · rw [hmiss] at hsettled
      cases hsettled
    · rw [hsame.2.resolve_left hstore, hmiss] at hsettled
      cases hsettled

theorem keyInv_goto {w : World} {key : String} {done : Option Record} (hw : KeyInv hasStore w key done)
    {c : Nat} {call : Call} (hc : w.calls[c]? = some call) (hkey : call.key = key) {pc : CallPC}
    (hstage : StageAgrees done c pc)
    (henter : pc.inFlight = true → call.pc.inFlight = true ∨ w.busy key = false)
    (hleave : call.pc.inFlight = true → done = none) :
    KeyInv hasStore (w.update c call (.goto pc)) key done := by
  refine keyInv_update hw hc hkey hstage nofun nofun rfl henter ?_
  intro hflight _ record hdone
  rw [hleave hflight] at hdone
  cases hdone

theorem keyInv_lookedUp {w : World} {key : String} {done : Option Record} (hw : KeyInv hasStore w key done)
    {c : Nat} {call : Call} (hc : w.calls[c]? = some call) (hkey : call.key = key)
    (hidle : call.pc.inFlight = false) {pc : CallPC} (hstage : StageAgrees done c pc)
    (henter : pc.inFlight = true → w.busy key = false) :
    ∃ done', KeyInv hasStore (w.update c call (.goto pc)) key done' := by
  refine ⟨done, keyInv_goto hw hc hkey hstage (fun hin => Or.inr (henter hin)) fun hin => ?_⟩
  rw [hidle] at hin
  cases hin

theorem done_eq_own {w : World} {key : String} {done : Option Record} (hw : KeyInv hasStore w key done)
    {c : Nat} {call : Call} (hc : w.calls[c]? = some call) {response : CommandResponse}
    (h : ∃ h, done = some ⟨h, response, c⟩) : done = some ⟨call.hash, response, c⟩ := by
  obtain ⟨hash, hdone⟩ := h
  obtain ⟨p, hp, _, hhash, _⟩ := hw.findable _ hdone
  rw [hc] at hp
  cases hp
  rw [hdone, hhash]

section Advance

variable {w : World} {key : String} {done : Option Record} (hw : KeyInv hasStore w key done)
  {c : Nat} {call : Call} (hc : w.calls[c]? = some call) (hkey : call.key = key)
include hw hc hkey

theorem keyInv_missed (hshared : Shared hasStore w) (hquiet : call.pc.inFlight = false)
    (hidle : w.busy key = false)
    (hmiss : if hasStore call.dispatcher then w.store key = none else w.memory call.dispatcher key = none) :
    ∃ done', KeyInv hasStore (w.update c call (.goto .executing)) key done' :=
  keyInv_lookedUp hw hc hkey hquiet (done_none_of_miss hw hshared hc hidle hmiss) fun _ => hidle

theorem keyInv_remembered {response : CommandResponse} (hpc : call.pc = .remember response) :
    KeyInv hasStore (w.update c call
      ⟨if hasStore call.dispatcher then .save response else .returned (.executed response),
        some ⟨call.hash, response, c⟩, none, none⟩) key done := by
  have hstage := hw.stages c call hc hkey
  rw [hpc] at hstage
  have hown := done_eq_own hw hc hstage
  refine keyInv_update hw hc hkey ?_ (fun r hr => hr ▸ hown) (fun _ hr => by cases hr) rfl
    (fun _ => Or.inl (by rw [hpc]; rfl)) ?_
  · dsimp only
    split_ifs <;> exact hstage
  · intro _ hleft record hdone
    have hstore : hasStore call.dispatcher ≠ true := by
      intro hs
      simp [hs, CallPC.inFlight] at hleft
    rw [Settled, if_neg hstore, update_memory, if_pos ⟨rfl, hkey.symm⟩]
    exact hown.symm.trans hdone

theorem keyInv_saved (hshared : Shared hasStore w) {response : CommandResponse} (hpc : call.pc = .save response) :
    KeyInv hasStore (w.update c call
      ⟨.returned (.executed response), none, some ⟨call.hash, response, c⟩, none⟩) key done := by
  have hstage := hw.stages c call hc hkey
  rw [hpc] at hstage
  have hown := done_eq_own hw hc hstage
  refine keyInv_update hw hc hkey hstage (fun _ hr => by cases hr) (fun r hr => hr ▸ hown)
    rfl (fun hin => by cases hin) ?_
  intro _ _ record hdone
  rw [Settled, if_pos (hshared.users call (List.mem_of_getElem? hc) (by rw [hpc]; rfl)), update_store,
    if_pos hkey.symm]
  exact hown.symm.trans hdone

theorem keyInv_advance (hshared : Shared hasStore w) {event : Event} {u : Update}
    (hreliable : (Label.step c event).reliable = true)
    (hoverlap : call.pc.inFlight = false → u.pc.inFlight = true → w.busy key = false)
    (h : advance hasStore w c call call.pc event = some u) :
    ∃ done', KeyInv hasStore (w.update c call u) key done' := by
  have hstage := hw.stages c call hc hkey
  have hsource := advance_inv h
  generalize hpc : call.pc = pc at hstage hoverlap hsource
  have quiet (hin : pc.inFlight = false) : call.pc.inFlight = false := hpc ▸ hin
  cases hsource with
  | passedOn | passedOnFailed => exact hstage.elim
  | conflict | storeConflict =>
    exact keyInv_lookedUp hw hc hkey (quiet rfl) trivial (fun hin => by cases hin)
  | replayed record hfound =>
    exact keyInv_lookedUp hw hc hkey (quiet rfl) (hw.memory _ record (hkey ▸ hfound)) (fun hin => by cases hin)
  | missed hmiss =>
    split_ifs at hoverlap ⊢ with hstore
    · exact keyInv_lookedUp hw hc hkey (quiet rfl) trivial (fun hin => by cases hin)
    · apply keyInv_missed hw hc hkey hshared (quiet rfl) (hoverlap rfl rfl)
      rw [if_neg hstore]
      exact hkey ▸ hmiss
  | stored record hfound =>
    exact keyInv_lookedUp hw hc hkey (quiet rfl) (hw.store record (hkey ▸ hfound)) (fun hin => by cases hin)
  | storeMissed hmiss =>
    apply keyInv_missed hw hc hkey hshared (quiet rfl) (hoverlap rfl rfl)
    rw [if_pos (hshared.users call (List.mem_of_getElem? hc) (by rw [hpc]; rfl))]
    exact hkey ▸ hmiss
  | readFailed outcome err hfailed =>
    rcases hfailed with rfl | rfl <;> cases hreliable
  | rememberedStored record =>
    refine ⟨done, keyInv_update hw hc hkey hstage ?_ (fun _ hr => by cases hr) rfl
      (fun hin => by cases hin) (by simp [hpc, CallPC.inFlight])⟩
    intro r hr
    exact Option.some.inj hr ▸ hstage
  | executed response =>
    have hnone : done = none := hstage
    subst hnone
    exact ⟨_, keyInv_complete hw hc hkey (by rw [hpc]; rfl) response⟩
  | executionFailed =>
    exact ⟨done, keyInv_goto hw hc hkey trivial (fun hin => by cases hin) fun _ => hstage⟩
  | remembered response => exact ⟨done, keyInv_remembered hw hc hkey hpc⟩
  | saved response => exact ⟨done, keyInv_saved hw hc hkey hshared hpc⟩
  | saveFailed | saveLost => cases hreliable

end Advance

theorem advance_usesStore {w : World} {c : Nat} {call : Call} {event : Event} {u : Update} {pc : CallPC}
    (h : advance hasStore w c call pc event = some u) (hu : u.pc.usesStore = true) :
    hasStore call.dispatcher = true := by
  by_contra hs
  cases advance_inv h with
  | missed => simp [Update.goto, hs, CallPC.usesStore] at hu
  | remembered response => simp [hs, CallPC.usesStore] at hu
  | _ => cases hu

theorem start_dispatcher (d : Nat) (req : CommandRequest) : (start hash d req).dispatcher = d := by
  unfold start
  split_ifs
  · rfl
  · split <;> rfl

theorem start_quiet (d : Nat) (req : CommandRequest) :
    (start hash d req).pc.usesStore = false ∧ (start hash d req).pc.inFlight = false := by
  unfold start
  split_ifs
  · exact ⟨rfl, rfl⟩
  · split <;> exact ⟨rfl, rfl⟩

theorem shared_step {w w' : World} {l : Label} (hw : Shared hasStore w)
    (hshares : sharesStore hasStore w l = true) (h : step hasStore hash w l = some w') :
    Shared hasStore w' := by
  cases l with
  | dispatch d req =>
    cases h
    have hall : ∀ a ∈ w.calls, a.dispatcher = d ∨ hasStore a.dispatcher = true ∧ hasStore d = true := by
      simpa [sharesStore] using hshares
    constructor
    · intro a ha b hb
      simp only [List.mem_append, List.mem_singleton] at ha hb
      rcases ha with ha | rfl <;> rcases hb with hb | rfl
      · exact hw.dispatchers a ha b hb
      · rw [start_dispatcher]
        exact hall a ha
      · rw [start_dispatcher]
        exact (hall b hb).imp Eq.symm And.symm
      · exact Or.inl rfl
    · intro a ha huses
      simp only [List.mem_append, List.mem_singleton] at ha
      rcases ha with ha | rfl
      · exact hw.users a ha huses
      · rw [(start_quiet d req).1] at huses
        cases huses
  | step c event =>
    obtain ⟨call, u, hc, hu, rfl⟩ := step_update h
    have hcall := List.mem_of_getElem? hc
    have old {a : Call} (ha : a ∈ (w.update c call u).calls) :
        a ∈ w.calls ∨ a = { call with pc := u.pc } := List.mem_or_eq_of_mem_set ha
    constructor
    · intro a ha b hb
      rcases old ha with ha | rfl <;> rcases old hb with hb | rfl
      · exact hw.dispatchers a ha b hb
      · exact hw.dispatchers a ha call hcall
      · exact hw.dispatchers call hcall b hb
      · exact Or.inl rfl
    · intro a ha huses
      rcases old ha with ha | rfl
      · exact hw.users a ha huses
      · exact advance_usesStore hu huses
  | expire key =>
    cases h
    exact ⟨hw.dispatchers, hw.users⟩

theorem keyInv_dispatch {w : World} {done : Option Record} {r : CommandRequest} (huid : r.uid ≠ 0)
    (hseq : r.seq ≠ 0) (hw : KeyInv hasStore w (commandIdempotencyKey r) done) (d : Nat)
    (req : CommandRequest) :
    KeyInv hasStore { w with calls := w.calls ++ [start hash d req] } (commandIdempotencyKey r) done where
  stages j call hj hk := by
    rcases dispatch_call hj with hj | ⟨_, rfl⟩
    · exact hw.stages j call hj hk
    · rw [Call.key, start_req] at hk
      obtain ⟨hu, _, hs⟩ := commandIdempotencyKey_inj hk
      have hkeyed : ¬ (req.uid = 0 ∨ req.seq = 0) := by
        rw [hu, hs]
        exact not_or.mpr ⟨huid, hseq⟩
      rw [start, if_neg hkeyed]
      split <;> trivial
  memory := hw.memory
  store := hw.store
  completed := hw.completed
  alone j j' a b hj hj' ha hb hfa hfb := by
    have old {i : Nat} {other : Call} (hi : (w.calls ++ [start hash d req])[i]? = some other)
        (hf : other.pc.inFlight = true) : w.calls[i]? = some other := by
      rcases dispatch_call hi with hi | ⟨_, rfl⟩
      · exact hi
      · rw [(start_quiet d req).2] at hf
        cases hf
    exact hw.alone j j' a b (old hj hfa) (old hj' hfb) ha hb hfa hfb
  findable record hdone := by
    obtain ⟨p, hp, hrest⟩ := hw.findable record hdone
    refine ⟨p, ?_, hrest⟩
    rw [List.getElem?_append_left (List.getElem?_eq_some_iff.mp hp).1]
    exact hp

theorem keyInv_step {w w' : World} {l : Label} {done : Option Record} {r : CommandRequest}
    (huid : r.uid ≠ 0) (hseq : r.seq ≠ 0) (hw : KeyInv hasStore w (commandIdempotencyKey r) done)
    (hshared : Shared hasStore w) (hreliable : l.reliable = true) (hoverlap : overlaps hasStore w l = false)
    (h : step hasStore hash w l = some w') :
    ∃ done', KeyInv hasStore w' (commandIdempotencyKey r) done' := by
  cases l with
  | dispatch d req =>
    cases h
    exact ⟨done, keyInv_dispatch huid hseq hw d req⟩
  | step c event =>
    obtain ⟨call, u, hc, hu, rfl⟩ := step_update h
    by_cases hkey : call.key = commandIdempotencyKey r
    · apply keyInv_advance hw hc hkey hshared hreliable ?_ hu
      intro hbefore hafter
      rw [← hkey]
      simpa [overlaps, hc, hu, hbefore, hafter] using hoverlap
    · exact ⟨done, keyInv_other hw hc hkey u⟩
  | expire key => cases hreliable

theorem shared_init : Shared hasStore init where
  dispatchers a ha := by cases ha
  users a ha := by cases ha

theorem keyInv_init (key : String) : KeyInv hasStore init key none where
  stages c call h := by simp [init] at h
  memory d record h := by cases h
  store record h := by cases h
  completed := rfl
  alone c c' call call' h := by simp [init] at h
  findable record h := by cases h

theorem keyInv_success {w : World} {key : String} {done : Option Record}
    (hw : KeyInv hasStore w key done) {c : Nat} {call : Call} (hc : w.calls[c]? = some call)
    (hkey : call.key = key) {answer : Answer} (hpc : call.pc = .returned answer)
    {response : CommandResponse} (h : answer.success = some response) :
    ∃ record, done = some record ∧ record.response = response := by
  have hstage := hw.stages c call hc hkey
  rw [hpc] at hstage
  cases answer with
  | executed response' =>
    obtain ⟨hash, hdone⟩ := hstage
    exact ⟨_, hdone, Option.some.inj h⟩
  | replayed record => exact ⟨record, hstage, Option.some.inj h⟩
  | conflict | failed => cases h

end Steps

theorem executed_once (hash : Option Any → Except String String) (hasStore : Nat → Bool)
    (ls : List Label) (w : World)
    (hpremise : Guarded (step hasStore hash)
      (fun w l => sharesStore hasStore w l = true ∧ l.reliable = true) init ls)
    (hguard : Guarded (step hasStore hash) (fun w l => overlaps hasStore w l = false) init ls)
    (h : run (step hasStore hash) init ls = some w) (r : CommandRequest) (huid : r.uid ≠ 0)
    (hseq : r.seq ≠ 0) :
    (w.completed.countP fun e => sameRequest e.req r) ≤ 1 ∧
      ∀ (c c' : Nat) (call call' : Call) (answer answer' : Answer) (response response' : CommandResponse),
        w.calls[c]? = some call → w.calls[c']? = some call' →
        sameRequest call.req r = true → sameRequest call'.req r = true →
        call.pc = .returned answer → call'.pc = .returned answer' →
        answer.success = some response → answer'.success = some response' → response = response' := by
  have hsame {a : CommandRequest} (ha : sameRequest a r = true) :
      commandIdempotencyKey a = commandIdempotencyKey r := by
    obtain ⟨hu, hcommand, hs, _⟩ := sameRequest_iff.mp ha
    rw [commandIdempotencyKey, commandIdempotencyKey, hu, hcommand, hs]
  have hall : Shared hasStore w ∧ ∃ done, KeyInv hasStore w (commandIdempotencyKey r) done := by
    apply guarded_invariant
      (I := fun w => Shared hasStore w ∧ ∃ done, KeyInv hasStore w (commandIdempotencyKey r) done) ?_ ?_
      (guarded_and hpremise hguard) h
    · rintro s l t ⟨hshared, done, hinv⟩ ⟨⟨hshares, hreliable⟩, hoverlap⟩ hl
      exact ⟨shared_step hshared hshares hl, keyInv_step huid hseq hinv hshared hreliable hoverlap hl⟩
    · exact ⟨shared_init, none, keyInv_init _⟩
  obtain ⟨_, done, hinv⟩ := hall
  constructor
  · calc (w.completed.countP fun e => sameRequest e.req r)
        ≤ w.completed.countP fun e => decide (commandIdempotencyKey e.req = commandIdempotencyKey r) :=
          List.countP_mono_left fun e _ he => decide_eq_true (hsame he)
      _ = done.toList.length := hinv.completed
      _ ≤ 1 := by cases done <;> simp
  · intro c c' call call' answer answer' response response' hc hc' hr hr' hpc hpc' hok hok'
    obtain ⟨record, hdone, rfl⟩ := keyInv_success hinv hc (hsame hr) hpc hok
    obtain ⟨record', hdone', rfl⟩ := keyInv_success hinv hc' (hsame hr') hpc' hok'
    rw [Option.some.inj (hdone.symm.trans hdone')]

section Retry

def lateRetry : List Label :=
  [.dispatch 0 (claimFor 1), .step 0 .lookup, .step 0 (.readStore .ok),
    .step 0 (.complete (.ok claimed)), .step 0 .remember, .step 0 (.save .ok),
    .dispatch 1 (claimFor 1), .step 1 .lookup, .step 1 (.readStore .ok), .step 1 .rememberStored]

def earlyRetry : List Label :=
  [.dispatch 0 (claimFor 1), .step 0 .lookup, .step 0 (.readStore .ok),
    .dispatch 0 (claimFor 1), .step 1 .lookup, .step 1 (.readStore .ok),
    .step 0 (.complete (.ok claimed)), .step 1 (.complete (.ok claimed))]

def afterLateRetry : World :=
  (run (step (fun _ => true) payloadType) init lateRetry).get (by rfl)

def afterEarlyRetry : World :=
  (run (step (fun _ => true) payloadType) init earlyRetry).get (by rfl)

theorem lateRetry_once :
    run (step (fun _ => true) payloadType) init lateRetry = some afterLateRetry ∧
      (afterLateRetry.completed.countP fun e => sameRequest e.req (claimFor 1)) ≤ 1 := by
  have hrun : run (step (fun _ => true) payloadType) init lateRetry = some afterLateRetry :=
    (Option.some_get _).symm
  exact ⟨hrun, (executed_once payloadType (fun _ => true) lateRetry _ (by decide) (by decide) hrun
    (claimFor 1) (by decide) (by decide)).1⟩

theorem earlyRetry_twice :
    run (step (fun _ => true) payloadType) init earlyRetry = some afterEarlyRetry ∧
      Guarded (step (fun _ => true) payloadType)
        (fun w l => sharesStore (fun _ => true) w l = true ∧ l.reliable = true) init earlyRetry ∧
      ¬ (afterEarlyRetry.completed.countP fun e => sameRequest e.req (claimFor 1)) ≤ 1 :=
  ⟨(Option.some_get _).symm, by decide, by decide⟩

end Retry

end GlobalMailSystem.IdempotentDispatch
