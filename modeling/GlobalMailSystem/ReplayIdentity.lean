import GlobalMailSystem.IdempotentDispatch

namespace GlobalMailSystem.IdempotentDispatch

open Rpc.Wire Transition

def sameRequest (a b : CommandRequest) : Bool :=
  a.uid = b.uid && a.commandID = b.commandID && a.seq = b.seq && a.payload = b.payload

/-- A call repeats uid, command, seq and payload of an earlier one for another role or server. -/
def reusesIdentity (w : World) : Label → Bool
  | .dispatch _ req =>
    req.uid ≠ 0 && req.seq ≠ 0 && w.calls.any fun call =>
      sameRequest call.req req && !(call.req.roleID = req.roleID && call.req.serverID = req.serverID)
  | _ => false

section Produced

variable (hash : Option Any → Except String String)

def CollisionFree (w : World) : Prop :=
  ∀ a ∈ w.calls, ∀ b ∈ w.calls, ∀ h, hash a.req.payload = .ok h → hash b.req.payload = .ok h →
    a.req.payload = b.req.payload

structure Keyed (req : CommandRequest) (h : String) : Prop where
  uid : req.uid ≠ 0
  seq : req.seq ≠ 0
  hashed : hash req.payload = .ok h

def Produced (w : World) (key : String) (record : Record) : Prop :=
  ∃ p, w.calls[record.producer]? = some p ∧ p.key = key ∧ hash p.req.payload = .ok record.hash ∧
    ⟨record.producer, p.req, record.response⟩ ∈ w.completed

def StageOk (w : World) (c : Nat) (req : CommandRequest) (h : String) : CallPC → Prop
  | .lookup | .readStore | .executing => Keyed hash req h
  | .remember response | .save response => Keyed hash req h ∧ ⟨c, req, response⟩ ∈ w.completed
  | .rememberStored record | .returned (.replayed record) =>
    Keyed hash req h ∧ record.hash = h ∧ Produced hash w (commandIdempotencyKey req) record
  | .direct | .returned (.executed _) | .returned .conflict | .returned (.failed _) => True

structure RecordsTraced (w : World) : Prop where
  memory : ∀ d key record, w.memory d key = some record → Produced hash w key record
  store : ∀ key record, w.store key = some record → Produced hash w key record
  calls : ∀ c call, w.calls[c]? = some call → StageOk hash w c call.req call.hash call.pc

variable {hash} {hasStore : Nat → Bool}

structure Extends (w w' : World) : Prop where
  calls : ∀ (c : Nat) (call : Call), w.calls[c]? = some call →
    ∃ call' : Call, w'.calls[c]? = some call' ∧ call'.req = call.req
  completed : ∀ e ∈ w.completed, e ∈ w'.completed

theorem Produced.mono {w w' : World} (hx : Extends w w') {key : String} {record : Record}
    (h : Produced hash w key record) : Produced hash w' key record := by
  obtain ⟨p, hp, rfl, hhash, hdone⟩ := h
  obtain ⟨p', hp', hreq⟩ := hx.calls _ p hp
  refine ⟨p', hp', ?_, ?_, ?_⟩
  · rw [Call.key, Call.key, hreq]
  · rw [hreq]
    exact hhash
  · rw [hreq]
    exact hx.completed _ hdone

theorem StageOk.mono {w w' : World} (hx : Extends w w') {c : Nat} {req : CommandRequest} {h : String}
    {pc : CallPC} (hstage : StageOk hash w c req h pc) : StageOk hash w' c req h pc := by
  cases pc with
  | direct | lookup | readStore | executing => exact hstage
  | rememberStored record => exact ⟨hstage.1, hstage.2.1, hstage.2.2.mono hx⟩
  | remember response | save response => exact ⟨hstage.1, hx.completed _ hstage.2⟩
  | returned answer =>
    cases answer with
    | replayed record => exact ⟨hstage.1, hstage.2.1, hstage.2.2.mono hx⟩
    | executed | conflict | failed => trivial

theorem extends_update {w : World} {c : Nat} {call : Call} (h : w.calls[c]? = some call) (u : Update) :
    Extends w (w.update c call u) where
  calls j call' hj := by
    by_cases he : j = c
    · subst he
      rw [h] at hj
      cases hj
      exact ⟨_, update_call_same h, rfl⟩
    · exact ⟨call', (update_call_other he).trans hj, rfl⟩
  completed e he := List.mem_append_left _ he

theorem extends_dispatch (w : World) (call : Call) : Extends w { w with calls := w.calls ++ [call] } where
  calls c call' hc := by
    refine ⟨call', ?_, rfl⟩
    rw [List.getElem?_append_left (List.getElem?_eq_some_iff.mp hc).1]
    exact hc
  completed _ he := he

structure UpdateOk (hash : Option Any → Except String String) (w : World) (c : Nat) (call : Call)
    (u : Update) : Prop where
  stage : StageOk hash (w.update c call u) c call.req call.hash u.pc
  memory : ∀ record, u.memory = some record → Produced hash (w.update c call u) call.key record
  store : ∀ record, u.store = some record → Produced hash (w.update c call u) call.key record

theorem updateOk_goto {w : World} {c : Nat} {call : Call} (hc : w.calls[c]? = some call) {pc : CallPC}
    (h : StageOk hash w c call.req call.hash pc) : UpdateOk hash w c call (.goto pc) :=
  ⟨h.mono (extends_update hc _), nofun, nofun⟩

theorem produced_update {w : World} {c : Nat} {call : Call} (hc : w.calls[c]? = some call)
    (hkeyed : Keyed hash call.req call.hash) {response : CommandResponse}
    (hdone : ⟨c, call.req, response⟩ ∈ w.completed) (u : Update) :
    Produced hash (w.update c call u) call.key ⟨call.hash, response, c⟩ :=
  ⟨_, update_call_same hc, rfl, hkeyed.hashed, List.mem_append_left _ hdone⟩

theorem advance_ok {w : World} (hw : RecordsTraced hash w) {c : Nat} {call : Call}
    (hc : w.calls[c]? = some call) {event : Event} {u : Update}
    (h : advance hasStore w c call call.pc event = some u) : UpdateOk hash w c call u := by
  have hstage := hw.calls c call hc
  generalize call.pc = pc at h hstage
  cases advance_inv h with
  | passedOn response => exact ⟨trivial, nofun, nofun⟩
  | passedOnFailed | conflict | storeConflict | readFailed | executionFailed | saveFailed =>
    exact updateOk_goto hc trivial
  | replayed record hfound hhash => exact updateOk_goto hc ⟨hstage, hhash, hw.memory _ _ _ hfound⟩
  | missed =>
    apply updateOk_goto hc
    split_ifs <;> exact hstage
  | stored record hfound hhash => exact updateOk_goto hc ⟨hstage, hhash, hw.store _ _ hfound⟩
  | storeMissed => exact updateOk_goto hc hstage
  | rememberedStored record =>
    obtain ⟨hkeyed, hhash, hproduced⟩ := hstage
    have hlater := hproduced.mono (extends_update hc ⟨.returned (.replayed record), some record, none, none⟩)
    exact ⟨⟨hkeyed, hhash, hlater⟩, fun _ he => Option.some.inj he ▸ hlater, nofun⟩
  | executed response =>
    refine ⟨⟨hstage, ?_⟩, nofun, nofun⟩
    exact List.mem_append_right _ (List.mem_singleton.mpr rfl)
  | remembered response =>
    obtain ⟨hkeyed, hdone⟩ := hstage
    refine ⟨?_, fun _ he => Option.some.inj he ▸ produced_update hc hkeyed hdone _, nofun⟩
    dsimp only
    split_ifs
    · exact ⟨hkeyed, List.mem_append_left _ hdone⟩
    · trivial
  | saved | saveLost =>
    obtain ⟨hkeyed, hdone⟩ := hstage
    exact ⟨trivial, nofun, fun _ he => Option.some.inj he ▸ produced_update hc hkeyed hdone _⟩

theorem recordsTraced_update {w : World} (hw : RecordsTraced hash w) {c : Nat} {call : Call}
    (hc : w.calls[c]? = some call) {u : Update} (hu : UpdateOk hash w c call u) :
    RecordsTraced hash (w.update c call u) where
  memory d key record h := by
    rw [update_memory] at h
    split_ifs at h with he
    · obtain ⟨_, rfl⟩ := he
      rcases Option.or_eq_some_iff.mp h with h | ⟨_, h⟩
      · exact hu.memory record h
      · exact (hw.memory _ _ _ h).mono (extends_update hc u)
    · exact (hw.memory _ _ _ h).mono (extends_update hc u)
  store key record h := by
    rw [update_store] at h
    split_ifs at h with he
    · subst he
      rcases Option.or_eq_some_iff.mp h with h | ⟨_, h⟩
      · exact hu.store record h
      · exact (hw.store _ _ h).mono (extends_update hc u)
    · exact (hw.store _ _ h).mono (extends_update hc u)
  calls j call' h := by
    rcases update_call hc h with ⟨rfl, rfl⟩ | ⟨_, hj⟩
    · exact hu.stage
    · exact (hw.calls j call' hj).mono (extends_update hc u)

theorem start_ok (w : World) (c d : Nat) (req : CommandRequest) :
    StageOk hash w c (start hash d req).req (start hash d req).hash (start hash d req).pc := by
  unfold start
  split_ifs with hzero
  · trivial
  · rw [not_or] at hzero
    split
    · trivial
    · rename_i h hhash
      exact ⟨hzero.1, hzero.2, hhash⟩

theorem recordsTraced_step {w w' : World} {l : Label} (hw : RecordsTraced hash w)
    (h : step hasStore hash w l = some w') : RecordsTraced hash w' := by
  cases l with
  | dispatch d req =>
    cases h
    have hx := extends_dispatch w (start hash d req)
    refine ⟨fun d key record hr => (hw.memory d key record hr).mono hx,
      fun key record hr => (hw.store key record hr).mono hx, fun j call hj => ?_⟩
    rcases dispatch_call hj with hj | ⟨_, rfl⟩
    · exact (hw.calls j call hj).mono hx
    · exact start_ok _ _ _ _
  | step c event =>
    obtain ⟨call, u, hc, hu, rfl⟩ := step_update h
    exact recordsTraced_update hw hc (advance_ok hw hc hu)
  | expire key =>
    cases h
    have hx : Extends w { w with store := Function.update w.store key none } :=
      ⟨fun c call hc => ⟨call, hc, rfl⟩, fun _ he => he⟩
    refine ⟨fun d key' record hr => (hw.memory d key' record hr).mono hx, fun key' record hr => ?_,
      fun j call hj => (hw.calls j call hj).mono hx⟩
    by_cases hk : key' = key
    · subst hk
      simp at hr
    · have hold : w.store key' = some record := by simpa [Function.update, hk] using hr
      exact (hw.store key' record hold).mono hx

end Produced

section Identity

variable {hash : Option Any → Except String String} {hasStore : Nat → Bool}

def OneIdentity (w : World) : Prop :=
  ∀ a ∈ w.calls, ∀ b ∈ w.calls, a.req.uid ≠ 0 → a.req.seq ≠ 0 → sameRequest a.req b.req = true →
    a.req.roleID = b.req.roleID ∧ a.req.serverID = b.req.serverID

theorem sameRequest_iff {a b : CommandRequest} : sameRequest a b = true ↔
    a.uid = b.uid ∧ a.commandID = b.commandID ∧ a.seq = b.seq ∧ a.payload = b.payload := by
  simp [sameRequest, and_assoc]

theorem sameRequest_symm {a b : CommandRequest} (h : sameRequest a b = true) : sameRequest b a = true := by
  rw [sameRequest_iff] at h ⊢
  exact ⟨h.1.symm, h.2.1.symm, h.2.2.1.symm, h.2.2.2.symm⟩

theorem start_req (d : Nat) (req : CommandRequest) : (start hash d req).req = req := by
  unfold start
  split_ifs
  · rfl
  · split <;> rfl

theorem oneIdentity_dispatch {w : World} (hw : OneIdentity w) {d : Nat} {req : CommandRequest}
    (hok : reusesIdentity w (.dispatch d req) = false) :
    OneIdentity { w with calls := w.calls ++ [start hash d req] } := by
  have fresh {a : Call} (ha : a ∈ w.calls) (huid : req.uid ≠ 0) (hseq : req.seq ≠ 0)
      (hsame : sameRequest a.req req = true) :
      a.req.roleID = req.roleID ∧ a.req.serverID = req.serverID := by
    simp only [reusesIdentity, ne_eq, huid, hseq, not_false_eq_true, decide_true, Bool.true_and,
      List.any_eq_false] at hok
    simpa [hsame] using hok a ha
  intro a ha b hb huid hseq hsame
  simp only [List.mem_append, List.mem_singleton] at ha hb
  have hids := sameRequest_iff.mp hsame
  rcases ha with ha | rfl
  · rcases hb with hb | rfl
    · exact hw a ha b hb huid hseq hsame
    · rw [start_req] at hsame hids ⊢
      exact fresh ha (hids.1 ▸ huid) (hids.2.2.1 ▸ hseq) hsame
  · rw [start_req] at huid hseq hsame ⊢
    rcases hb with hb | rfl
    · obtain ⟨hrole, hserver⟩ := fresh hb huid hseq (sameRequest_symm hsame)
      exact ⟨hrole.symm, hserver.symm⟩
    · rw [start_req]
      exact ⟨rfl, rfl⟩

theorem mem_update {w : World} {c : Nat} {call call' : Call} {u : Update} (hc : w.calls[c]? = some call)
    (h : call' ∈ (w.update c call u).calls) : ∃ old ∈ w.calls, old.req = call'.req := by
  rcases List.mem_or_eq_of_mem_set h with h | rfl
  · exact ⟨call', h, rfl⟩
  · exact ⟨call, List.mem_of_getElem? hc, rfl⟩

theorem oneIdentity_step {w w' : World} {l : Label} (hw : OneIdentity w)
    (hok : reusesIdentity w l = false) (h : step hasStore hash w l = some w') : OneIdentity w' := by
  cases l with
  | dispatch d req =>
    cases h
    exact oneIdentity_dispatch hw hok
  | step c event =>
    obtain ⟨call, u, hc, _, rfl⟩ := step_update h
    intro a ha b hb huid hseq hsame
    obtain ⟨a', ha', hareq⟩ := mem_update hc ha
    obtain ⟨b', hb', hbreq⟩ := mem_update hc hb
    rw [← hareq] at huid hseq hsame ⊢
    rw [← hbreq] at hsame ⊢
    exact hw a' ha' b' hb' huid hseq hsame
  | expire key =>
    cases h
    exact hw

theorem recordsTraced_init : RecordsTraced hash init where
  memory d key record h := by cases h
  store key record h := by cases h
  calls c call h := by simp [init] at h

end Identity

theorem replayed_same_request (hash : Option Any → Except String String) (hasStore : Nat → Bool)
    (ls : List Label) (w : World)
    (hguard : Guarded (step hasStore hash) (fun w l => reusesIdentity w l = false) init ls)
    (h : run (step hasStore hash) init ls = some w) (hfree : CollisionFree hash w) (c : Nat)
    (call : Call) (hc : w.calls[c]? = some call) (record : Record)
    (hpc : call.pc = .returned (.replayed record)) :
    ∃ p, w.calls[record.producer]? = some p ∧ p.req = call.req ∧
      ⟨record.producer, p.req, record.response⟩ ∈ w.completed := by
  have hall : RecordsTraced hash w ∧ OneIdentity w := by
    apply guarded_invariant (I := fun w => RecordsTraced hash w ∧ OneIdentity w) ?_ ?_ hguard h
    · rintro s l t ⟨htraced, hone⟩ hok hl
      exact ⟨recordsTraced_step htraced hl, oneIdentity_step hone hok hl⟩
    · exact ⟨recordsTraced_init, fun a ha => by cases ha⟩
  obtain ⟨htraced, hone⟩ := hall
  have hstage := htraced.calls c call hc
  rw [hpc] at hstage
  obtain ⟨hkeyed, hhash, p, hp, hkey, hphash, hdone⟩ := hstage
  refine ⟨p, hp, ?_, hdone⟩
  have hpmem := List.mem_of_getElem? hp
  have hcmem := List.mem_of_getElem? hc
  obtain ⟨huid, hcommand, hseq⟩ := commandIdempotencyKey_inj hkey
  have hpayload : p.req.payload = call.req.payload :=
    hfree p hpmem call hcmem record.hash hphash (hhash ▸ hkeyed.hashed)
  obtain ⟨hrole, hserver⟩ := hone p hpmem call hcmem (huid ▸ hkeyed.uid) (hseq ▸ hkeyed.seq)
    (sameRequest_iff.mpr ⟨huid, hcommand, hseq, hpayload⟩)
  exact CommandRequest.ext hcommand huid hrole hserver hseq hpayload

section TwoRoles

def payloadType (payload : Option Any) : Except String String :=
  .ok ((payload.map Any.typeURL).getD "")

def claimFor (roleID : Int) : CommandRequest := ⟨1003, 7, roleID, 1, 1, some ⟨"claim", [5]⟩⟩

def claimed : CommandResponse := ⟨1003, 1, 0, "ok", some ⟨"state", [1]⟩⟩

def repeatedClaim (roleID : Int) : List Label :=
  [.dispatch 0 (claimFor 1), .step 0 .lookup, .step 0 (.complete (.ok claimed)), .step 0 .remember,
    .dispatch 0 (claimFor roleID), .step 1 .lookup]

def afterClaim (roleID : Int) : World :=
  (run (step (fun _ => false) payloadType) init (repeatedClaim roleID)).get (by rfl)

theorem collisionFree_afterClaim (roleID : Int) : CollisionFree payloadType (afterClaim roleID) := by
  have hcalls : ∀ a ∈ (afterClaim roleID).calls, a.req.payload = some ⟨"claim", [5]⟩ := by
    intro a ha
    rcases List.mem_cons.mp ha with rfl | ha
    · rfl
    · rw [List.mem_singleton.mp ha]
      rfl
  intro a ha b hb h _ _
  rw [hcalls a ha, hcalls b hb]

theorem repeatedClaim_replayed :
    run (step (fun _ => false) payloadType) init (repeatedClaim 1) = some (afterClaim 1) ∧
      ∃ call : Call, (afterClaim 1).calls[1]? = some call ∧
        call.pc = .returned (.replayed ⟨"claim", claimed, 0⟩) ∧
        ∃ p : Call, (afterClaim 1).calls[0]? = some p ∧ p.req = call.req := by
  have hrun : run (step (fun _ => false) payloadType) init (repeatedClaim 1) = some (afterClaim 1) :=
    (Option.some_get _).symm
  refine ⟨hrun, _, rfl, rfl, ?_⟩
  obtain ⟨p, hp, hreq, _⟩ := replayed_same_request payloadType (fun _ => false) (repeatedClaim 1) _
    (by decide) hrun (collisionFree_afterClaim 1) 1 _ rfl ⟨"claim", claimed, 0⟩ rfl
  exact ⟨p, hp, hreq⟩

theorem otherRole_swallowed :
    run (step (fun _ => false) payloadType) init (repeatedClaim 2) = some (afterClaim 2) ∧
      CollisionFree payloadType (afterClaim 2) ∧
      ¬ ∀ (c : Nat) (call : Call) (record : Record), (afterClaim 2).calls[c]? = some call →
        call.pc = .returned (.replayed record) →
          ∃ p, (afterClaim 2).calls[record.producer]? = some p ∧ p.req = call.req := by
  refine ⟨(Option.some_get _).symm, collisionFree_afterClaim 2, fun h => ?_⟩
  obtain ⟨p, hp, hreq⟩ := h 1 _ ⟨"claim", claimed, 0⟩ rfl rfl
  cases hp
  exact absurd (congrArg CommandRequest.roleID hreq) (by decide)

end TwoRoles

end GlobalMailSystem.IdempotentDispatch
