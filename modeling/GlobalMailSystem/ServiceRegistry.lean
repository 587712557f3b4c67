import GlobalMailSystem.ConsistentHashRouter
import GlobalMailSystem.DecimalKey
import GlobalMailSystem.MailTypes
import GlobalMailSystem.SlashPath
import GlobalMailSystem.Table
import GlobalMailSystem.Transition

/-!
The service registry in etcd: processes that register under a lease and keep it alive, status updates,
and what a listing shows. A step is one request to etcd, or etcd revoking a lease that has run out.
-/

namespace GlobalMailSystem.Registry

open Transition

structure Instance where
  serviceName : String
  instanceID : String
  publicAddr : String
  grpcAddr : String
  frpcAddr : String
  status : String
  weight : Int
  zone : String
  version : String
  updateTime : Time
  deriving DecidableEq

def Instance.prepared (instance_ : Instance) (now : Time) : Instance :=
  { instance_ with
    serviceName := if instance_.serviceName = "" then "unknown" else instance_.serviceName
    status := if instance_.status = "" then "ready" else instance_.status
    weight := if instance_.weight = 0 then 100 else instance_.weight
    updateTime := now }

structure KeyValue where
  key : String
  value : Instance
  lease : Option Nat
  deriving DecidableEq

abbrev Store := Table KeyValue.key

section Keys

variable (keyPrefix : String)

def instanceKey (serviceName instanceID : String) : String :=
  String.ofList (SlashPath.join [keyPrefix.toList, serviceName.toList, instanceID.toList])

def servicePrefix (serviceName : String) : String :=
  String.ofList (SlashPath.join [keyPrefix.toList, serviceName.toList]) ++ "/"

def getPrefix (kv : Store) (start : String) : List KeyValue :=
  (kv.rows.filter fun entry => start.toList.isPrefixOf entry.key.toList).insertionSort fun a b => a.key ≤ b.key

def listReady (kv : Store) (serviceName : String) : List Instance :=
  ((getPrefix kv (servicePrefix keyPrefix serviceName)).map KeyValue.value).filter fun value => value.status = "ready"

def listReadyPlayerServers (kv : Store) : List PlayerServerInstance :=
  (listReady keyPrefix kv "playersrv").map fun value =>
    ⟨value.instanceID, value.grpcAddr, value.frpcAddr, value.weight⟩

end Keys

def Plain (name : String) : Prop := SlashPath.Plain name.toList

instance (name : String) : Decidable (Plain name) := inferInstanceAs (Decidable (SlashPath.Plain _))

section PlainKeys

variable {keyPrefix service service' id id' : String}

theorem plain_keys (keyPrefix : String) : ∃ root : List Char, ∀ service id, Plain service → Plain id →
    (servicePrefix keyPrefix service).toList = root ++ service.toList ++ ['/'] ∧
      (instanceKey keyPrefix service id).toList = root ++ service.toList ++ '/' :: id.toList := by
  obtain ⟨root, hroot⟩ := SlashPath.join_plain keyPrefix.toList
  refine ⟨root, fun service id hservice hid => ?_⟩
  obtain ⟨hone, htwo⟩ := hroot service.toList id.toList hservice hid
  constructor
  · rw [servicePrefix, String.toList_append, String.toList_ofList, hone]
    rfl
  · rw [instanceKey, String.toList_ofList, htwo]

theorem instanceKey_inj (hs : Plain service) (hi : Plain id) (hs' : Plain service') (hi' : Plain id')
    (h : instanceKey keyPrefix service id = instanceKey keyPrefix service' id') : service = service' ∧ id = id' := by
  obtain ⟨root, hroot⟩ := plain_keys keyPrefix
  have hkeys := congrArg String.toList h
  rw [(hroot service id hs hi).2, (hroot service' id' hs' hi').2, List.append_assoc, List.append_assoc] at hkeys
  obtain ⟨hservice, hid⟩ := DecimalKey.separator_split hs.noSlash hs'.noSlash (List.append_cancel_left hkeys)
  exact ⟨String.toList_inj.mp hservice, String.toList_inj.mp hid⟩

theorem prefix_iff_service (hs : Plain service) (hs' : Plain service') (hi' : Plain id') :
    (servicePrefix keyPrefix service).toList <+: (instanceKey keyPrefix service' id').toList ↔ service = service' := by
  obtain ⟨root, hroot⟩ := plain_keys keyPrefix
  rw [(hroot service id' hs hi').1, (hroot service' id' hs' hi').2]
  constructor
  · rintro ⟨rest, hrest⟩
    simp only [List.append_assoc, List.cons_append, List.nil_append] at hrest
    have hnames := DecimalKey.separator_split hs.noSlash hs'.noSlash (List.append_cancel_left hrest)
    exact String.toList_inj.mp hnames.1
  · rintro rfl
    exact ⟨id'.toList, by simp⟩

end PlainKeys

theorem mem_listReady {keyPrefix service : String} {kv : Store} {value : Instance} :
    value ∈ listReady keyPrefix kv service ↔ ∃ entry ∈ kv.rows,
      (servicePrefix keyPrefix service).toList <+: entry.key.toList ∧ entry.value = value ∧ value.status = "ready" := by
  simp only [listReady, getPrefix, List.mem_filter, List.mem_map, List.mem_insertionSort, List.isPrefixOf_iff_prefix,
    decide_eq_true_eq]
  constructor
  · rintro ⟨⟨entry, ⟨hrow, hstart⟩, he⟩, hready⟩
    exact ⟨entry, hrow, hstart, he, hready⟩
  · rintro ⟨entry, hrow, hstart, he, hready⟩
    exact ⟨⟨entry, ⟨hrow, hstart⟩, he⟩, hready⟩

inductive ProcessPC
  | grant
  | put (lease : Nat)
  | registered (lease : Nat)
  | exited
  deriving DecidableEq

structure Process where
  configured : Instance
  startedAt : Time
  pc : ProcessPC

inductive UpdatePC
  | get
  | put (found : Instance)
  | returned (err : Option String)

structure Update where
  serviceName : String
  instanceID : String
  status : String
  pc : UpdatePC

/-- `owner` is the process the lease was granted to; etcd does not know it. -/
structure Lease where
  owner : Nat
  expireAt : Time
  live : Bool

structure World where
  kv : Store
  leases : List Lease
  clock : Time
  processes : List Process
  updates : List Update

def World.init (clock : Time) : World := ⟨Table.empty, [], clock, [], []⟩

/-- `leaseTTL` and `serviceKeyPrefix` of `EtcdConfig`; `minTTL` is the shortest lease the cluster grants. -/
structure Config where
  serviceKeyPrefix : String
  leaseTTL : Time
  minTTL : Time

def Config.grantedTTL (cfg : Config) : Time := max cfg.minTTL (cfg.leaseTTL.tdiv second * second)

def Process.running (process : Process) : Bool := process.pc ≠ .exited

def Process.value (process : Process) : Instance := process.configured.prepared process.startedAt

def Process.key (cfg : Config) (process : Process) : String :=
  instanceKey cfg.serviceKeyPrefix process.value.serviceName process.value.instanceID

inductive Request
  | grant (outcome : Outcome)
  | put (outcome : Outcome)
  | keepAlive
  | unregister (outcome : Outcome)
  | crash

inductive UpdateRequest
  | get (outcome : Outcome)
  | put (now : Time) (outcome : Outcome)

inductive Label
  | tick (clock : Time)
  | start (configured : Instance) (now : Time)
  | process (p : Nat) (request : Request)
  | revoke (lease : Nat)
  | updateStatus (serviceName instanceID status : String)
  | update (u : Nat) (request : UpdateRequest)

def World.setPC (w : World) (p : Nat) (process : Process) (pc : ProcessPC) : World :=
  { w with processes := w.processes.set p { process with pc := pc } }

def World.granted (cfg : Config) (w : World) (p : Nat) : World :=
  { w with leases := w.leases ++ [⟨p, w.clock + cfg.grantedTTL, true⟩] }

def World.put (w : World) (entry : KeyValue) : World := { w with kv := w.kv.upsert entry }

def World.delete (w : World) (key : String) : World := { w with kv := w.kv.filterRows fun entry => entry.key ≠ key }

def World.renewed (cfg : Config) (w : World) (l : Nat) (lease : Lease) : World :=
  { w with leases := w.leases.set l { lease with expireAt := w.clock + cfg.grantedTTL } }

def World.revoked (w : World) (l : Nat) (lease : Lease) : World :=
  { w with
    leases := w.leases.set l { lease with live := false }
    kv := w.kv.filterRows fun entry => entry.lease ≠ some l }

def proceed (outcome : Outcome) (pc : ProcessPC) : ProcessPC :=
  match outcome with
  | .ok => pc
  | _ => .exited

def processStep (cfg : Config) (w : World) (p : Nat) (process : Process) : Request → Option World
  | .grant outcome =>
    match process.pc with
    | .grant =>
      let after := if outcome.executed then w.granted cfg p else w
      some (after.setPC p process (proceed outcome (.put w.leases.length)))
    | _ => none
  | .put outcome =>
    match process.pc with
    | .put l =>
      match w.leases[l]? with
      | some lease =>
        -- a put under a lease that is gone is refused
        if lease.live then
          let entry : KeyValue := ⟨process.key cfg, process.value, some l⟩
          let after := if outcome.executed then w.put entry else w
          some (after.setPC p process (proceed outcome (.registered l)))
        else some (w.setPC p process .exited)
      | none => none
    | _ => none
  | .keepAlive =>
    match process.pc with
    | .registered l =>
      match w.leases[l]? with
      | some lease => if lease.live then some (w.renewed cfg l lease) else some w
      | none => none
    | _ => none
  | .unregister outcome =>
    match process.pc with
    | .registered _ =>
      let key := instanceKey cfg.serviceKeyPrefix process.configured.serviceName process.configured.instanceID
      let after := if outcome.executed then w.delete key else w
      some (after.setPC p process .exited)
    | _ => none
  | .crash => if process.running then some (w.setPC p process .exited) else none

def err? : Outcome → Option String
  | .ok => none
  | .failed err => some err
  | .lost err => some err

def updateStep (cfg : Config) (w : World) (u : Nat) (update : Update) : UpdateRequest → Option World
  | .get outcome =>
    match update.pc with
    | .get =>
      let pc := match err? outcome with
        | some err => UpdatePC.returned (some err)
        | none =>
          match w.kv.find? (instanceKey cfg.serviceKeyPrefix update.serviceName update.instanceID) with
          | none => .returned (some s!"service instance not found: {update.serviceName}/{update.instanceID}")
          | some entry => .put entry.value
      some { w with updates := w.updates.set u { update with pc := pc } }
    | _ => none
  | .put now outcome =>
    match update.pc with
    | .put found =>
      let entry : KeyValue := ⟨instanceKey cfg.serviceKeyPrefix update.serviceName update.instanceID,
        { found with status := update.status, updateTime := now }, none⟩
      let after := if outcome.executed then w.put entry else w
      some { after with updates := w.updates.set u { update with pc := .returned (err? outcome) } }
    | _ => none

def step (cfg : Config) (w : World) : Label → Option World
  | .tick clock => if w.clock ≤ clock then some { w with clock := clock } else none
  | .start configured now => some { w with processes := w.processes ++ [⟨configured, now, .grant⟩] }
  | .process p request => w.processes[p]?.bind fun process => processStep cfg w p process request
  | .revoke l => w.leases[l]?.bind fun lease =>
      if lease.live ∧ lease.expireAt ≤ w.clock then some (w.revoked l lease) else none
  | .updateStatus serviceName instanceID status =>
    some { w with updates := w.updates ++ [⟨serviceName, instanceID, status, .get⟩] }
  | .update u request => w.updates[u]?.bind fun update => updateStep cfg w u update request

inductive Moves (cfg : Config) (w : World) : Label → World → Prop
  | ticked {clock : Time} (h : w.clock ≤ clock) : Moves cfg w (.tick clock) { w with clock := clock }
  | started {configured : Instance} {now : Time} :
    Moves cfg w (.start configured now) { w with processes := w.processes ++ [⟨configured, now, .grant⟩] }
  | left {p : Nat} {process : Process} {request : Request} (hp : w.processes[p]? = some process)
      (hrun : process.running = true) : Moves cfg w (.process p request) (w.setPC p process .exited)
  | granted {p : Nat} {process : Process} {outcome : Outcome} (hp : w.processes[p]? = some process)
      (hpc : process.pc = .grant) {pc : ProcessPC} (hnext : pc = .put w.leases.length ∨ pc = .exited) :
    Moves cfg w (.process p (.grant outcome)) ((w.granted cfg p).setPC p process pc)
  | put {p : Nat} {process : Process} {outcome : Outcome} {l : Nat} {lease : Lease}
      (hp : w.processes[p]? = some process) (hpc : process.pc = .put l) (hl : w.leases[l]? = some lease)
      (hlive : lease.live = true) {pc : ProcessPC} (hnext : pc = .registered l ∨ pc = .exited) :
    Moves cfg w (.process p (.put outcome))
      ((w.put ⟨process.key cfg, process.value, some l⟩).setPC p process pc)
  | renewed {p : Nat} {process : Process} {l : Nat} {lease : Lease} (hp : w.processes[p]? = some process)
      (hpc : process.pc = .registered l) (hl : w.leases[l]? = some lease) (hlive : lease.live = true) :
    Moves cfg w (.process p .keepAlive) (w.renewed cfg l lease)
  | idle {p : Nat} : Moves cfg w (.process p .keepAlive) w
  | unregistered {p : Nat} {process : Process} {outcome : Outcome} {l : Nat} (hp : w.processes[p]? = some process)
      (hpc : process.pc = .registered l) :
    Moves cfg w (.process p (.unregister outcome)) ((w.delete (instanceKey cfg.serviceKeyPrefix
      process.configured.serviceName process.configured.instanceID)).setPC p process .exited)
  | revoked {l : Nat} {lease : Lease} (hl : w.leases[l]? = some lease) (hlive : lease.live = true)
      (hdue : lease.expireAt ≤ w.clock) : Moves cfg w (.revoke l) (w.revoked l lease)
  | calls {label : Label} (updates : List Update) : Moves cfg w label { w with updates := updates }
  | updated {u : Nat} {update : Update} {found : Instance} {now : Time} {outcome : Outcome}
      (hu : w.updates[u]? = some update) (hpc : update.pc = .put found) (updates : List Update) :
    Moves cfg w (.update u (.put now outcome))
      { w.put ⟨instanceKey cfg.serviceKeyPrefix update.serviceName update.instanceID,
          { found with status := update.status, updateTime := now }, none⟩ with updates := updates }

section Inversion

variable {cfg : Config} {w w' : World}

theorem proceed_cases (outcome : Outcome) (pc : ProcessPC) : proceed outcome pc = pc ∨ proceed outcome pc = .exited := by
  cases outcome <;> simp [proceed]

theorem proceed_failed {outcome : Outcome} (h : outcome.executed = false) (pc : ProcessPC) :
    proceed outcome pc = .exited := by
  cases outcome with
  | failed err => rfl
  | ok => cases h
  | lost err => cases h

theorem processStep_moves {p : Nat} {process : Process} {request : Request} (hp : w.processes[p]? = some process)
    (h : processStep cfg w p process request = some w') : Moves cfg w (.process p request) w' := by
  cases request with
  | grant outcome =>
    simp only [processStep] at h
    split at h
    · rename_i hpc
      cases h
      split_ifs with hexecuted
      · exact .granted hp hpc (proceed_cases _ _)
      · rw [proceed_failed (Bool.eq_false_of_not_eq_true hexecuted)]
        exact .left hp (by simp [Process.running, hpc])
    · cases h
  | put outcome =>
    simp only [processStep] at h
    split at h
    · rename_i l hpc
      have hrun : process.running = true := by simp [Process.running, hpc]
      split at h
      · rename_i lease hl
        split_ifs at h with hlive hexecuted
        · cases h
          exact .put hp hpc hl hlive (proceed_cases _ _)
        · cases h
          rw [proceed_failed (Bool.eq_false_of_not_eq_true hexecuted)]
          exact .left hp hrun
        · cases h
          exact .left hp hrun
      · cases h
    · cases h
  | keepAlive =>
    simp only [processStep] at h
    split at h
    · rename_i l hpc
      split at h
      · rename_i lease hl
        split_ifs at h with hlive
        · cases h
          exact .renewed hp hpc hl hlive
        · cases h
          exact .idle
      · cases h
    · cases h
  | unregister outcome =>
    simp only [processStep] at h
    split at h
    · rename_i l hpc
      cases h
      split_ifs with hexecuted
      · exact .unregistered hp hpc
      · exact .left hp (by simp [Process.running, hpc])
    · cases h
  | crash =>
    simp only [processStep] at h
    split_ifs at h with hrun
    cases h
    exact .left hp hrun

theorem updateStep_moves {u : Nat} {update : Update} {request : UpdateRequest} (hu : w.updates[u]? = some update)
    (h : updateStep cfg w u update request = some w') : Moves cfg w (.update u request) w' := by
  cases request with
  | get outcome =>
    simp only [updateStep] at h
    split at h
    · cases h
      exact .calls _
    · cases h
  | put now outcome =>
    simp only [updateStep] at h
    split at h
    · rename_i found hpc
      cases h
      split_ifs with hexecuted
      · exact .updated hu hpc _
      · exact .calls _
    · cases h

theorem step_moves {label : Label} (h : step cfg w label = some w') : Moves cfg w label w' := by
  cases label with
  | tick clock =>
    simp only [step] at h
    split_ifs at h with hclock
    cases h
    exact .ticked hclock
  | start configured now =>
    cases h
    exact .started
  | process p request =>
    obtain ⟨process, hp, hstep⟩ := Option.bind_eq_some_iff.mp h
    exact processStep_moves hp hstep
  | revoke l =>
    obtain ⟨lease, hl, hstep⟩ := Option.bind_eq_some_iff.mp h
    split_ifs at hstep with hdue
    cases hstep
    exact .revoked hl hdue.1 hdue.2
  | updateStatus serviceName instanceID status =>
    cases h
    exact .calls _
  | update u request =>
    obtain ⟨update, hu, hstep⟩ := Option.bind_eq_some_iff.mp h
    exact updateStep_moves hu hstep

end Inversion

end GlobalMailSystem.Registry
