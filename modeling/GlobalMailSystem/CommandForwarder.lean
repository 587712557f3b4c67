import GlobalMailSystem.RouteService

/-!
`CommandForwarder.Forward` and the route calls of the gateway server, on any number of gateways over one route store.
`Resolve` goes as in `Routing.resolve`; every other label is one call to the store, the client factory or a player
server.
-/

namespace GlobalMailSystem.Forwarding

open Transition Routing

variable {α ρ : Type}

inductive Kind (α : Type)
  | resolveRoute
  | clearRoute
  | forward (request : α)

inductive Answer (ρ : Type)
  | route (server : PlayerServerInstance)
  | cleared
  | response (resp : ρ)

structure Client where
  id : Nat
  addr : String
  deriving DecidableEq

inductive CallPC (ρ : Type)
  | resolving (pc : ResolvePC)
  | clientFor (route : PlayerServerInstance)
  | dispatch (client : Client)
  | clearSession (cause : Option String)
  | clearStore (cause : Option String)
  | returned (result : Except String (Answer ρ))

structure Call (α ρ : Type) where
  gateway : Nat
  uid : Int
  kind : Kind α
  pc : CallPC ρ

structure Routed where
  gateway : Nat
  uid : Int
  route : PlayerServerInstance
  deriving DecidableEq

structure Sent (α : Type) where
  call : Nat
  gateway : Nat
  uid : Int
  request : α
  client : Client

/-- `routed` is the history of the routes `Forward` has got, `sent` that of the commands it has dispatched. -/
structure Shared (α : Type) extends Routing.Shared where
  clients : Nat → String → Option Client
  opened : Nat
  routed : List Routed
  sent : List (Sent α)

structure World (α ρ : Type) where
  shared : Shared α
  calls : List (Call α ρ)

inductive CallLabel (ρ : Type)
  | resolve (l : ResolveLabel)
  | clientFor (dial : Option String)
  | dispatch (answer : Except String ρ)
  | clearSession
  | clearStore (outcome : Outcome)

inductive Label (α ρ : Type)
  | begin (gateway : Nat) (uid : Int) (kind : Kind α)
  | call (c : Nat) (l : CallLabel ρ)
  | closeClients (gateway : Nat)

def Kind.start : Kind α → CallPC ρ
  | .clearRoute => .clearSession none
  | _ => .resolving .getSession

namespace Shared

def setRouter (s : Shared α) (g : Nat) (router : ConsistentHashRouter) : Shared α :=
  { s with toShared := s.toShared.setRouter g router }

def setSession (s : Shared α) (g : Nat) (uid : Int) (route : Option PlayerServerInstance) : Shared α :=
  { s with toShared := s.toShared.setSession g uid route }

section Fields

variable (s : Shared α) (g j : Nat) (router : ConsistentHashRouter) (u uid : Int) (route : Option PlayerServerInstance)

theorem session_setRouter : ((s.setRouter g router).gateways j).session uid = (s.gateways j).session uid :=
  s.toShared.session_setRouter g j router uid

theorem router_setRouter : ((s.setRouter g router).gateways j).router = if j = g then router else (s.gateways j).router :=
  s.toShared.router_setRouter g j router

theorem session_setSession :
    ((s.setSession g u route).gateways j).session uid =
      if j = g ∧ uid = u then route else (s.gateways j).session uid :=
  s.toShared.session_setSession g j u uid route

theorem router_setSession : ((s.setSession g u route).gateways j).router = (s.gateways j).router :=
  s.toShared.router_setSession g j u route

end Fields

end Shared

def resolved (s : Shared α) (call : Call α ρ) (route : PlayerServerInstance) : Shared α × CallPC ρ :=
  match call.kind with
  | .forward _ => ({ s with routed := s.routed ++ [⟨call.gateway, call.uid, route⟩] }, .clientFor route)
  | _ => (s, .returned (.ok (.route route)))

def resolveResult (s : Shared α) (call : Call α ρ) : ResolvePC → Shared α × CallPC ρ
  | .returned (.ok route) => resolved s call route
  | .returned (.error err) => (s, .returned (.error err.message))
  | pc => (s, .resolving pc)

def clientFor (s : Shared α) (g : Nat) (addr : String) (dial : Option String) : Shared α × CallPC ρ :=
  match s.clients g addr with
  | some client => (s, .dispatch client)
  | none =>
    match dial with
    | some err => (s, .clearSession (some err))
    | none =>
      let client : Client := ⟨s.opened, addr⟩
      let conns := Function.update (s.clients g) addr (some client)
      ({ s with clients := Function.update s.clients g conns, opened := s.opened + 1 }, .dispatch client)

def dispatchResult : Except String ρ → CallPC ρ
  | .ok resp => .returned (.ok (.response resp))
  | .error err => .clearSession (some err)

def clearResult : Option String → Outcome → Except String (Answer ρ)
  | some err, _ => .error err
  | none, .ok => .ok .cleared
  | none, .failed err => .error err
  | none, .lost err => .error err

section Step

variable (crc32 : String → Checksum) (config : Nat → Config)

def advance (c : Nat) (s : Shared α) (call : Call α ρ) (l : CallLabel ρ) : Option (Shared α × CallPC ρ) :=
  match call.pc, l with
  | .resolving pc, .resolve l =>
    (resolve crc32 config s.toShared call.gateway call.uid pc l).map fun next =>
      resolveResult { s with toShared := next.1 } call next.2
  | .clientFor route, .clientFor dial => some (clientFor s call.gateway route.grpcAddr dial)
  | .dispatch client, .dispatch answer =>
    match call.kind with
    | .forward request =>
      some ({ s with sent := s.sent ++ [⟨c, call.gateway, call.uid, request, client⟩] }, dispatchResult answer)
    | _ => none
  | .clearSession cause, .clearSession => some (s.setSession call.gateway call.uid none, .clearStore cause)
  | .clearStore cause, .clearStore outcome =>
    let store := if outcome.executed then deleteSrvRouter s.store call.uid else s.store
    some ({ s with store }, .returned (clearResult cause outcome))
  | _, _ => none

def step (w : World α ρ) : Label α ρ → Option (World α ρ)
  | .begin g uid kind => some { w with calls := w.calls ++ [⟨g, uid, kind, kind.start⟩] }
  | .call c l =>
    match w.calls[c]? with
    | none => none
    | some call =>
      (advance crc32 config c w.shared call l).map fun next =>
        ⟨next.1, w.calls.set c { call with pc := next.2 }⟩
  | .closeClients g => some { w with shared.clients := Function.update w.shared.clients g fun _ => none }

def init : World α ρ :=
  ⟨⟨(Routing.init crc32 config).shared, fun _ _ => none, 0, [], []⟩, []⟩

end Step

section Inversion

variable {crc32 : String → Checksum} {config : Nat → Config} {c : Nat} {s s' : Shared α} {call : Call α ρ}
  {l : CallLabel ρ} {pc : CallPC ρ}

inductive Advance (crc32 : String → Checksum) (config : Nat → Config) (c : Nat) (s : Shared α) (call : Call α ρ) :
    CallLabel ρ → Shared α → CallPC ρ → Prop
  | sessionHit {route : PlayerServerInstance} (hpc : call.pc = .resolving .getSession)
      (hroute : (s.gateways call.gateway).session call.uid = some route) :
      Advance crc32 config c s call (.resolve .getSession) (resolved s call route).1 (resolved s call route).2
  | sessionMiss (hpc : call.pc = .resolving .getSession) :
      Advance crc32 config c s call (.resolve .getSession) s (.resolving .readStore)
  | storeHit {redisNow now : Time} {stored : SrvRouter} (hpc : call.pc = .resolving .readStore)
      (hstored : getSrvRouter s.store call.uid redisNow = some stored) :
      Advance crc32 config c s call (.resolve (.readStore redisNow now .ok)) s
        (.resolving (.setSession (storedInstance stored)))
  | storeMiss {redisNow now : Time} (hpc : call.pc = .resolving .readStore) :
      Advance crc32 config c s call (.resolve (.readStore redisNow now .ok)) s (.resolving .list)
  | listed {instances : List PlayerServerInstance} (hpc : call.pc = .resolving .list) :
      Advance crc32 config c s call (.resolve (.list (.ok instances))) s (.resolving (.update instances))
  | updated {instances : List PlayerServerInstance} (hpc : call.pc = .resolving (.update instances)) :
      Advance crc32 config c s call (.resolve .update)
        (s.setRouter call.gateway ((s.gateways call.gateway).router.update crc32 instances)) (.resolving .pick)
  | picked {route : PlayerServerInstance} (hpc : call.pc = .resolving .pick)
      (hroute : (s.gateways call.gateway).router.routeUID crc32 call.uid = .ok route) :
      Advance crc32 config c s call (.resolve .pick) s (.resolving (.writeStore route))
  | written {route : PlayerServerInstance} {now redisNow ttl : Time} {outcome : Outcome} {pc : CallPC ρ}
      (hpc : call.pc = .resolving (.writeStore route))
      (hnext : pc = .resolving (.setSession route) ∨ ∃ err, pc = .returned (.error err)) :
      Advance crc32 config c s call (.resolve (.writeStore now redisNow outcome))
        { s with store := setSrvRouter s.store (srvRouter call.uid route (now + ttl)) ttl redisNow } pc
  | sessionSet {route : PlayerServerInstance} (hpc : call.pc = .resolving (.setSession route)) :
      Advance crc32 config c s call (.resolve .setSession)
        (resolved (s.setSession call.gateway call.uid (some route)) call route).1
        (resolved (s.setSession call.gateway call.uid (some route)) call route).2
  | reused {route : PlayerServerInstance} {dial : Option String} {client : Client} (hpc : call.pc = .clientFor route)
      (hclient : s.clients call.gateway route.grpcAddr = some client) :
      Advance crc32 config c s call (.clientFor dial) s (.dispatch client)
  | dialed {route : PlayerServerInstance} (hpc : call.pc = .clientFor route)
      (hclient : s.clients call.gateway route.grpcAddr = none) :
      Advance crc32 config c s call (.clientFor none)
        { s with
          clients := Function.update s.clients call.gateway
            (Function.update (s.clients call.gateway) route.grpcAddr (some ⟨s.opened, route.grpcAddr⟩))
          opened := s.opened + 1 }
        (.dispatch ⟨s.opened, route.grpcAddr⟩)
  | refused {route : PlayerServerInstance} {err : String} (hpc : call.pc = .clientFor route) :
      Advance crc32 config c s call (.clientFor (some err)) s (.clearSession (some err))
  | dispatched {client : Client} {request : α} {answer : Except String ρ} (hpc : call.pc = .dispatch client)
      (hkind : call.kind = .forward request) :
      Advance crc32 config c s call (.dispatch answer)
        { s with sent := s.sent ++ [⟨c, call.gateway, call.uid, request, client⟩] } (dispatchResult answer)
  | sessionCleared {cause : Option String} (hpc : call.pc = .clearSession cause) :
      Advance crc32 config c s call .clearSession (s.setSession call.gateway call.uid none) (.clearStore cause)
  | storeCleared {cause : Option String} {outcome : Outcome} (hpc : call.pc = .clearStore cause) :
      Advance crc32 config c s call (.clearStore outcome)
        { s with store := if outcome.executed then deleteSrvRouter s.store call.uid else s.store }
        (.returned (clearResult cause outcome))
  | failed {asked : ResolvePC} {l : ResolveLabel} {err : String} (hpc : call.pc = .resolving asked)
      (hasking : asked.asking = true) : Advance crc32 config c s call (.resolve l) s (.returned (.error err))

theorem advance_resolves {old next : ResolvePC} {label : ResolveLabel} {r : Routing.Shared}
    (hpc : call.pc = .resolving old) (h : Resolves crc32 s.toShared call.gateway call.uid old label r next) :
    Advance crc32 config c s call (.resolve label) (resolveResult { s with toShared := r } call next).1
      (resolveResult { s with toShared := r } call next).2 := by
  cases h with
  | sessionHit hroute => exact .sessionHit hpc hroute
  | sessionMiss => exact .sessionMiss hpc
  | storeHit hstored => exact .storeHit hpc hstored
  | storeMiss => exact .storeMiss hpc
  | listed => exact .listed hpc
  | updated => exact .updated hpc
  | picked hroute => exact .picked hpc hroute
  | written hnext =>
    rcases hnext with rfl | ⟨err, rfl⟩
    · exact .written hpc (Or.inl rfl)
    · exact .written hpc (Or.inr ⟨_, rfl⟩)
  | sessionSet => exact .sessionSet hpc
  | failed hasking => exact .failed hpc hasking

theorem some_pair_inj {β γ : Type} {x : β × γ} {a : β} {b : γ} (h : some x = some (a, b)) : a = x.1 ∧ b = x.2 := by
  cases h
  exact ⟨rfl, rfl⟩

theorem advance_inv (h : advance crc32 config c s call l = some (s', pc)) : Advance crc32 config c s call l s' pc := by
  unfold advance at h
  split at h
  · rename_i hpc
    obtain ⟨⟨r, next⟩, hresolve, hnext⟩ := Option.map_eq_some_iff.mp h
    obtain ⟨rfl, rfl⟩ := Prod.mk.inj hnext.symm
    exact advance_resolves hpc (resolve_inv hresolve)
  · rename_i route dial hpc
    obtain ⟨rfl, rfl⟩ := some_pair_inj h
    unfold clientFor
    cases hclient : s.clients call.gateway route.grpcAddr with
    | some client => exact .reused hpc hclient
    | none =>
      cases dial with
      | some err => exact .refused hpc
      | none => exact .dialed hpc hclient
  · rename_i client answer hpc
    split at h
    · rename_i request hkind
      obtain ⟨rfl, rfl⟩ := some_pair_inj h
      exact .dispatched hpc hkind
    · cases h
  · rename_i cause hpc
    obtain ⟨rfl, rfl⟩ := some_pair_inj h
    exact .sessionCleared hpc
  · rename_i cause outcome hpc
    obtain ⟨rfl, rfl⟩ := some_pair_inj h
    exact .storeCleared hpc
  · cases h

inductive Step (crc32 : String → Checksum) (config : Nat → Config) (w : World α ρ) : Label α ρ → World α ρ → Prop
  | begin {g : Nat} {uid : Int} {kind : Kind α} :
      Step crc32 config w (.begin g uid kind) { w with calls := w.calls ++ [⟨g, uid, kind, kind.start⟩] }
  | call {c : Nat} {call : Call α ρ} {l : CallLabel ρ} {s : Shared α} {pc : CallPC ρ} (hc : w.calls[c]? = some call)
      (h : Advance crc32 config c w.shared call l s pc) :
      Step crc32 config w (.call c l) ⟨s, w.calls.set c { call with pc }⟩
  | closeClients {g : Nat} :
      Step crc32 config w (.closeClients g)
        { w with shared.clients := Function.update w.shared.clients g fun _ => none }

theorem step_inv {w w' : World α ρ} {l : Label α ρ} (h : step crc32 config w l = some w') :
    Step crc32 config w l w' := by
  cases l with
  | begin g uid kind =>
    cases h
    exact .begin
  | closeClients g =>
    cases h
    exact .closeClients
  | call c l =>
    simp only [step] at h
    split at h
    · cases h
    · rename_i call hc
      obtain ⟨⟨s, pc⟩, hadvance, rfl⟩ := Option.map_eq_some_iff.mp h
      exact .call hc (advance_inv hadvance)

end Inversion

def CallPC.addr? : CallPC ρ → Option String
  | .resolving pc => pc.route?.map (·.grpcAddr)
  | .clientFor route => some route.grpcAddr
  | .dispatch client => some client.addr
  | .returned (.ok (.route route)) => some route.grpcAddr
  | _ => none

def CallPC.listing? : CallPC ρ → Option (List PlayerServerInstance)
  | .resolving (.update instances) => some instances
  | _ => none

section Selected

variable (crc32 : String → Checksum) (config : Nat → Config)

def Selected (as : List (Label α ρ)) (uid : Int) (addr : String) : Prop :=
  ∃ c g instances server, Label.call c (.resolve (.list (.ok instances))) ∈ as ∧ server ∈ instances ∧ server.instanceID ≠ "" ∧
    (ConsistentHashRouter.new crc32 instances (config g).virtualNodes).routeUID crc32 uid = .ok server ∧
    server.grpcAddr = addr

structure Traced (as : List (Label α ρ)) (s : Shared α) : Prop where
  store : ∀ uid stored, s.store uid = some stored → Selected crc32 config as uid stored.value.grpcAddr
  sessions : ∀ g uid route, (s.gateways g).session uid = some route → Selected crc32 config as uid route.grpcAddr
  routers : ∀ g, ∃ instances,
    (instances = [] ∨ ∃ c, Label.call c (.resolve (.list (.ok instances))) ∈ as) ∧
      (s.gateways g).router = ConsistentHashRouter.new crc32 instances (config g).virtualNodes
  clients : ∀ g addr client, s.clients g addr = some client → client.addr = addr
  sent : ∀ x ∈ s.sent, Selected crc32 config as x.uid x.client.addr

structure Carries (as : List (Label α ρ)) (uid : Int) (pc : CallPC ρ) : Prop where
  addr : ∀ addr, pc.addr? = some addr → Selected crc32 config as uid addr
  held : ∀ instances, pc.listing? = some instances → ∃ c, Label.call c (.resolve (.list (.ok instances))) ∈ as

end Selected

section Trace

variable {crc32 : String → Checksum} {config : Nat → Config} {as : List (Label α ρ)}

theorem Selected.mono {uid : Int} {addr : String} (h : Selected crc32 config as uid addr) (l : Label α ρ) :
    Selected crc32 config (as ++ [l]) uid addr := by
  obtain ⟨c, g, instances, server, hlisted, hrest⟩ := h
  exact ⟨c, g, instances, server, List.mem_append_left _ hlisted, hrest⟩

theorem Carries.mono {uid : Int} {pc : CallPC ρ} (h : Carries crc32 config as uid pc) (l : Label α ρ) :
    Carries crc32 config (as ++ [l]) uid pc where
  addr addr haddr := (h.addr addr haddr).mono l
  held instances hpc := (h.held instances hpc).imp fun _ hc => List.mem_append_left _ hc

theorem Traced.mono {s : Shared α} (h : Traced crc32 config as s) (l : Label α ρ) :
    Traced crc32 config (as ++ [l]) s where
  store uid stored hs := (h.store uid stored hs).mono l
  sessions g uid route hs := (h.sessions g uid route hs).mono l
  routers g := by
    obtain ⟨instances, hlisted, hrouter⟩ := h.routers g
    exact ⟨instances, hlisted.imp_right fun ⟨c, hc⟩ => ⟨c, List.mem_append_left _ hc⟩, hrouter⟩
  clients := h.clients
  sent x hx := (h.sent x hx).mono l

theorem update_routeUID {r : ConsistentHashRouter} {instances : List PlayerServerInstance} {uid : Int}
    {server : PlayerServerInstance} (h : (r.update crc32 instances).routeUID crc32 uid = .ok server) :
    server ∈ instances ∧ server.instanceID ≠ "" := by
  rcases ConsistentHashRouter.routeUID_update r instances uid with ⟨_, herr⟩ | ⟨hash, found, _, howner, hok⟩
  · rw [herr] at h
    cases h
  · rw [hok] at h
    cases h
    obtain ⟨hmem, hhash⟩ := ConsistentHashRouter.mem_hashes_of_owner howner
    exact ⟨hmem, ConsistentHashRouter.instanceID_of_mem_hashes hhash⟩

theorem update_new (first instances : List PlayerServerInstance) (virtualNodes : Int) :
    (ConsistentHashRouter.new crc32 first virtualNodes).update crc32 instances =
      ConsistentHashRouter.new crc32 instances virtualNodes := by
  simp only [ConsistentHashRouter.new, ConsistentHashRouter.update, ConsistentHashRouter.foldl_addInstance]

theorem carries_nothing {uid : Int} {pc : CallPC ρ} (hpc : pc.addr? = none) (hlisting : pc.listing? = none) :
    Carries crc32 config as uid pc := by
  refine ⟨fun addr haddr => ?_, fun instances he => ?_⟩
  · rw [hpc] at haddr
    cases haddr
  · rw [hlisting] at he
    cases he

theorem carries_addr {uid : Int} {addr : String} {pc : CallPC ρ} (haddr : Selected crc32 config as uid addr)
    (hpc : pc.addr? = some addr) (hlisting : pc.listing? = none) : Carries crc32 config as uid pc := by
  refine ⟨fun other hother => ?_, fun instances he => ?_⟩
  · rw [hpc] at hother
    exact Option.some.inj hother ▸ haddr
  · rw [hlisting] at he
    cases he

theorem clients_dialed {clients : Nat → String → Option Client}
    (h : ∀ g addr client, clients g addr = some client → client.addr = addr) (gateway opened : Nat) (dialed : String)
    (g : Nat) (addr : String) (client : Client)
    (hclient : Function.update clients gateway
      (Function.update (clients gateway) dialed (some ⟨opened, dialed⟩)) g addr = some client) :
    client.addr = addr := by
  simp only [Function.update_apply] at hclient
  split_ifs at hclient with hg
  · simp only [Function.update_apply] at hclient
    split_ifs at hclient with haddr
    · rw [← Option.some.inj hclient, haddr]
    · exact h _ _ _ hclient
  · exact h _ _ _ hclient

section Shared

variable {s : Shared α} (h : Traced crc32 config as s)
include h

theorem Traced.setRouter {c g : Nat} {instances : List PlayerServerInstance}
    (hlisted : Label.call c (.resolve (.list (.ok instances))) ∈ as) :
    Traced crc32 config as (s.setRouter g ((s.gateways g).router.update crc32 instances)) where
  store := h.store
  sessions j uid route hs := h.sessions j uid route (s.session_setRouter g j _ uid ▸ hs)
  routers j := by
    rw [s.router_setRouter]
    split_ifs with hj
    · obtain ⟨first, _, hrouter⟩ := h.routers g
      exact ⟨instances, Or.inr ⟨c, hlisted⟩, by rw [hrouter, update_new, hj]⟩
    · exact h.routers j
  clients := h.clients
  sent := h.sent

theorem Traced.setSession {g : Nat} {uid : Int} {route : Option PlayerServerInstance}
    (hroute : ∀ server, route = some server → Selected crc32 config as uid server.grpcAddr) :
    Traced crc32 config as (s.setSession g uid route) where
  store := h.store
  sessions j u server hs := by
    rw [s.session_setSession] at hs
    split_ifs at hs with hown
    · exact hown.2 ▸ hroute server hs
    · exact h.sessions j u server hs
  routers j := by
    rw [s.router_setSession]
    exact h.routers j
  clients := h.clients
  sent := h.sent

theorem Traced.setStore {uid : Int} {stored : Option (Stored SrvRouter)}
    (hstored : ∀ x, stored = some x → Selected crc32 config as uid x.value.grpcAddr) :
    Traced crc32 config as { s with store := Function.update s.store uid stored } where
  store u x hx := by
    simp only [Function.update_apply] at hx
    split_ifs at hx with hu
    · exact hu ▸ hstored x hx
    · exact h.store u x hx
  sessions := h.sessions
  routers := h.routers
  clients := h.clients
  sent := h.sent

theorem Traced.resolved {call : Call α ρ} {route : PlayerServerInstance}
    (hroute : Selected crc32 config as call.uid route.grpcAddr) :
    Traced crc32 config as (resolved s call route).1 ∧ Carries crc32 config as call.uid (resolved s call route).2 := by
  unfold Forwarding.resolved
  split
  · exact ⟨⟨h.store, h.sessions, h.routers, h.clients, h.sent⟩, carries_addr hroute rfl rfl⟩
  · exact ⟨h, carries_addr hroute rfl rfl⟩

theorem traced_advance {c : Nat} {call : Call α ρ} {l : CallLabel ρ} {s' : Shared α} {pc : CallPC ρ}
    (hl : Label.call c l ∈ as) (hcall : Carries crc32 config as call.uid call.pc)
    (hstep : Advance crc32 config c s call l s' pc) :
    Traced crc32 config as s' ∧ Carries crc32 config as call.uid pc := by
  cases hstep with
  | sessionHit hpc hroute => exact h.resolved (h.sessions _ _ _ hroute)
  | sessionMiss hpc => exact ⟨h, carries_nothing rfl rfl⟩
  | storeHit hpc hstored =>
    obtain ⟨kept, hkept, rfl⟩ := RoutingKeys.get_eq_some hstored
    exact ⟨h, carries_addr (h.store _ kept hkept) rfl rfl⟩
  | storeMiss hpc => exact ⟨h, carries_nothing rfl rfl⟩
  | listed hpc =>
    refine ⟨h, ⟨fun addr haddr => (by cases haddr), fun instances he => ?_⟩⟩
    cases he
    exact ⟨c, hl⟩
  | updated hpc =>
    obtain ⟨c', hc'⟩ := hcall.held _ (by rw [hpc]; rfl)
    exact ⟨h.setRouter hc', carries_nothing rfl rfl⟩
  | @picked route hpc hroute =>
    obtain ⟨instances, hlisted, hrouter⟩ := h.routers call.gateway
    rw [hrouter] at hroute
    obtain ⟨hmem, hid⟩ := update_routeUID hroute
    rcases hlisted with rfl | ⟨c', hc'⟩
    · exact absurd hmem List.not_mem_nil
    · exact ⟨h, carries_addr ⟨c', call.gateway, instances, route, hc', hmem, hid, hroute, rfl⟩ rfl rfl⟩
  | @written route now redisNow ttl outcome pc hpc hnext =>
    have hroute := hcall.addr route.grpcAddr (by rw [hpc]; rfl)
    refine ⟨h.setStore fun x hx => Option.some.inj hx ▸ hroute, ?_⟩
    rcases hnext with rfl | ⟨err, rfl⟩
    · exact carries_addr hroute rfl rfl
    · exact carries_nothing rfl rfl
  | @sessionSet route hpc =>
    have hroute := hcall.addr route.grpcAddr (by rw [hpc]; rfl)
    exact (h.setSession fun server hs => Option.some.inj hs ▸ hroute).resolved hroute
  | @reused route dial client hpc hclient =>
    refine ⟨h, carries_addr (hcall.addr route.grpcAddr (by rw [hpc]; rfl)) ?_ rfl⟩
    rw [CallPC.addr?, h.clients _ _ _ hclient]
  | @dialed route hpc hclient =>
    exact ⟨⟨h.store, h.sessions, h.routers, clients_dialed h.clients _ _ _, h.sent⟩,
      carries_addr (hcall.addr route.grpcAddr (by rw [hpc]; rfl)) rfl rfl⟩
  | refused hpc => exact ⟨h, carries_nothing rfl rfl⟩
  | @dispatched client request answer hpc hkind =>
    refine ⟨⟨h.store, h.sessions, h.routers, h.clients, fun x hx => ?_⟩, ?_⟩
    · rcases List.mem_append.mp hx with hx | hx
      · exact h.sent x hx
      · rw [List.mem_singleton.mp hx]
        exact hcall.addr client.addr (by rw [hpc]; rfl)
    · cases answer <;> exact carries_nothing rfl rfl
  | sessionCleared hpc => exact ⟨h.setSession (fun server hs => by cases hs), carries_nothing rfl rfl⟩
  | @storeCleared cause outcome hpc =>
    refine ⟨?_, ?_⟩
    · split_ifs
      · exact h.setStore fun x hx => by cases hx
      · exact ⟨h.store, h.sessions, h.routers, h.clients, h.sent⟩
    · rcases cause with _ | err
      · cases outcome <;> exact carries_nothing rfl rfl
      · exact carries_nothing rfl rfl
  | failed hpc => exact ⟨h, carries_nothing rfl rfl⟩

end Shared

theorem traced_run {ls : List (Label α ρ)} {w : World α ρ}
    (h : run (step crc32 config) (init crc32 config) ls = some w) :
    Traced crc32 config ls w.shared ∧ ∀ call ∈ w.calls, Carries crc32 config ls call.uid call.pc := by
  apply run_history (P := fun as (w : World α ρ) =>
    Traced crc32 config as w.shared ∧ ∀ call ∈ w.calls, Carries crc32 config as call.uid call.pc) ?_ ?_ h
  · intro as u l v _ hu hl
    have hold : Traced crc32 config (as ++ [l]) u.shared ∧
        ∀ call ∈ u.calls, Carries crc32 config (as ++ [l]) call.uid call.pc :=
      ⟨hu.1.mono l, fun call hc => (hu.2 call hc).mono l⟩
    cases step_inv hl with
    | @begin g uid kind =>
      refine ⟨hold.1, fun call hc => ?_⟩
      rcases List.mem_append.mp hc with hc | hc
      · exact hold.2 call hc
      · rw [List.mem_singleton.mp hc]
        refine ⟨fun addr haddr => ?_, fun instances he => ?_⟩
        · cases kind <;> cases haddr
        · cases kind <;> cases he
    | @call c call l s pc hc hstep =>
      obtain ⟨hs, hpc⟩ := traced_advance hold.1 (List.mem_append_right _ List.mem_cons_self)
        (hold.2 call (List.mem_of_getElem? hc)) hstep
      refine ⟨hs, fun other hother => ?_⟩
      rcases List.mem_or_eq_of_mem_set hother with hother | rfl
      · exact hold.2 other hother
      · exact hpc
    | @closeClients g =>
      refine ⟨⟨hold.1.store, hold.1.sessions, hold.1.routers, fun j addr client hc => ?_, hold.1.sent⟩, hold.2⟩
      simp only [Function.update_apply] at hc
      split_ifs at hc
      exact hold.1.clients j addr client hc
  · refine ⟨⟨?_, ?_, fun g => ⟨[], Or.inl rfl, rfl⟩, ?_, fun _ hx => absurd hx List.not_mem_nil⟩,
      fun _ hc => absurd hc List.not_mem_nil⟩
    · intro _ _ hs
      cases hs
    · intro _ _ _ hs
      cases hs
    · intro _ _ _ hs
      cases hs

end Trace

section Once

variable {crc32 : String → Checksum} {config : Nat → Config}

def CallPC.past : CallPC ρ → Bool
  | .clearSession _ => true
  | .clearStore _ => true
  | .returned _ => true
  | _ => false

structure Accounted (w : World α ρ) : Prop where
  calls : ∀ x ∈ w.shared.sent, ∃ pc, pc.past = true ∧
    w.calls[x.call]? = some ⟨x.gateway, x.uid, .forward x.request, pc⟩
  once : (w.shared.sent.map (·.call)).Nodup
  answered : ∀ (c : Nat) (call : Call α ρ) (resp : ρ), w.calls[c]? = some call →
    call.pc = .returned (.ok (.response resp)) → ∃ x ∈ w.shared.sent, x.call = c

theorem past_advance {c : Nat} {s s' : Shared α} {call : Call α ρ} {l : CallLabel ρ} {pc : CallPC ρ}
    (h : Advance crc32 config c s call l s' pc) (hpast : call.pc.past = true) : pc.past = true := by
  cases h with
  | sessionCleared | storeCleared | failed => rfl
  | sessionHit hpc | sessionMiss hpc | storeHit hpc | storeMiss hpc | listed hpc | updated hpc | picked hpc
  | written hpc | sessionSet hpc | reused hpc | dialed hpc | refused hpc | dispatched hpc =>
    rw [hpc] at hpast
    cases hpast

theorem sent_advance {c : Nat} {s s' : Shared α} {call : Call α ρ} {l : CallLabel ρ} {pc : CallPC ρ}
    (h : Advance crc32 config c s call l s' pc) :
    (s'.sent = s.sent ∧ ∀ resp, pc ≠ .returned (.ok (.response resp))) ∨
      ∃ request client, call.pc.past = false ∧ call.kind = .forward request ∧ pc.past = true ∧
        s'.sent = s.sent ++ [⟨c, call.gateway, call.uid, request, client⟩] := by
  have hresolved (s : Shared α) (route : PlayerServerInstance) :
      (resolved s call route).1.sent = s.sent ∧ ∀ resp, (resolved s call route).2 ≠ .returned (.ok (.response resp)) := by
    unfold resolved
    split <;> exact ⟨rfl, fun _ hpc => by cases hpc⟩
  cases h with
  | sessionHit hpc hroute => exact Or.inl (hresolved s _)
  | sessionSet hpc => exact Or.inl (hresolved (s.setSession _ _ _) _)
  | @dispatched client request answer hpc hkind =>
    refine Or.inr ⟨request, client, by rw [hpc]; rfl, hkind, ?_, rfl⟩
    cases answer <;> rfl
  | @written route now redisNow ttl outcome pc hpc hnext =>
    refine Or.inl ⟨rfl, fun resp hresp => ?_⟩
    rcases hnext with rfl | ⟨err, rfl⟩ <;> cases hresp
  | @storeCleared cause outcome hpc =>
    refine Or.inl ⟨rfl, fun resp hresp => ?_⟩
    rcases cause with _ | err
    · cases outcome <;> cases hresp
    · cases hresp
  | sessionMiss | storeHit | storeMiss | listed | updated | picked | reused | dialed | refused | sessionCleared | failed =>
    exact Or.inl ⟨rfl, fun _ hpc => by cases hpc⟩

theorem accounted_begin {w : World α ρ} (hw : Accounted w) (g : Nat) (uid : Int) (kind : Kind α) :
    Accounted { w with calls := w.calls ++ [⟨g, uid, kind, kind.start⟩] } := by
  refine ⟨fun x hx => ?_, hw.once, fun c call resp hc hpc => ?_⟩
  · obtain ⟨pc, hpast, hc⟩ := hw.calls x hx
    exact ⟨pc, hpast, List.getElem?_append_left (List.getElem?_eq_some_iff.mp hc).1 ▸ hc⟩
  · rw [List.getElem?_append] at hc
    split_ifs at hc with hlt
    · exact hw.answered c call resp hc hpc
    · rw [List.getElem?_singleton] at hc
      split_ifs at hc
      cases hc
      cases kind <;> cases hpc

section Calls

variable {w : World α ρ} (hw : Accounted w) {c : Nat} {call : Call α ρ} (hc : w.calls[c]? = some call) {pc : CallPC ρ}
include hw hc

theorem Accounted.kept (hpast : call.pc.past = true → pc.past = true) :
    ∀ x ∈ w.shared.sent, ∃ pc', pc'.past = true ∧
      (w.calls.set c { call with pc })[x.call]? = some ⟨x.gateway, x.uid, .forward x.request, pc'⟩ := by
  intro x hx
  obtain ⟨pc', hpast', hx'⟩ := hw.calls x hx
  by_cases hsame : x.call = c
  · subst hsame
    rw [hc] at hx'
    cases hx'
    exact ⟨pc, hpast hpast', List.getElem?_set_self (List.getElem?_eq_some_iff.mp hc).1⟩
  · exact ⟨pc', hpast', by rw [List.getElem?_set_ne (Ne.symm hsame)]; exact hx'⟩

theorem Accounted.unsent {s : Shared α} (hpast : call.pc.past = true → pc.past = true)
    (hsent : s.sent = w.shared.sent) (hresp : ∀ resp, pc ≠ .returned (.ok (.response resp))) :
    Accounted ⟨s, w.calls.set c { call with pc }⟩ := by
  refine ⟨?_, ?_, fun c' call' resp hc' hpc' => ?_⟩
  · rw [hsent]
    exact hw.kept hc hpast
  · rw [hsent]
    exact hw.once
  · rw [hsent]
    by_cases hsame : c = c'
    · subst hsame
      rw [List.getElem?_set_self (List.getElem?_eq_some_iff.mp hc).1] at hc'
      cases hc'
      exact absurd hpc' (hresp resp)
    · rw [List.getElem?_set_ne hsame] at hc'
      exact hw.answered c' call' resp hc' hpc'

theorem Accounted.fresh (hnot : call.pc.past = false) : ∀ x ∈ w.shared.sent, x.call ≠ c := by
  rintro x hx rfl
  obtain ⟨pc', hpast', hx'⟩ := hw.calls x hx
  rw [hc] at hx'
  cases hx'
  rw [hnot] at hpast'
  cases hpast'

theorem Accounted.send {s : Shared α} {request : α} {client : Client} (hnot : call.pc.past = false)
    (hkind : call.kind = .forward request) (hpast : pc.past = true)
    (hsent : s.sent = w.shared.sent ++ [⟨c, call.gateway, call.uid, request, client⟩]) :
    Accounted ⟨s, w.calls.set c { call with pc }⟩ := by
  have hlt : c < w.calls.length := (List.getElem?_eq_some_iff.mp hc).1
  refine ⟨fun x hx => ?_, ?_, fun c' call' resp hc' hpc' => ?_⟩
  · rw [hsent] at hx
    rcases List.mem_append.mp hx with hx | hx
    · exact hw.kept hc (fun _ => hpast) x hx
    · rw [List.mem_singleton.mp hx]
      refine ⟨pc, hpast, ?_⟩
      rw [← hkind]
      exact List.getElem?_set_self hlt
  · rw [hsent, List.map_append, List.nodup_append]
    refine ⟨hw.once, List.nodup_singleton _, ?_⟩
    intro a ha b hb
    obtain ⟨x, hx, rfl⟩ := List.mem_map.mp ha
    rw [List.mem_singleton.mp hb]
    exact hw.fresh hc hnot x hx
  · rw [hsent]
    by_cases hsame : c = c'
    · exact ⟨_, List.mem_append_right _ List.mem_cons_self, hsame⟩
    · rw [List.getElem?_set_ne hsame] at hc'
      obtain ⟨x, hx, hcall⟩ := hw.answered c' call' resp hc' hpc'
      exact ⟨x, List.mem_append_left _ hx, hcall⟩

end Calls

theorem accounted_step {w w' : World α ρ} {l : Label α ρ} (hw : Accounted w)
    (h : step crc32 config w l = some w') : Accounted w' := by
  cases step_inv h with
  | begin => exact accounted_begin hw _ _ _
  | closeClients => exact ⟨hw.calls, hw.once, hw.answered⟩
  | @call c call l s pc hc hstep =>
    rcases sent_advance hstep with ⟨hsent, hresp⟩ | ⟨request, client, hnot, hkind, hpast, hsent⟩
    · exact hw.unsent hc (past_advance hstep) hsent hresp
    · exact hw.send hc hnot hkind hpast hsent

theorem forwards_routed (crc32 : String → Checksum) (config : Nat → Config) (ls : List (Label α ρ)) (w : World α ρ)
    (h : run (step crc32 config) (init crc32 config) ls = some w) :
    (∀ x ∈ w.shared.sent, Selected crc32 config ls x.uid x.client.addr ∧
        ∃ pc, w.calls[x.call]? = some ⟨x.gateway, x.uid, .forward x.request, pc⟩) ∧
      (w.shared.sent.map (·.call)).Nodup ∧
      ∀ (c : Nat) (call : Call α ρ) (resp : ρ), w.calls[c]? = some call →
        call.pc = .returned (.ok (.response resp)) → ∃ x ∈ w.shared.sent, x.call = c := by
  have htraced := traced_run h
  have hinit : Accounted (init crc32 config : World α ρ) :=
    ⟨fun _ hx => absurd hx List.not_mem_nil, List.nodup_nil, fun _ _ _ hc => by cases hc⟩
  have hw : Accounted w := run_invariant (fun _ _ _ => accounted_step) hinit h
  refine ⟨fun x hx => ⟨htraced.1.sent x hx, ?_⟩, hw.once, hw.answered⟩
  obtain ⟨pc, _, hcall⟩ := hw.calls x hx
  exact ⟨pc, hcall⟩

end Once

section FirstForward

def onlyServer : PlayerServerInstance := ⟨"p1", "p1:9000", "p1:9001", 100⟩

def coldForward (g c : Nat) (uid : Int) (request : Nat) (ready : List PlayerServerInstance) (now : Time) (resp : Nat) :
    List (Label Nat Nat) :=
  let calls : List (CallLabel Nat) :=
    (coldResolve now ready).map .resolve ++ [.clientFor none, .dispatch (.ok resp)]
  .begin g uid (.forward request) :: calls.map (.call c)

def firstForward : List (Label Nat Nat) := coldForward 0 0 7 3 [onlyServer] 0 4

theorem firstForward_runs : (run (step checksumIEEE oneNode) (init checksumIEEE oneNode) firstForward).isSome := by
  decide +kernel

def withOnlyServer : World Nat Nat :=
  (run (step checksumIEEE oneNode) (init checksumIEEE oneNode) firstForward).get firstForward_runs

theorem firstForward_routed :
    run (step checksumIEEE oneNode) (init checksumIEEE oneNode) firstForward = some withOnlyServer ∧
      withOnlyServer.shared.sent.map (·.client.addr) = ["p1:9000"] ∧
      ∀ x ∈ withOnlyServer.shared.sent, Selected checksumIEEE oneNode firstForward x.uid x.client.addr := by
  have hrun : run (step checksumIEEE oneNode) (init checksumIEEE oneNode) firstForward = some withOnlyServer :=
    (Option.some_get _).symm
  refine ⟨hrun, by decide +kernel, fun x hx => ?_⟩
  exact ((forwards_routed checksumIEEE oneNode firstForward _ hrun).1 x hx).1

end FirstForward

end GlobalMailSystem.Forwarding
