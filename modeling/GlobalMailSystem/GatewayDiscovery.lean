import GlobalMailSystem.DeadServer
import GlobalMailSystem.RegistryLeases

namespace GlobalMailSystem.Discovery

open Transition

variable {α ρ : Type}

structure World (α ρ : Type) where
  registry : Registry.World
  gateways : Forwarding.World α ρ

inductive Label (α ρ : Type)
  | registry (l : Registry.Label)
  | gateway (l : Forwarding.Label α ρ)

def Provided (keyPrefix : String) (kv : Registry.Store) : Forwarding.Label α ρ → Bool
  | .call _ (.resolve (.list (.ok instances))) => instances = Registry.listReadyPlayerServers keyPrefix kv
  | _ => true

section Step

variable (cfg : Registry.Config) (crc32 : String → Checksum) (config : Nat → Routing.Config)

def step (w : World α ρ) : Label α ρ → Option (World α ρ)
  | .registry l => (Registry.step cfg w.registry l).map fun registry => { w with registry }
  | .gateway l =>
    if Provided cfg.serviceKeyPrefix w.registry.kv l then
      (Forwarding.step crc32 config w.gateways l).map fun gateways => { w with gateways }
    else none

def init (clock : Time) : World α ρ := ⟨.init clock, Forwarding.init crc32 config⟩

end Step

def Orderly (w : World α ρ) : Label α ρ → Prop
  | .registry l => Registry.Orderly w.registry l
  | .gateway _ => True

instance (w : World α ρ) : (l : Label α ρ) → Decidable (Orderly w l)
  | .registry l => inferInstanceAs (Decidable (Registry.Orderly w.registry l))
  | .gateway _ => isTrue trivial

def Label.gateway? : Label α ρ → Option (Forwarding.Label α ρ)
  | .registry _ => none
  | .gateway l => some l

section Projection

variable {cfg : Registry.Config} {crc32 : String → Checksum} {config : Nat → Routing.Config} {w w' : World α ρ}
  {l : Label α ρ} {ls : List (Label α ρ)} {clock : Time}

inductive Moves (cfg : Registry.Config) (crc32 : String → Checksum) (config : Nat → Routing.Config) (w : World α ρ) :
    Label α ρ → World α ρ → Prop
  | registry {l : Registry.Label} {registry : Registry.World} (h : Registry.step cfg w.registry l = some registry) :
    Moves cfg crc32 config w (.registry l) { w with registry }
  | gateway {l : Forwarding.Label α ρ} {gateways : Forwarding.World α ρ}
      (hlist : Provided cfg.serviceKeyPrefix w.registry.kv l = true)
      (h : Forwarding.step crc32 config w.gateways l = some gateways) :
    Moves cfg crc32 config w (.gateway l) { w with gateways }

theorem step_moves (h : step cfg crc32 config w l = some w') : Moves cfg crc32 config w l w' := by
  cases l with
  | registry l =>
    obtain ⟨registry, hregistry, rfl⟩ := Option.map_eq_some_iff.mp h
    exact .registry hregistry
  | gateway l =>
    simp only [step] at h
    split_ifs at h with hlist
    obtain ⟨gateways, hgateways, rfl⟩ := Option.map_eq_some_iff.mp h
    exact .gateway hlist hgateways

theorem run_gateways (h : run (step cfg crc32 config) w ls = some w') :
    run (Forwarding.step crc32 config) w.gateways (ls.filterMap Label.gateway?) = some w'.gateways := by
  apply run_history (P := fun as u => run (Forwarding.step crc32 config) w.gateways (as.filterMap Label.gateway?) =
    some u.gateways) ?_ rfl h
  intro as u l v _ hu hl
  rw [List.filterMap_append]
  cases step_moves hl with
  | registry _ => simpa only [List.filterMap_cons, Label.gateway?, List.filterMap_nil, List.append_nil] using hu
  | gateway _ hgateway => exact run_snoc hu hgateway

theorem listing_run (hg : Guarded (step cfg crc32 config) Orderly (init crc32 config clock) ls)
    (h : run (step cfg crc32 config) (init crc32 config clock) ls = some w) : Registry.Listing cfg w.registry := by
  apply guarded_invariant (I := fun u : World α ρ => Registry.Listing cfg u.registry) ?_
    (Registry.listing_init cfg clock) hg h
  intro s l t hs hok hl
  cases step_moves hl with
  | registry hregistry => exact Registry.listing_step hs hok hregistry
  | gateway _ _ => exact hs

end Projection

def Leased (w : Registry.World) (p : Nat) (process : Registry.Process) : Prop :=
  w.processes[p]? = some process ∧
    ∃ (l : Nat) (lease : Registry.Lease), w.leases[l]? = some lease ∧ lease.owner = p ∧ lease.live = true

def asPlayerServer (process : Registry.Process) : PlayerServerInstance :=
  ⟨process.value.instanceID, process.value.grpcAddr, process.value.frpcAddr, process.value.weight⟩

theorem playersrv_plain : Registry.Plain "playersrv" := by decide +kernel

section Listed

variable {cfg : Registry.Config} {w : Registry.World}

theorem listed_leased (hw : Registry.Listing cfg w) {server : PlayerServerInstance}
    (h : server ∈ Registry.listReadyPlayerServers cfg.serviceKeyPrefix w.kv) :
    ∃ p process, Leased w p process ∧ process.value.serviceName = "playersrv" ∧ process.value.status = "ready" ∧
      server = asPlayerServer process := by
  obtain ⟨value, hvalue, rfl⟩ := List.mem_map.mp h
  obtain ⟨hservice, hready, entry, hentry, rfl⟩ := (hw.mem_listReady playersrv_plain).mp hvalue
  obtain ⟨p, process, l, lease, hp, rfl, hl, howner, hlive⟩ := hw.backed entry hentry
  exact ⟨p, process, ⟨hp, l, lease, hl, howner, hlive⟩, hservice, hready, rfl⟩

theorem registered_listed (hw : Registry.Listing cfg w) {p l : Nat} {process : Registry.Process}
    {lease : Registry.Lease} (hp : w.processes[p]? = some process) (hpc : process.pc = .registered l)
    (hl : w.leases[l]? = some lease) (hlive : lease.live = true) (hservice : process.value.serviceName = "playersrv")
    (hready : process.value.status = "ready") :
    asPlayerServer process ∈ Registry.listReadyPlayerServers cfg.serviceKeyPrefix w.kv := by
  apply List.mem_map.mpr
  refine ⟨process.value, (hw.mem_listReady playersrv_plain).mpr ⟨hservice, hready, ?_⟩, rfl⟩
  exact ⟨_, hw.present p process l lease hp hpc hl hlive, rfl⟩

theorem route_of_listed {crc32 : String → Checksum} (r : ConsistentHashRouter) {instances : List PlayerServerInstance}
    {server : PlayerServerInstance} (hmem : server ∈ instances) (hid : server.instanceID ≠ "") (uid : Int) :
    ∃ route ∈ instances, (r.update crc32 instances).routeUID crc32 uid = .ok route := by
  rcases ConsistentHashRouter.routeUID_update r instances uid with ⟨hempty, _⟩ | ⟨hash, route, _, howner, hok⟩
  · exact absurd (ConsistentHashRouter.places_eq_empty.mp hempty server hmem) hid
  · exact ⟨route, (ConsistentHashRouter.mem_hashes_of_owner howner).1, hok⟩

end Listed

theorem commands_reach_registered {cfg : Registry.Config} {crc32 : String → Checksum} {config : Nat → Routing.Config}
    {clock : Time} {ls : List (Label α ρ)} {w : World α ρ}
    (hg : Guarded (step cfg crc32 config) Orderly (init crc32 config clock) ls)
    (h : run (step cfg crc32 config) (init crc32 config clock) ls = some w) :
    (∀ x ∈ w.gateways.shared.sent, ∃ (as bs : List (Label α ρ)) (u : World α ρ) (g p : Nat) (process : Registry.Process),
      ls = as ++ bs ∧ run (step cfg crc32 config) (init crc32 config clock) as = some u ∧ Leased u.registry p process ∧
      process.value.serviceName = "playersrv" ∧ process.value.status = "ready" ∧ process.value.grpcAddr = x.client.addr ∧
      (ConsistentHashRouter.new crc32 (Registry.listReadyPlayerServers cfg.serviceKeyPrefix u.registry.kv)
        (config g).virtualNodes).routeUID crc32 x.uid = .ok (asPlayerServer process)) ∧
    ∀ (p l : Nat) (process : Registry.Process) (lease : Registry.Lease), w.registry.processes[p]? = some process →
      process.pc = .registered l → w.registry.leases[l]? = some lease → lease.live = true →
      process.value.serviceName = "playersrv" → process.value.status = "ready" → ∀ g uid, ∃ q other,
        Leased w.registry q other ∧ ((w.gateways.shared.gateways g).router.update crc32
          (Registry.listReadyPlayerServers cfg.serviceKeyPrefix w.registry.kv)).routeUID crc32 uid =
            .ok (asPlayerServer other) := by
  refine ⟨fun x hx => ?_, fun p l process lease hp hpc hl hlive hservice hready g uid => ?_⟩
  · obtain ⟨c, g, instances, server, hlisted, hmem, _, hroute, haddr⟩ :=
      (Forwarding.traced_run (run_gateways h)).1.sent x hx
    obtain ⟨l, hl, hlabel⟩ := List.mem_filterMap.mp hlisted
    obtain ⟨as, bs, rfl⟩ := List.append_of_mem hl
    obtain ⟨u, hu, hrest⟩ := run_append.mp h
    obtain ⟨v, hv, _⟩ := run_cons.mp hrest
    have hw := listing_run (guarded_append hg hu).1 hu
    -- the listing that the ring was built from is that of `u`
    cases step_moves hv with
    | registry _ => cases hlabel
    | gateway hprovided _ =>
      cases hlabel
      have hinstances := of_decide_eq_true hprovided
      subst hinstances
      obtain ⟨p, process, hleased, hservice, hready, rfl⟩ := listed_leased hw hmem
      exact ⟨as, _, u, g, p, process, rfl, hu, hleased, hservice, hready, haddr, hroute⟩
  · have hw := listing_run hg h
    have hmem := registered_listed hw hp hpc hl hlive hservice hready
    have hid : (asPlayerServer process).instanceID ≠ "" :=
      Registry.plain_ne_empty (hw.plain process (List.mem_of_getElem? hp)).2
    obtain ⟨route, hlisted, hroute⟩ := route_of_listed (w.gateways.shared.gateways g).router hmem hid uid
    obtain ⟨q, other, hleased, _, _, rfl⟩ := listed_leased hw hlisted
    exact ⟨q, other, hleased, hroute⟩

def discover (server : Registry.Instance) (now : Time) (p : Nat) : List (Label Nat Nat) :=
  (Registry.registration p server now).map .registry

def discovered : List (Label Nat Nat) :=
  discover Registry.playerServer 5 0 ++ (Forwarding.coldForward 0 0 7 3 [⟨"p1", "10.0.0.1:9000", "", 100⟩] 6 4).map .gateway

theorem discovered_runs : (run (step Registry.defaultConfig checksumIEEE Routing.oneNode)
    (init checksumIEEE Routing.oneNode 0) discovered).isSome := by
  decide +kernel

def discoveredWorld : World Nat Nat :=
  (run (step Registry.defaultConfig checksumIEEE Routing.oneNode) (init checksumIEEE Routing.oneNode 0) discovered).get
    discovered_runs

theorem discoveredWorld_reached : discoveredWorld.gateways.shared.sent.map (·.client.addr) = ["10.0.0.1:9000"] ∧
    ∀ x ∈ discoveredWorld.gateways.shared.sent, ∃ (u : World Nat Nat) (p : Nat) (process : Registry.Process),
      Leased u.registry p process ∧ process.value.grpcAddr = x.client.addr := by
  have hrun : run (step Registry.defaultConfig checksumIEEE Routing.oneNode) (init checksumIEEE Routing.oneNode 0)
      discovered = some discoveredWorld := (Option.some_get _).symm
  refine ⟨by decide +kernel, fun x hx => ?_⟩
  obtain ⟨_, _, u, _, p, process, _, _, hleased, _, _, haddr, _⟩ :=
    (commands_reach_registered (by decide +kernel) hrun).1 x hx
  exact ⟨u, p, process, hleased, haddr⟩

section Vacancy

structure Vacant (addr : String) (w : Registry.World) : Prop where
  entries : ∀ entry ∈ w.kv.rows, entry.value.grpcAddr ≠ addr
  processes : ∀ process ∈ w.processes, process.running = true → process.value.grpcAddr ≠ addr

def startsAt (addr : String) : Registry.Label → Bool
  | .start configured _ => configured.grpcAddr = addr
  | _ => false

/-- As in `Forwarding.Gone`, where a listing is what etcd holds and no process starts at the address. -/
def Left (uid : Int) (addr : String) (w : World α ρ) : Label α ρ → Prop
  | .registry l => Registry.Orderly w.registry l ∧ startsAt addr l = false
  | .gateway (.call _ (.resolve (.list _))) => True
  | .gateway l => Forwarding.Gone uid addr w.gateways l

instance Left.decidable (uid : Int) (addr : String) (w : World α ρ) : (l : Label α ρ) → Decidable (Left uid addr w l)
  | .registry l => inferInstanceAs (Decidable (Registry.Orderly w.registry l ∧ startsAt addr l = false))
  | .gateway (.begin g u kind) => inferInstanceAs (Decidable (Forwarding.Gone uid addr w.gateways (.begin g u kind)))
  | .gateway (.closeClients g) => inferInstanceAs (Decidable (Forwarding.Gone uid addr w.gateways (.closeClients g)))
  | .gateway (.call c l) =>
    match l with
    | .resolve (.list _) => isTrue trivial
    | .resolve .getSession => isTrue trivial
    | .resolve (.readStore ..) => isTrue trivial
    | .resolve .update => isTrue trivial
    | .resolve .pick => isTrue trivial
    | .resolve (.writeStore ..) => isTrue trivial
    | .resolve .setSession => isTrue trivial
    | .clientFor _ => isTrue trivial
    | .clearSession => isTrue trivial
    | .dispatch answer => inferInstanceAs (Decidable (Forwarding.Gone uid addr w.gateways (.call c (.dispatch answer))))
    | .clearStore outcome =>
      inferInstanceAs (Decidable (Forwarding.Gone uid addr w.gateways (.call c (.clearStore outcome))))

variable {cfg : Registry.Config} {addr : String} {w w' : Registry.World}

theorem Vacant.setPC {p : Nat} {process : Registry.Process} (hw : Vacant addr w) (hp : w.processes[p]? = some process)
    (hrun : process.running = true) (pc : Registry.ProcessPC) : Vacant addr (w.setPC p process pc) := by
  refine ⟨hw.entries, fun other hother _ => ?_⟩
  have hprocess := hw.processes process (List.mem_of_getElem? hp) hrun
  rcases List.mem_or_eq_of_mem_set hother with hother' | rfl
  · exact hw.processes other hother' ‹_›
  · exact hprocess

end Vacancy

def crash : List (Label Nat Nat) :=
  [.registry (.process 0 .crash), .registry (.tick (10 * second)), .registry (.revoke 0)]

theorem crash_runs : (run (step Registry.defaultConfig checksumIEEE Routing.oneNode)
    (init checksumIEEE Routing.oneNode 0) (discovered ++ crash)).isSome := by
  decide +kernel

def crashedWorld : World Nat Nat :=
  (run (step Registry.defaultConfig checksumIEEE Routing.oneNode) (init checksumIEEE Routing.oneNode 0)
    (discovered ++ crash)).get crash_runs

end GlobalMailSystem.Discovery
