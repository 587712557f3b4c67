import GlobalMailSystem.HashRing
import Mathlib.Data.List.Induction
import Mathlib.Logic.Function.Basic

/-!
`ConsistentHashRouter` of the gateway. The checksum is a parameter of the router: nothing depends on
how CRC-32 spreads the keys, or on which of them collide.
-/

namespace GlobalMailSystem

open HashRing

abbrev Checksum := Fin 4294967296

def crcBit (crc : Nat) : Nat := if crc % 2 = 1 then (crc >>> 1) ^^^ 0xEDB88320 else crc >>> 1

def checksumIEEE (text : String) : Checksum :=
  let crc := text.toUTF8.toList.foldl (fun crc byte => crcBit^[8] (crc ^^^ byte.toNat)) 0xFFFFFFFF
  Fin.ofNat 4294967296 (crc ^^^ 0xFFFFFFFF)

example : checksumIEEE "123456789" = 0xCBF43926 := by decide +kernel

structure PlayerServerInstance where
  instanceID : String
  grpcAddr : String
  frpcAddr : String
  weight : Int
  deriving DecidableEq

structure ConsistentHashRouter where
  virtualNodes : Int
  ring : List Checksum
  nodes : Checksum → Option PlayerServerInstance

inductive RouteError
  | noPlayerServer
  | store (err : String)
  | provider (err : String)
  deriving DecidableEq

def RouteError.message : RouteError → String
  | .noPlayerServer => "no available playersrv instance"
  | .store err => err
  | .provider err => err

namespace ConsistentHashRouter

variable (crc32 : String → Checksum)

def replicas (virtualNodes : Int) (server : PlayerServerInstance) : Nat :=
  let weight := if server.weight ≤ 0 then 100 else server.weight
  -- the product wraps as an `int` of 64 bits does, the division truncates
  let replicas := ((virtualNodes * weight).bmod 18446744073709551616).tdiv 100
  if replicas ≤ 0 then 1 else replicas.toNat

def addNode (server : PlayerServerInstance) (r : ConsistentHashRouter) (i : Nat) : ConsistentHashRouter :=
  let hash := crc32 (server.instanceID ++ "#" ++ toString i)
  { r with ring := r.ring ++ [hash], nodes := Function.update r.nodes hash (some server) }

def addInstance (r : ConsistentHashRouter) (server : PlayerServerInstance) : ConsistentHashRouter :=
  if server.instanceID = "" then r
  else (List.range (replicas r.virtualNodes server)).foldl (addNode crc32 server) r

def update (r : ConsistentHashRouter) (instances : List PlayerServerInstance) : ConsistentHashRouter :=
  let next := instances.foldl (addInstance crc32) { r with ring := [], nodes := fun _ => none }
  { next with ring := next.ring.insertionSort (· ≤ ·) }

def new (instances : List PlayerServerInstance) (virtualNodes : Int) : ConsistentHashRouter :=
  update crc32 ⟨if virtualNodes ≤ 0 then 100 else virtualNodes, [], fun _ => none⟩ instances

/-- A key the map does not hold reads as the zero instance. -/
def routeUID (r : ConsistentHashRouter) (uid : Int) : Except RouteError PlayerServerInstance :=
  if r.ring.length = 0 then .error .noPlayerServer
  else
    let idx := clockwise r.ring 0 (crc32 (toString uid))
    .ok ((r.nodes (r.ring.getD idx 0)).getD ⟨"", "", "", 0⟩)

def hashes (virtualNodes : Int) (server : PlayerServerInstance) : List Checksum :=
  if server.instanceID = "" then []
  else (List.range (replicas virtualNodes server)).map fun i =>
    crc32 (server.instanceID ++ "#" ++ toString i)

section Update

variable {crc32}

theorem foldl_addNode (server : PlayerServerInstance) (is : List Nat) (r : ConsistentHashRouter) :
    is.foldl (addNode crc32 server) r =
      { r with
        ring := r.ring ++ is.map fun i => crc32 (server.instanceID ++ "#" ++ toString i)
        nodes := fun hash =>
          if hash ∈ is.map fun i => crc32 (server.instanceID ++ "#" ++ toString i) then some server
          else r.nodes hash } := by
  induction is generalizing r with
  | nil => simp
  | cons i is ih =>
    rw [List.foldl_cons, ih]
    simp only [addNode, List.append_assoc, List.singleton_append, List.map_cons, mk.injEq, true_and]
    funext hash
    by_cases hrest : hash ∈ is.map fun i => crc32 (server.instanceID ++ "#" ++ toString i)
    · rw [if_pos hrest, if_pos (List.mem_cons_of_mem _ hrest)]
    · rw [if_neg hrest, Function.update_apply]
      simp only [List.mem_cons, hrest, or_false]

theorem addInstance_eq (r : ConsistentHashRouter) (server : PlayerServerInstance) :
    addInstance crc32 r server =
      { r with
        ring := r.ring ++ hashes crc32 r.virtualNodes server
        nodes := fun hash =>
          if hash ∈ hashes crc32 r.virtualNodes server then some server else r.nodes hash } := by
  unfold addInstance hashes
  split_ifs with hid
  · simp
  · exact foldl_addNode server _ r

def owner (crc32 : String → Checksum) (virtualNodes : Int) (instances : List PlayerServerInstance)
    (hash : Checksum) : Option PlayerServerInstance :=
  instances.reverse.find? fun server => hash ∈ hashes crc32 virtualNodes server

theorem foldl_addInstance (instances : List PlayerServerInstance) (virtualNodes : Int) :
    instances.foldl (addInstance crc32) ⟨virtualNodes, [], fun _ => none⟩ =
      ⟨virtualNodes, instances.flatMap (hashes crc32 virtualNodes), owner crc32 virtualNodes instances⟩ := by
  induction instances using List.reverseRecOn with
  | nil => rfl
  | append_singleton instances server ih =>
    rw [List.foldl_append, ih, List.foldl_cons, List.foldl_nil, addInstance_eq]
    simp only [List.flatMap_append, List.flatMap_singleton, mk.injEq, true_and]
    funext hash
    simp only [owner, List.reverse_append, List.reverse_singleton, List.singleton_append,
      List.find?_cons]
    by_cases hmem : hash ∈ hashes crc32 virtualNodes server
    · simp [hmem]
    · simp [hmem]

def places (crc32 : String → Checksum) (virtualNodes : Int) (instances : List PlayerServerInstance) :
    Set Checksum :=
  {hash | ∃ server ∈ instances, hash ∈ hashes crc32 virtualNodes server}

variable (r : ConsistentHashRouter) (instances : List PlayerServerInstance)

theorem mem_update_ring (hash : Checksum) :
    hash ∈ (update crc32 r instances).ring ↔ hash ∈ places crc32 r.virtualNodes instances := by
  simp [update, foldl_addInstance, places]

theorem update_ring_sorted : (update crc32 r instances).ring.Pairwise (· ≤ ·) :=
  List.pairwise_insertionSort _ _

theorem update_nodes : (update crc32 r instances).nodes = owner crc32 r.virtualNodes instances := by
  simp [update, foldl_addInstance]

theorem owner_isSome {virtualNodes : Int} {hash : Checksum}
    (h : hash ∈ places crc32 virtualNodes instances) :
    ∃ server ∈ instances, owner crc32 virtualNodes instances hash = some server := by
  obtain ⟨server, hs, hmem⟩ := h
  cases hown : owner crc32 virtualNodes instances hash with
  | none =>
    have hnot := List.find?_eq_none.mp hown server (List.mem_reverse.mpr hs)
    simp [hmem] at hnot
  | some found => exact ⟨found, List.mem_reverse.mp (List.mem_of_find?_eq_some hown), rfl⟩

theorem routeUID_update (uid : Int) :
    (places crc32 r.virtualNodes instances = ∅ ∧
      routeUID crc32 (update crc32 r instances) uid = .error .noPlayerServer) ∨
    ∃ hash server, IsSuccessor (places crc32 r.virtualNodes instances) (crc32 (toString uid)) hash ∧
      owner crc32 r.virtualNodes instances hash = some server ∧
      routeUID crc32 (update crc32 r instances) uid = .ok server := by
  have hplaces : {y | y ∈ (update crc32 r instances).ring} = places crc32 r.virtualNodes instances :=
    Set.ext (mem_update_ring r instances)
  by_cases hring : (update crc32 r instances).ring = []
  · refine Or.inl ⟨?_, by simp [routeUID, hring]⟩
    rw [← hplaces, hring]
    simp
  · have hsucc := clockwise_isSuccessor (update_ring_sorted r instances) hring 0 (crc32 (toString uid))
    rw [hplaces] at hsucc
    obtain ⟨server, -, hown⟩ := owner_isSome instances hsucc.1
    refine Or.inr ⟨_, server, hsucc, hown, ?_⟩
    rw [routeUID, if_neg (by simpa using hring), update_nodes]
    simp only [hown, Option.getD_some]

end Update

section Successor

variable {crc32} {virtualNodes : Int} {instances : List PlayerServerInstance}

theorem mem_hashes_of_owner {hash : Checksum} {server : PlayerServerInstance}
    (h : owner crc32 virtualNodes instances hash = some server) :
    server ∈ instances ∧ hash ∈ hashes crc32 virtualNodes server :=
  ⟨List.mem_reverse.mp (List.mem_of_find?_eq_some h), by simpa using List.find?_some h⟩

theorem replicas_pos (virtualNodes : Int) (server : PlayerServerInstance) : 0 < replicas virtualNodes server := by
  simp only [replicas]
  split_ifs <;> omega

theorem instanceID_of_mem_hashes {server : PlayerServerInstance} {hash : Checksum}
    (h : hash ∈ hashes crc32 virtualNodes server) : server.instanceID ≠ "" := by
  intro hid
  simp [hashes, hid] at h

theorem places_eq_empty :
    places crc32 virtualNodes instances = ∅ ↔ ∀ server ∈ instances, server.instanceID = "" := by
  constructor
  · intro hempty server hserver
    by_contra hid
    have hplace : crc32 (server.instanceID ++ "#" ++ toString 0) ∈ places crc32 virtualNodes instances := by
      refine ⟨server, hserver, ?_⟩
      rw [hashes, if_neg hid]
      exact List.mem_map.mpr ⟨0, List.mem_range.mpr (replicas_pos virtualNodes server), rfl⟩
    rw [hempty] at hplace
    exact Set.notMem_empty _ hplace
  · intro hall
    apply Set.eq_empty_of_forall_notMem
    rintro hash ⟨server, hserver, hmem⟩
    exact instanceID_of_mem_hashes hmem (hall server hserver)

theorem update_virtualNodes (r : ConsistentHashRouter) (instances : List PlayerServerInstance) :
    (update crc32 r instances).virtualNodes = r.virtualNodes := by
  simp [update, foldl_addInstance]

theorem foldl_update (first : List PlayerServerInstance) (updates : List (List PlayerServerInstance))
    (virtualNodes : Int) :
    ∃ r, updates.foldl (update crc32) (new crc32 first virtualNodes) = update crc32 r (updates.getLastD first) := by
  -- only the last list matters: every `Update` starts from an empty ring
  rcases List.eq_nil_or_concat' updates with rfl | ⟨before, last, rfl⟩
  · exact ⟨_, rfl⟩
  · rw [List.foldl_append, List.getLastD_concat]
    exact ⟨_, rfl⟩

end Successor

theorem routeUID_successor (virtualNodes : Int) (first : List PlayerServerInstance)
    (updates : List (List PlayerServerInstance)) (uid : Int) :
    let last := updates.getLastD first
    let r := updates.foldl (update crc32) (new crc32 first virtualNodes)
    ((∃ err, routeUID crc32 r uid = .error err) ↔ ∀ server ∈ last, server.instanceID = "") ∧
    ∀ server, routeUID crc32 r uid = .ok server →
      server ∈ last ∧ server.instanceID ≠ "" ∧ ∃ hash ∈ hashes crc32 r.virtualNodes server,
        (crc32 (toString uid) ≤ hash ∧
          ∀ place ∈ places crc32 r.virtualNodes last, crc32 (toString uid) ≤ place → hash ≤ place) ∨
        ((∀ place ∈ places crc32 r.virtualNodes last, place < crc32 (toString uid)) ∧
          ∀ place ∈ places crc32 r.virtualNodes last, hash ≤ place) := by
  intro last r
  obtain ⟨r₀, hr⟩ : ∃ r₀, r = update crc32 r₀ last := foldl_update first updates virtualNodes
  rw [hr, update_virtualNodes]
  rcases routeUID_update r₀ last uid with ⟨hempty, herr⟩ | ⟨hash, server, hsucc, hown, hok⟩
  · rw [herr]
    refine ⟨iff_of_true ⟨_, rfl⟩ (places_eq_empty.mp hempty), ?_⟩
    intro server hserver
    cases hserver
  · rw [hok]
    obtain ⟨hmem, hhash⟩ := mem_hashes_of_owner hown
    have hid := instanceID_of_mem_hashes hhash
    refine ⟨iff_of_false ?_ fun hall => hid (hall server hmem), ?_⟩
    · rintro ⟨err, herr⟩
      cases herr
    · intro found hfound
      rw [← Except.ok.inj hfound]
      exact ⟨hmem, hid, hash, hhash, hsucc.least⟩

section Insertion

variable {crc32} {virtualNodes : Int} {before after : List PlayerServerInstance}
  {n : PlayerServerInstance} {hash : Checksum}

theorem places_insert :
    hash ∈ places crc32 virtualNodes (before ++ n :: after) ↔
      hash ∈ places crc32 virtualNodes (before ++ after) ∨ hash ∈ hashes crc32 virtualNodes n := by
  simp only [places, List.mem_append, List.mem_cons, Set.mem_ofPred_eq]
  grind

theorem owner_insert :
    owner crc32 virtualNodes (before ++ n :: after) hash = owner crc32 virtualNodes (before ++ after) hash ∨
      owner crc32 virtualNodes (before ++ n :: after) hash = some n := by
  simp only [owner, List.reverse_append, List.reverse_cons, List.append_assoc, List.find?_append]
  cases after.reverse.find? fun server => hash ∈ hashes crc32 virtualNodes server with
  | some server => exact Or.inl rfl
  | none =>
    by_cases hmem : hash ∈ hashes crc32 virtualNodes n
    · exact Or.inr (by simp [hmem])
    · exact Or.inl (by simp [hmem])

theorem mem_places_of_owner {instances : List PlayerServerInstance} {server : PlayerServerInstance}
    (h : owner crc32 virtualNodes instances hash = some server) :
    hash ∈ places crc32 virtualNodes instances :=
  ⟨server, mem_hashes_of_owner h⟩

end Insertion

theorem routeUID_insert (r : ConsistentHashRouter) (before after : List PlayerServerInstance)
    (n : PlayerServerInstance) (uid : Int) :
    routeUID crc32 (update crc32 r (before ++ n :: after)) uid =
        routeUID crc32 (update crc32 r (before ++ after)) uid ∨
      routeUID crc32 (update crc32 r (before ++ n :: after)) uid = .ok n := by
  have hsub : ∀ hash ∈ places crc32 r.virtualNodes (before ++ after),
      hash ∈ places crc32 r.virtualNodes (before ++ n :: after) :=
    fun hash h => places_insert.mpr (Or.inl h)
  rcases routeUID_update r (before ++ n :: after) uid with ⟨hnone, herr⟩ | ⟨hash, server, hsucc, hown, hok⟩
  · rcases routeUID_update r (before ++ after) uid with ⟨-, herr'⟩ | ⟨hash, _, hsucc, -, -⟩
    · exact Or.inl (herr.trans herr'.symm)
    · have hmem := hsub hash hsucc.1
      rw [hnone] at hmem
      exact absurd hmem (Set.notMem_empty hash)
  · rcases @owner_insert crc32 r.virtualNodes before after n hash with hsame | hnew
    · -- the place was on the ring before, so it was already the one after the checksum
      rw [hown] at hsame
      have hold := hsucc.of_subset hsub (mem_places_of_owner hsame.symm)
      rcases routeUID_update r (before ++ after) uid with ⟨hnone, -⟩ | ⟨hash', server', hsucc', hown', hok'⟩
      · rw [hnone] at hold
        exact absurd hold.1 (Set.notMem_empty hash)
      · rw [← hold.unique hsucc', ← hsame] at hown'
        rw [hok, hok', Option.some.inj hown']
        exact Or.inl rfl
    · rw [hok, ← Option.some.inj (hown.symm.trans hnew)]
      exact Or.inr rfl

end ConsistentHashRouter

end GlobalMailSystem
