import GlobalMailSystem.ConsistentHashRouter
import GlobalMailSystem.RoutingStore
import GlobalMailSystem.Transition

/-!
`RouteService.Resolve` on any number of gateways over one route store. A label is one call to the session cache, the
store, the provider or the router. The router has no lock: that `Update` and `RouteUID` each run without another call
of the gateway in between is a simplification.
-/

namespace GlobalMailSystem.Routing

open Transition

structure Config where
  routeTTL : Time
  virtualNodes : Int

def Config.effectiveTTL (config : Config) : Time :=
  if config.routeTTL ≤ 0 then minute else config.routeTTL

structure Gateway where
  session : Int → Option PlayerServerInstance
  router : ConsistentHashRouter

structure Shared where
  store : RoutingKeys SrvRouter
  gateways : Nat → Gateway

inductive ResolvePC
  | getSession
  | readStore
  | list
  | update (instances : List PlayerServerInstance)
  | pick
  | writeStore (route : PlayerServerInstance)
  | setSession (route : PlayerServerInstance)
  | returned (result : Except RouteError PlayerServerInstance)
  deriving DecidableEq

inductive ResolveLabel
  | getSession
  | readStore (redisNow now : Time) (outcome : Outcome)
  | list (ready : Except String (List PlayerServerInstance))
  | update
  | pick
  | writeStore (now redisNow : Time) (outcome : Outcome)
  | setSession

namespace Shared

def setRouter (s : Shared) (g : Nat) (router : ConsistentHashRouter) : Shared :=
  { s with gateways := Function.update s.gateways g { s.gateways g with router } }

def setSession (s : Shared) (g : Nat) (uid : Int) (route : Option PlayerServerInstance) : Shared :=
  let session := Function.update (s.gateways g).session uid route
  { s with gateways := Function.update s.gateways g { s.gateways g with session } }

section Fields

variable (s : Shared) (g j : Nat) (router : ConsistentHashRouter) (u uid : Int) (route : Option PlayerServerInstance)

theorem session_setRouter : ((s.setRouter g router).gateways j).session uid = (s.gateways j).session uid := by
  by_cases hj : j = g
  · subst hj
    simp [setRouter]
  · simp [setRouter, hj]

theorem router_setRouter : ((s.setRouter g router).gateways j).router = if j = g then router else (s.gateways j).router := by
  by_cases hj : j = g
  · subst hj
    simp [setRouter]
  · simp [setRouter, hj]

theorem session_setSession :
    ((s.setSession g u route).gateways j).session uid =
      if j = g ∧ uid = u then route else (s.gateways j).session uid := by
  by_cases hj : j = g
  · subst hj
    simp [setSession, Function.update_apply]
  · simp [setSession, hj]

theorem router_setSession : ((s.setSession g u route).gateways j).router = (s.gateways j).router := by
  by_cases hj : j = g
  · subst hj
    simp [setSession]
  · simp [setSession, hj]

end Fields

end Shared

def storedInstance (stored : SrvRouter) : PlayerServerInstance :=
  ⟨stored.instanceID, stored.grpcAddr, stored.frpcAddr, 100⟩

def srvRouter (uid : Int) (route : PlayerServerInstance) (expireAt : Time) : SrvRouter :=
  ⟨uid, "playersrv", route.instanceID, route.frpcAddr, route.grpcAddr, 1, expireAt⟩

def sessionResult : Option PlayerServerInstance → ResolvePC
  | some route => .returned (.ok route)
  | none => .readStore

def storeResult (stored : Option SrvRouter) (now : Time) : Outcome → ResolvePC
  | .ok =>
    match stored with
    | none => .list
    | some stored => if now < stored.expireAt then .setSession (storedInstance stored) else .list
  | .failed err => .returned (.error (.store err))
  | .lost err => .returned (.error (.store err))

def listResult : Except String (List PlayerServerInstance) → ResolvePC
  | .error err => .returned (.error (.provider err))
  | .ok instances => .update instances

def pickResult : Except RouteError PlayerServerInstance → ResolvePC
  | .error err => .returned (.error err)
  | .ok route => .writeStore route

def writeResult (s : Shared) (store : RoutingKeys SrvRouter) (route : PlayerServerInstance) :
    Outcome → Shared × ResolvePC
  | .ok => ({ s with store }, .setSession route)
  | .failed err => (s, .returned (.error (.store err)))
  | .lost err => ({ s with store }, .returned (.error (.store err)))

section Resolve

variable (crc32 : String → Checksum) (config : Nat → Config)

def resolve (s : Shared) (g : Nat) (uid : Int) : ResolvePC → ResolveLabel → Option (Shared × ResolvePC)
  | .getSession, .getSession => some (s, sessionResult ((s.gateways g).session uid))
  | .readStore, .readStore redisNow now outcome =>
    some (s, storeResult (getSrvRouter s.store uid redisNow) now outcome)
  | .list, .list ready => some (s, listResult ready)
  | .update instances, .update => some (s.setRouter g ((s.gateways g).router.update crc32 instances), .pick)
  | .pick, .pick => some (s, pickResult ((s.gateways g).router.routeUID crc32 uid))
  | .writeStore route, .writeStore now redisNow outcome =>
    let ttl := (config g).effectiveTTL
    some (writeResult s (setSrvRouter s.store (srvRouter uid route (now + ttl)) ttl redisNow) route outcome)
  | .setSession route, .setSession => some (s.setSession g uid (some route), .returned (.ok route))
  | _, _ => none

def ResolvePC.asking : ResolvePC → Bool
  | .readStore => true
  | .list => true
  | .pick => true
  | .writeStore _ => true
  | _ => false

inductive Resolves (s : Shared) (g : Nat) (uid : Int) : ResolvePC → ResolveLabel → Shared → ResolvePC → Prop
  | sessionHit {route : PlayerServerInstance} (hroute : (s.gateways g).session uid = some route) :
      Resolves s g uid .getSession .getSession s (.returned (.ok route))
  | sessionMiss : Resolves s g uid .getSession .getSession s .readStore
  | storeHit {redisNow now : Time} {stored : SrvRouter} (hstored : getSrvRouter s.store uid redisNow = some stored) :
      Resolves s g uid .readStore (.readStore redisNow now .ok) s (.setSession (storedInstance stored))
  | storeMiss {redisNow now : Time} : Resolves s g uid .readStore (.readStore redisNow now .ok) s .list
  | listed {instances : List PlayerServerInstance} :
      Resolves s g uid .list (.list (.ok instances)) s (.update instances)
  | updated {instances : List PlayerServerInstance} :
      Resolves s g uid (.update instances) .update
        (s.setRouter g ((s.gateways g).router.update crc32 instances)) .pick
  | picked {route : PlayerServerInstance} (hroute : (s.gateways g).router.routeUID crc32 uid = .ok route) :
      Resolves s g uid .pick .pick s (.writeStore route)
  | written {route : PlayerServerInstance} {now redisNow ttl : Time} {outcome : Outcome} {pc : ResolvePC}
      (hnext : pc = .setSession route ∨ ∃ err, pc = .returned (.error err)) :
      Resolves s g uid (.writeStore route) (.writeStore now redisNow outcome)
        { s with store := setSrvRouter s.store (srvRouter uid route (now + ttl)) ttl redisNow } pc
  | sessionSet {route : PlayerServerInstance} :
      Resolves s g uid (.setSession route) .setSession (s.setSession g uid (some route)) (.returned (.ok route))
  | failed {pc : ResolvePC} {l : ResolveLabel} {err : RouteError} (hpc : pc.asking = true) :
      Resolves s g uid pc l s (.returned (.error err))

end Resolve

section Inversion

variable {crc32 : String → Checksum} {config : Nat → Config} {s s' : Shared} {g : Nat} {uid : Int} {pc pc' : ResolvePC}
  {l : ResolveLabel}

theorem resolve_inv (h : resolve crc32 config s g uid pc l = some (s', pc')) : Resolves crc32 s g uid pc l s' pc' := by
  unfold resolve at h
  split at h
  · cases hroute : (s.gateways g).session uid with
    | some route =>
      simp only [hroute, sessionResult] at h
      cases h
      exact .sessionHit hroute
    | none =>
      simp only [hroute, sessionResult] at h
      cases h
      exact .sessionMiss
  · rename_i redisNow now outcome
    cases outcome with
    | failed err => cases h; exact .failed rfl
    | lost err => cases h; exact .failed rfl
    | ok =>
      cases hget : getSrvRouter s.store uid redisNow with
      | none =>
        simp only [hget, storeResult] at h
        cases h
        exact .storeMiss
      | some stored =>
        simp only [hget, storeResult] at h
        split_ifs at h
        · cases h
          exact .storeHit hget
        · cases h
          exact .storeMiss
  · rename_i ready
    cases ready with
    | error err => cases h; exact .failed rfl
    | ok instances => cases h; exact .listed
  · cases h
    exact .updated
  · cases hroute : (s.gateways g).router.routeUID crc32 uid with
    | error err =>
      simp only [hroute, pickResult] at h
      cases h
      exact .failed rfl
    | ok route =>
      simp only [hroute, pickResult] at h
      cases h
      exact .picked hroute
  · rename_i route now redisNow outcome
    cases outcome with
    | failed err => cases h; exact .failed rfl
    | ok => cases h; exact .written (Or.inl rfl)
    | lost err => cases h; exact .written (Or.inr ⟨_, rfl⟩)
  · cases h
    exact .sessionSet
  · cases h

end Inversion

structure Call where
  gateway : Nat
  uid : Int
  pc : ResolvePC
  deriving DecidableEq

/-- `picks` is the history of what the rings have selected. -/
structure World where
  shared : Shared
  calls : List Call
  picks : List (Int × String)

inductive Label
  | begin (gateway : Nat) (uid : Int)
  | call (c : Nat) (l : ResolveLabel)

def selection (uid : Int) : ResolvePC → ResolvePC → List (Int × String)
  | .pick, .writeStore route => [(uid, route.instanceID)]
  | _, _ => []

section Step

variable (crc32 : String → Checksum) (config : Nat → Config)

def step (w : World) : Label → Option World
  | .begin g uid => some { w with calls := w.calls ++ [⟨g, uid, .getSession⟩] }
  | .call c l =>
    match w.calls[c]? with
    | none => none
    | some call =>
      (resolve crc32 config w.shared call.gateway call.uid call.pc l).map fun next =>
        ⟨next.1, w.calls.set c { call with pc := next.2 }, w.picks ++ selection call.uid call.pc next.2⟩

def init : World := ⟨⟨fun _ => none, fun g => ⟨fun _ => none, .new crc32 [] (config g).virtualNodes⟩⟩, [], []⟩

/-- A `Resolve` that has missed the store asks a ring that selects another instance than one selected for the uid
before. -/
def selectsAnother (w : World) : Label → Bool
  | .call c .pick =>
    match w.calls[c]? with
    | some ⟨g, uid, .pick⟩ =>
      match (w.shared.gateways g).router.routeUID crc32 uid with
      | .ok route => w.picks.any fun pick => pick.1 = uid && pick.2 ≠ route.instanceID
      | .error _ => false
    | _ => false
  | _ => false

end Step

def ResolvePC.route? : ResolvePC → Option PlayerServerInstance
  | .writeStore route => some route
  | .setSession route => some route
  | .returned (.ok route) => some route
  | _ => none

structure Kept (picks : List (Int × String)) (s : Shared) : Prop where
  store : ∀ uid stored, s.store uid = some stored → (uid, stored.value.instanceID) ∈ picks
  sessions : ∀ g uid route, (s.gateways g).session uid = some route → (uid, route.instanceID) ∈ picks

structure Inv (w : World) : Prop where
  single : ∀ uid a b, (uid, a) ∈ w.picks → (uid, b) ∈ w.picks → a = b
  kept : Kept w.picks w.shared
  calls : ∀ call ∈ w.calls, ∀ route, call.pc.route? = some route → (call.uid, route.instanceID) ∈ w.picks

section Steps

variable {crc32 : String → Checksum} {config : Nat → Config} {w w' : World} {s s' : Shared} {g : Nat} {uid : Int}
  {picks : List (Int × String)}

theorem Kept.mono (h : Kept picks s) (more : List (Int × String)) : Kept (picks ++ more) s where
  store u stored hs := List.mem_append_left _ (h.store u stored hs)
  sessions j u route hs := List.mem_append_left _ (h.sessions j u route hs)

theorem Kept.setRouter (h : Kept picks s) (g : Nat) (router : ConsistentHashRouter) :
    Kept picks (s.setRouter g router) := by
  refine ⟨h.store, fun j uid route hs => ?_⟩
  rw [Shared.session_setRouter] at hs
  exact h.sessions j uid route hs

theorem Kept.setSession (h : Kept picks s) (g : Nat) {route : PlayerServerInstance}
    (hroute : (uid, route.instanceID) ∈ picks) : Kept picks (s.setSession g uid (some route)) := by
  refine ⟨h.store, fun j u r hs => ?_⟩
  rw [Shared.session_setSession] at hs
  split_ifs at hs with hown
  · rw [hown.2, ← Option.some.inj hs]
    exact hroute
  · exact h.sessions j u r hs

theorem Kept.setStore (h : Kept picks s) {route : PlayerServerInstance} (expireAt ttl redisNow : Time)
    (hroute : (uid, route.instanceID) ∈ picks) :
    Kept picks { s with store := setSrvRouter s.store (srvRouter uid route expireAt) ttl redisNow } := by
  refine ⟨fun u stored hs => ?_, h.sessions⟩
  simp only [setSrvRouter, RoutingKeys.set, srvRouter, Function.update_apply] at hs
  split_ifs at hs with hu
  · rw [hu, ← Option.some.inj hs]
    exact hroute
  · exact h.store u stored hs

theorem kept_resolves (h : Kept picks s) {pc pc' : ResolvePC} {l : ResolveLabel}
    (hpc : ∀ route, pc.route? = some route → (uid, route.instanceID) ∈ picks)
    (hstep : Resolves crc32 s g uid pc l s' pc') :
    Kept (picks ++ selection uid pc pc') s' ∧
      ∀ route, pc'.route? = some route → (uid, route.instanceID) ∈ picks ++ selection uid pc pc' := by
  cases hstep with
  | sessionHit hroute =>
    refine ⟨h.mono _, fun route hr => List.mem_append_left _ ?_⟩
    cases hr
    exact h.sessions g uid _ hroute
  | sessionMiss => exact ⟨h.mono _, fun route hr => by cases hr⟩
  | storeHit hstored =>
    obtain ⟨kept, hkept, rfl⟩ := RoutingKeys.get_eq_some hstored
    refine ⟨h.mono _, fun route hr => List.mem_append_left _ ?_⟩
    cases hr
    exact h.store uid kept hkept
  | storeMiss => exact ⟨h.mono _, fun route hr => by cases hr⟩
  | listed => exact ⟨h.mono _, fun route hr => by cases hr⟩
  | updated => exact ⟨(h.setRouter g _).mono _, fun route hr => by cases hr⟩
  | picked hroute =>
    refine ⟨h.mono _, fun route hr => List.mem_append_right _ ?_⟩
    cases hr
    exact List.mem_singleton.mpr rfl
  | @written route _ _ _ _ _ hnext =>
    have hpicked := hpc route rfl
    refine ⟨(h.setStore _ _ _ hpicked).mono _, fun r hr => List.mem_append_left _ ?_⟩
    rcases hnext with rfl | ⟨err, rfl⟩
    · cases hr
      exact hpicked
    · cases hr
  | @sessionSet route =>
    have hpicked := hpc route rfl
    refine ⟨(h.setSession g hpicked).mono _, fun r hr => List.mem_append_left _ ?_⟩
    cases hr
    exact hpicked
  | failed => exact ⟨h.mono _, fun route hr => by cases hr⟩

theorem selection_agrees {c : Nat} {call : Call} {l : ResolveLabel} {pc : ResolvePC} (hc : w.calls[c]? = some call)
    (hok : selectsAnother crc32 w (.call c l) = false)
    (hstep : Resolves crc32 w.shared call.gateway call.uid call.pc l s' pc) :
    ∀ pick ∈ selection call.uid call.pc pc, ∀ a, (pick.1, a) ∈ w.picks → a = pick.2 := by
  obtain ⟨g, uid, old⟩ := call
  intro pick hpick a ha
  cases hstep with
  | @picked route hroute =>
    obtain rfl := List.mem_singleton.mp hpick
    simp only [selectsAnother, hc] at hok
    rw [hroute] at hok
    simpa using List.any_eq_false.mp hok (uid, a) ha
  | failed hasking =>
    cases old <;> cases hpick
  | sessionHit | sessionMiss | storeHit | storeMiss | listed | updated | written | sessionSet => cases hpick

theorem single_append {new : List (Int × String)} (hlength : new.length ≤ 1)
    (hsingle : ∀ uid a b, (uid, a) ∈ picks → (uid, b) ∈ picks → a = b)
    (hnew : ∀ pick ∈ new, ∀ a, (pick.1, a) ∈ picks → a = pick.2) :
    ∀ uid a b, (uid, a) ∈ picks ++ new → (uid, b) ∈ picks ++ new → a = b := by
  intro uid a b ha hb
  rcases List.mem_append.mp ha with ha | ha <;> rcases List.mem_append.mp hb with hb | hb
  · exact hsingle uid a b ha hb
  · exact hnew _ hb a ha
  · exact (hnew _ ha b hb).symm
  · match new, hlength with
    | [pick], _ =>
      have hab := (List.mem_singleton.mp ha).trans (List.mem_singleton.mp hb).symm
      exact congrArg Prod.snd hab

theorem length_selection (uid : Int) (pc pc' : ResolvePC) : (selection uid pc pc').length ≤ 1 := by
  unfold selection
  split
  · exact le_rfl
  · exact Nat.zero_le 1

theorem inv_step {l : Label} (hw : Inv w) (hok : selectsAnother crc32 w l = false)
    (h : step crc32 config w l = some w') : Inv w' := by
  cases l with
  | begin g uid =>
    cases h
    refine ⟨hw.single, hw.kept, fun call hcall => ?_⟩
    rcases List.mem_append.mp hcall with hcall | hcall
    · exact hw.calls call hcall
    · rw [List.mem_singleton.mp hcall]
      exact fun route hr => by cases hr
  | call c l =>
    simp only [step] at h
    split at h
    · cases h
    · rename_i call hc
      obtain ⟨⟨s, pc⟩, hresolve, rfl⟩ := Option.map_eq_some_iff.mp h
      have hstep := resolve_inv hresolve
      obtain ⟨hkept, hroute⟩ := kept_resolves hw.kept (hw.calls call (List.mem_of_getElem? hc)) hstep
      refine ⟨single_append (length_selection _ _ _) hw.single (selection_agrees hc hok hstep), hkept,
        fun other hother => ?_⟩
      rcases List.mem_or_eq_of_mem_set hother with hother | rfl
      · exact fun route hr => List.mem_append_left _ (hw.calls other hother route hr)
      · exact hroute

theorem inv_init : Inv (init crc32 config) where
  single uid a b ha := absurd ha List.not_mem_nil
  kept := ⟨fun uid stored h => (by cases h), fun g uid route h => (by cases h)⟩
  calls call h := absurd h List.not_mem_nil

end Steps

theorem resolves_agree (crc32 : String → Checksum) (config : Nat → Config) (ls : List Label) (w : World)
    (hg : Guarded (step crc32 config) (fun w l => selectsAnother crc32 w l = false) (init crc32 config) ls)
    (h : run (step crc32 config) (init crc32 config) ls = some w) :
    ∀ call ∈ w.calls, ∀ call' ∈ w.calls, call.uid = call'.uid → ∀ route route',
      call.pc = .returned (.ok route) → call'.pc = .returned (.ok route') →
        route.instanceID = route'.instanceID := by
  have hw : Inv w := guarded_invariant (fun _ _ _ hs hok hl => inv_step hs hok hl) inv_init hg h
  intro call hcall call' hcall' huid route route' hpc hpc'
  have hpicked := hw.calls call hcall route (by rw [hpc]; rfl)
  have hpicked' := hw.calls call' hcall' route' (by rw [hpc']; rfl)
  rw [huid] at hpicked
  exact hw.single _ _ _ hpicked hpicked'

def playerServerA : PlayerServerInstance := ⟨"playersrv-a", "10.0.0.1:9000", "10.0.0.1:9001", 100⟩

def playerServerB : PlayerServerInstance := ⟨"playersrv-b", "10.0.0.2:9000", "10.0.0.2:9001", 100⟩

def oneNode : Nat → Config := fun _ => ⟨minute, 1⟩

def coldResolve (t : Time) (servers : List PlayerServerInstance) : List ResolveLabel :=
  [.getSession, .readStore t t .ok, .list (.ok servers), .update, .pick, .writeStore t t .ok, .setSession]

def expired : List Label :=
  .begin 0 7 :: (coldResolve 0 [playerServerA]).map (.call 0) ++
    .begin 1 7 :: ([.getSession, .readStore 0 0 .ok, .setSession] : List ResolveLabel).map (.call 1) ++
    .begin 2 7 :: (coldResolve minute [playerServerA]).map (.call 2)

def afterExpired : World :=
  (run (step checksumIEEE oneNode) (init checksumIEEE oneNode) expired).get (by decide +kernel)

theorem expired_resolves_agree :
    afterExpired.calls.map (fun call => call.pc.route?.map (·.instanceID)) =
        [some "playersrv-a", some "playersrv-a", some "playersrv-a"] ∧
      ∀ call ∈ afterExpired.calls, ∀ call' ∈ afterExpired.calls, call.uid = call'.uid →
        ∀ route route', call.pc = .returned (.ok route) → call'.pc = .returned (.ok route') →
          route.instanceID = route'.instanceID :=
  ⟨by decide +kernel,
    resolves_agree checksumIEEE oneNode expired afterExpired (by decide +kernel) (Option.some_get _).symm⟩

def raced : List Label :=
  [.begin 0 7, .begin 1 7, .call 0 .getSession, .call 1 .getSession, .call 0 (.readStore 0 0 .ok),
    .call 1 (.readStore 0 0 .ok), .call 0 (.list (.ok [playerServerA])), .call 1 (.list (.ok [playerServerB])),
    .call 0 .update, .call 1 .update, .call 0 .pick, .call 1 .pick, .call 0 (.writeStore 0 0 .ok),
    .call 1 (.writeStore 0 0 .ok), .call 0 .setSession, .call 1 .setSession]

def afterRaced : World :=
  (run (step checksumIEEE oneNode) (init checksumIEEE oneNode) raced).get (by decide +kernel)

theorem raced_resolves_differ :
    run (step checksumIEEE oneNode) (init checksumIEEE oneNode) raced = some afterRaced ∧
      afterRaced.calls[0]? = some ⟨0, 7, .returned (.ok playerServerA)⟩ ∧
      afterRaced.calls[1]? = some ⟨1, 7, .returned (.ok playerServerB)⟩ ∧
      playerServerA.instanceID ≠ playerServerB.instanceID :=
  ⟨(Option.some_get _).symm, by decide +kernel, by decide +kernel, by decide⟩

end GlobalMailSystem.Routing
