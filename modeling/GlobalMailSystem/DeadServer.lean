import GlobalMailSystem.CommandForwarder

namespace GlobalMailSystem.Forwarding

open Transition Routing

variable {α ρ : Type}

def CallPC.active : CallPC ρ → Bool
  | .returned _ => false
  | _ => true

section Dead

variable (crc32 : String → Checksum) (uid : Int) (dead : String)

def StoreDead (s : Shared α) : Prop := ∃ stored, s.store uid = some stored ∧ stored.value.grpcAddr = dead

def SessionDead (s : Shared α) (g : Nat) : Prop :=
  ∃ route, (s.gateways g).session uid = some route ∧ route.grpcAddr = dead

def Clean (s : Shared α) (g : Nat) : Prop := ¬ StoreDead uid dead s ∧ ¬ SessionDead uid dead s g

def CallPC.lists : CallPC ρ → Bool
  | .resolving (.update instances) => instances.any fun server => server.grpcAddr = dead
  | _ => false

def faces (s : Shared α) (g : Nat) : CallPC ρ → Bool
  | .resolving .pick =>
    match (s.gateways g).router.routeUID crc32 uid with
    | .ok route => route.grpcAddr = dead
    | .error _ => false
  | .resolving (.writeStore route) => route.grpcAddr = dead
  | _ => false

def Fits (s : Shared α) : CallPC ρ → Prop
  | .resolving (.update instances) => ∀ server ∈ instances, server.grpcAddr ≠ dead
  | .resolving (.setSession route) => route.grpcAddr = dead → StoreDead uid dead s
  | _ => True

def Leaving (s : Shared α) (g : Nat) : CallPC ρ → Prop
  | .clientFor route => route.grpcAddr = dead
  | .dispatch client => client.addr = dead
  | .clearSession _ => True
  | .clearStore _ => ¬ SessionDead uid dead s g
  | _ => False

def tries (s : Shared α) (g : Nat) : Nat :=
  s.routed.countP fun r => r.gateway = g ∧ r.uid = uid ∧ r.route.grpcAddr = dead

def held (w : World α ρ) : Nat := w.calls.countP fun call => call.pc.lists dead

def facing (w : World α ρ) : Bool :=
  w.calls.any fun call => call.uid = uid && faces crc32 uid dead w.shared call.gateway call.pc

/-- How often a ring can still lead the player to the dead server. -/
def threats (w : World α ρ) : Nat := held dead w + (facing crc32 uid dead w).toNat

def dispatching (w : World α ρ) (c : Nat) : Option Client :=
  match w.calls[c]? with
  | some ⟨_, _, _, .dispatch client⟩ => some client
  | _ => none

/-- The player has one call at a time, the server stays dead and unlisted, and routes can be deleted. -/
def Gone (w : World α ρ) : Label α ρ → Prop
  | .begin _ u _ => u = uid → ∀ call ∈ w.calls, call.uid = uid → call.pc.active = false
  | .call _ (.resolve (.list (.ok instances))) => ∀ server ∈ instances, server.grpcAddr ≠ dead
  | .call c (.dispatch (.ok _)) => ∀ client ∈ dispatching w c, client.addr ≠ dead
  | .call _ (.clearStore outcome) => outcome.executed = true
  | _ => True

instance Gone.decidable (w : World α ρ) : ∀ l : Label α ρ, Decidable (Gone uid dead w l)
  | .begin _ u _ =>
    inferInstanceAs (Decidable (u = uid → ∀ call ∈ w.calls, call.uid = uid → call.pc.active = false))
  | .call _ (.resolve (.list (.ok instances))) =>
    inferInstanceAs (Decidable (∀ server ∈ instances, server.grpcAddr ≠ dead))
  | .call c (.dispatch (.ok _)) => inferInstanceAs (Decidable (∀ client ∈ dispatching w c, client.addr ≠ dead))
  | .call _ (.clearStore outcome) => inferInstanceAs (Decidable (outcome.executed = true))
  | .call _ (.resolve .getSession) => isTrue trivial
  | .call _ (.resolve (.readStore _ _ _)) => isTrue trivial
  | .call _ (.resolve (.list (.error _))) => isTrue trivial
  | .call _ (.resolve .update) => isTrue trivial
  | .call _ (.resolve .pick) => isTrue trivial
  | .call _ (.resolve (.writeStore _ _ _)) => isTrue trivial
  | .call _ (.resolve .setSession) => isTrue trivial
  | .call _ (.clientFor _) => isTrue trivial
  | .call _ (.dispatch (.error _)) => isTrue trivial
  | .call _ .clearSession => isTrue trivial
  | .closeClients _ => isTrue trivial

structure Bounded (before : Nat → Nat) (w : World α ρ) : Prop where
  sole : ∀ (c c' : Nat) (call call' : Call α ρ), w.calls[c]? = some call → w.calls[c']? = some call' →
    call.uid = uid → call'.uid = uid → call.pc.active = true → call'.pc.active = true → c = c'
  fits : ∀ (c : Nat) (call : Call α ρ), w.calls[c]? = some call → call.uid = uid →
    Fits uid dead w.shared call.pc
  clients : ∀ g addr client, w.shared.clients g addr = some client → client.addr = addr
  count : ∀ g, tries uid dead w.shared g + threats crc32 uid dead w ≤ before g ∨
    tries uid dead w.shared g + threats crc32 uid dead w ≤ before g + 1 ∧
      (Clean uid dead w.shared g ∨ ∃ (c : Nat) (call : Call α ρ), w.calls[c]? = some call ∧ call.uid = uid ∧
        call.gateway = g ∧ Leaving uid dead w.shared g call.pc)

end Dead

section Steps

variable {crc32 : String → Checksum} {config : Nat → Config} {uid : Int} {dead : String} {s s' : Shared α} {c : Nat}
  {call : Call α ρ} {l : CallLabel ρ} {pc : CallPC ρ}

theorem fits_of_returned (h : pc.active = false) : Fits uid dead s pc := by
  cases pc with
  | returned => trivial
  | _ => cases h

theorem faces_of_returned {g : Nat} (h : pc.active = false) : faces crc32 uid dead s g pc = false := by
  cases pc with
  | returned => rfl
  | _ => cases h

theorem active_of_leaving {g : Nat} (h : Leaving uid dead s g pc) : pc.active = true := by
  cases pc with
  | returned => exact h.elim
  | _ => rfl

theorem advance_active (h : Advance crc32 config c s call l s' pc) : call.pc.active = true := by
  cases h with
  | sessionHit hpc | sessionMiss hpc | storeHit hpc | storeMiss hpc | listed hpc | updated hpc | picked hpc | written hpc
  | sessionSet hpc | reused hpc | dialed hpc | refused hpc | dispatched hpc | sessionCleared hpc | storeCleared hpc
  | failed hpc =>
    rw [hpc]
    rfl

theorem faces_update {r : ConsistentHashRouter} {instances : List PlayerServerInstance} {g : Nat}
    (h : ∀ server ∈ instances, server.grpcAddr ≠ dead) (hrouter : (s.gateways g).router = r.update crc32 instances) :
    faces crc32 uid dead s g (.resolving .pick : CallPC ρ) = false := by
  simp only [faces, hrouter]
  split
  · rename_i route hroute
    exact decide_eq_false (h route (update_routeUID hroute).1)
  · rfl

theorem resolved_lists (s : Shared α) (call : Call α ρ) (route : PlayerServerInstance) :
    (resolved s call route).2.lists dead = false := by
  unfold resolved
  split <;> rfl

theorem advance_lists (h : Advance crc32 config c s call l s' pc)
    (hlist : ∀ instances, l = .resolve (.list (.ok instances)) → ∀ server ∈ instances, server.grpcAddr ≠ dead) :
    pc.lists dead = false := by
  cases h with
  | sessionHit => exact resolved_lists _ _ _
  | sessionSet => exact resolved_lists _ _ _
  | @listed instances =>
    simp only [CallPC.lists, List.any_eq_false, decide_eq_true_eq]
    exact hlist instances rfl
  | written hpc hnext => rcases hnext with rfl | ⟨err, rfl⟩ <;> rfl
  | @dispatched _ _ answer => cases answer <;> rfl
  | _ => rfl

theorem held_set (s' : Shared α) {w : World α ρ} (hc : w.calls[c]? = some call) (hpc : pc.lists dead = false) :
    held dead ⟨s', w.calls.set c { call with pc }⟩ + (call.pc.lists dead).toNat = held dead w := by
  obtain ⟨hlt, hget⟩ := List.getElem?_eq_some_iff.mp hc
  have hpos : (call.pc.lists dead).toNat ≤ w.calls.countP fun call => call.pc.lists dead := by
    cases hlists : call.pc.lists dead with
    | false => exact Nat.zero_le _
    | true => exact List.countP_pos_iff.mpr ⟨call, List.mem_of_getElem? hc, hlists⟩
  simp only [held, List.countP_set hlt, hget, hpc, Bool.false_eq_true, if_false, Nat.add_zero]
  cases hlists : call.pc.lists dead with
  | false => simp
  | true =>
    rw [hlists] at hpos
    simp only [if_true, Bool.toNat_true] at hpos ⊢
    omega

theorem clients_advance (h : Advance crc32 config c s call l s' pc)
    (hclients : ∀ g addr client, s.clients g addr = some client → client.addr = addr) :
    ∀ g addr client, s'.clients g addr = some client → client.addr = addr := by
  have hresolved (s : Shared α) (route : PlayerServerInstance) : (resolved s call route).1.clients = s.clients := by
    unfold resolved
    split <;> rfl
  cases h with
  | sessionHit => rwa [hresolved]
  | sessionSet =>
    rw [hresolved]
    exact hclients
  | dialed hpc hclient => exact clients_dialed hclients _ _ _
  | _ => exact hclients

structure Unmoved (crc32 : String → Checksum) (uid : Int) (dead : String) (listing : Option (List PlayerServerInstance))
    (s s' : Shared α) : Prop where
  store : s'.store uid = s.store uid
  session : ∀ g, (s'.gateways g).session uid = (s.gateways g).session uid
  router : ∀ g, (s'.gateways g).router = (s.gateways g).router ∨
    ∃ instances ∈ listing, (s'.gateways g).router = (s.gateways g).router.update crc32 instances
  tries : ∀ g, tries uid dead s' g = tries uid dead s g

theorem resolved_fst (s : Shared α) (call : Call α ρ) (route : PlayerServerInstance) :
    (resolved s call route).1.store = s.store ∧ (resolved s call route).1.gateways = s.gateways := by
  unfold resolved
  split <;> exact ⟨rfl, rfl⟩

theorem tries_resolved (s : Shared α) (call : Call α ρ) (route : PlayerServerInstance) (g : Nat) :
    tries uid dead (resolved s call route).1 g = tries uid dead s g ∨
      tries uid dead (resolved s call route).1 g = tries uid dead s g + 1 ∧ call.gateway = g ∧ call.uid = uid ∧
        route.grpcAddr = dead ∧ (resolved s call route).2 = .clientFor route := by
  unfold resolved
  split
  · by_cases hown : call.gateway = g ∧ call.uid = uid ∧ route.grpcAddr = dead
    · right
      refine ⟨?_, hown.1, hown.2.1, hown.2.2, rfl⟩
      simp [tries, List.countP_append, hown]
    · left
      simp [tries, List.countP_append, hown]
  · exact Or.inl rfl

theorem unmoved_advance (h : Advance crc32 config c s call l s' pc) (hother : call.uid ≠ uid) :
    Unmoved crc32 uid dead call.pc.listing? s s' := by
  have hne : uid ≠ call.uid := Ne.symm hother
  have hresolved (s : Shared α) (route : PlayerServerInstance) :
      Unmoved crc32 uid dead call.pc.listing? s (resolved s call route).1 := by
    obtain ⟨hstore, hgateways⟩ := resolved_fst s call route
    refine ⟨by rw [hstore], fun g => by rw [hgateways], fun g => Or.inl (by rw [hgateways]), fun g => ?_⟩
    rcases @tries_resolved α ρ uid dead s call route g with hsame | ⟨_, _, huid, _⟩
    · exact hsame
    · exact absurd huid hother
  have hsession (route : Option PlayerServerInstance) :
      Unmoved crc32 uid dead call.pc.listing? s (s.setSession call.gateway call.uid route) := by
    refine ⟨rfl, fun g => ?_, fun g => Or.inl (s.router_setSession _ _ _ _), fun g => rfl⟩
    rw [s.session_setSession, if_neg fun hand => hne hand.2]
  cases h with
  | sessionHit hpc hroute => exact hresolved s _
  | @sessionSet route hpc =>
    have hset := hsession (some route)
    obtain ⟨hstore, hgateways⟩ := resolved_fst (s.setSession call.gateway call.uid (some route)) call route
    have hend := hresolved (s.setSession call.gateway call.uid (some route)) route
    refine ⟨hend.store.trans hset.store, fun g => (hend.session g).trans (hset.session g), fun g => ?_,
      fun g => (hend.tries g).trans (hset.tries g)⟩
    rw [hgateways]
    exact hset.router g
  | sessionCleared hpc => exact hsession none
  | @updated instances hpc =>
    refine ⟨rfl, fun g => s.session_setRouter _ _ _ _, fun g => ?_, fun g => rfl⟩
    rw [s.router_setRouter]
    split_ifs with hg
    · exact Or.inr ⟨instances, by rw [hpc]; rfl, by rw [hg]⟩
    · exact Or.inl rfl
  | written hpc hnext =>
    refine ⟨?_, fun g => rfl, fun g => Or.inl rfl, fun g => rfl⟩
    exact Function.update_of_ne hne _ _
  | storeCleared hpc =>
    refine ⟨?_, fun g => rfl, fun g => Or.inl rfl, fun g => rfl⟩
    dsimp only
    split_ifs
    · exact Function.update_of_ne hne _ _
    · rfl
  | _ => exact ⟨rfl, fun _ => rfl, fun _ => Or.inl rfl, fun _ => rfl⟩

theorem own_fits (h : Advance crc32 config c s call l s' pc) (hown : call.uid = uid)
    (hlist : ∀ instances, l = .resolve (.list (.ok instances)) → ∀ server ∈ instances, server.grpcAddr ≠ dead) :
    Fits uid dead s' pc := by
  have hresolved (s s' : Shared α) (route : PlayerServerInstance) : Fits uid dead s' (resolved s call route).2 := by
    unfold resolved
    split <;> trivial
  cases h with
  | sessionHit hpc hroute => exact hresolved s _ _
  | sessionSet hpc => exact hresolved _ _ _
  | storeHit hpc hstored =>
    intro haddr
    obtain ⟨kept, hkept, rfl⟩ := RoutingKeys.get_eq_some hstored
    exact ⟨kept, hown ▸ hkept, haddr⟩
  | @listed instances hpc => exact hlist instances rfl
  | @written route _ _ _ _ _ hpc hnext =>
    rcases hnext with rfl | ⟨err, rfl⟩
    · subst hown
      exact fun haddr => ⟨_, Function.update_self _ _ _, haddr⟩
    · trivial
  | @dispatched client request answer hpc hkind => cases answer <;> trivial
  | _ => trivial

def Counted (uid : Int) (dead : String) (before n : Nat) (s : Shared α) (g gateway : Nat) (pc : CallPC ρ) : Prop :=
  tries uid dead s g + n ≤ before ∨
    tries uid dead s g + n ≤ before + 1 ∧ (Clean uid dead s g ∨ gateway = g ∧ Leaving uid dead s g pc)

theorem Counted.keep {before n n' g gateway : Nat} {pc' : CallPC ρ} (h : Counted uid dead before n s g gateway pc)
    (hn : n' ≤ n) (htries : tries uid dead s' g = tries uid dead s g) (hclean : Clean uid dead s g → Clean uid dead s' g)
    (hleave : gateway = g → Leaving uid dead s g pc → Clean uid dead s' g ∨ Leaving uid dead s' g pc') :
    Counted uid dead before n' s' g gateway pc' := by
  rcases h with hnone | ⟨hone, hend⟩
  · exact Or.inl (by omega)
  · refine Or.inr ⟨by omega, ?_⟩
    rcases hend with hc | ⟨hg, hl⟩
    · exact Or.inl (hclean hc)
    · exact (hleave hg hl).imp_right fun hl => ⟨hg, hl⟩

theorem Counted.stay {before n n' g gateway : Nat} {pc' : CallPC ρ} (h : Counted uid dead before n s g gateway pc)
    (hpc : ¬ Leaving uid dead s g pc) (hn : n' ≤ n) (htries : tries uid dead s' g = tries uid dead s g)
    (hclean : Clean uid dead s g → Clean uid dead s' g) : Counted uid dead before n' s' g gateway pc' :=
  h.keep hn htries hclean fun _ hl => absurd hl hpc

theorem counted_resolved {s₁ : Shared α} {route : PlayerServerInstance} {before n n' g : Nat}
    (h : Counted uid dead before n s g call.gateway call.pc) (hn : n' ≤ n) (hpc : ¬ Leaving uid dead s g call.pc)
    (htries : tries uid dead s₁ g = tries uid dead s g)
    (hdead : route.grpcAddr = dead → call.gateway = g → ¬ Clean uid dead s g)
    (hclean : Clean uid dead s g → Clean uid dead s₁ g) :
    Counted uid dead before n' (resolved s₁ call route).1 g call.gateway (resolved s₁ call route).2 := by
  obtain ⟨hstore, hgateways⟩ := resolved_fst s₁ call route
  have hsame : Clean uid dead s₁ g → Clean uid dead (resolved s₁ call route).1 g := by
    unfold Clean StoreDead SessionDead
    rw [hstore, hgateways]
    exact id
  rcases @tries_resolved α ρ uid dead s₁ call route g with hkept | ⟨hone, hg, _, haddr, hnext⟩
  · exact h.stay hpc hn (hkept.trans htries) fun hc => hsame (hclean hc)
  · rcases h with hnone | ⟨_, hc | ⟨_, hl⟩⟩
    · refine Or.inr ⟨by omega, Or.inr ⟨hg, ?_⟩⟩
      rw [hnext]
      exact haddr
    · exact absurd hc (hdead haddr hg)
    · exact absurd hl hpc

theorem faces_resolved (s s' : Shared α) (call : Call α ρ) (route : PlayerServerInstance) (g : Nat) :
    faces crc32 uid dead s' g (resolved s call route).2 = false := by
  unfold resolved
  split <;> rfl

theorem clean_setSession {g : Nat} {route : Option PlayerServerInstance} (gateway : Nat)
    (hroute : ∀ server, route = some server → server.grpcAddr ≠ dead) (h : Clean uid dead s g) :
    Clean uid dead (s.setSession gateway uid route) g := by
  refine ⟨h.1, ?_⟩
  rintro ⟨server, hserver, haddr⟩
  rw [Shared.session_setSession] at hserver
  split_ifs at hserver
  · exact hroute server hserver haddr
  · exact h.2 ⟨server, hserver, haddr⟩

theorem clean_setStore {g : Nat} {stored : Option (Stored SrvRouter)}
    (hstored : ∀ x, stored = some x → x.value.grpcAddr ≠ dead) (h : ¬ SessionDead uid dead s g) :
    Clean uid dead { s with store := Function.update s.store uid stored } g := by
  refine ⟨?_, h⟩
  rintro ⟨x, hx, haddr⟩
  simp only [Function.update_self] at hx
  exact hstored x hx haddr

theorem counted_written {route : PlayerServerInstance} {stored : Stored SrvRouter} {before k g : Nat}
    (hvalue : stored.value.grpcAddr = route.grpcAddr) (hpc : call.pc = .resolving (.writeStore route))
    (hcount : Counted uid dead before (k + (faces crc32 uid dead s call.gateway call.pc).toNat) s g call.gateway call.pc) :
    Counted uid dead before k { s with store := Function.update s.store uid (some stored) } g call.gateway pc := by
  by_cases hdead : route.grpcAddr = dead
  · -- the store leads to the dead server again, and a threat less is left
    have hfaced : faces crc32 uid dead s call.gateway call.pc = true := by
      rw [hpc]
      exact decide_eq_true hdead
    rw [hfaced, Bool.toNat_true] at hcount
    left
    change tries uid dead s g + k ≤ before
    rcases hcount with hnone | ⟨hone, _⟩
    · omega
    · omega
  · refine hcount.stay (by rw [hpc]; exact id) (Nat.le_add_right _ _) (by rfl) fun hc => ?_
    exact clean_setStore (fun x hx => Option.some.inj hx ▸ hvalue ▸ hdead) hc.2

theorem own_counted (h : Advance crc32 config c s call l s' pc) (hown : call.uid = uid) (hfits : Fits uid dead s call.pc)
    (hclients : ∀ g addr client, s.clients g addr = some client → client.addr = addr)
    (hdispatch : ∀ resp client, l = .dispatch (.ok resp) → call.pc = .dispatch client → client.addr ≠ dead)
    (hclear : ∀ outcome, l = .clearStore outcome → outcome.executed = true) {before k g : Nat}
    (hcount : Counted uid dead before (k + (faces crc32 uid dead s call.gateway call.pc).toNat) s g call.gateway call.pc) :
    Counted uid dead before (k + (faces crc32 uid dead s' call.gateway pc).toNat) s' g call.gateway pc := by
  subst hown
  have hless {s₁ : Shared α} {next : CallPC ρ} (hfaces : faces crc32 call.uid dead s₁ call.gateway next = false) :
      k + (faces crc32 call.uid dead s₁ call.gateway next).toNat ≤
        k + (faces crc32 call.uid dead s call.gateway call.pc).toNat := by
    rw [hfaces]
    exact Nat.add_le_add_left (Nat.zero_le _) k
  cases h with
  | sessionHit hpc hroute =>
    refine counted_resolved hcount (hless (faces_resolved _ _ _ _ _)) (by rw [hpc]; exact id) (by rfl) ?_ id
    rintro haddr rfl hc
    exact hc.2 ⟨_, hroute, haddr⟩
  | sessionMiss hpc | storeHit hpc | storeMiss hpc | listed hpc | failed hpc =>
    exact hcount.stay (by rw [hpc]; exact id) (hless rfl) (by rfl) id
  | @updated instances hpc =>
    rw [hpc] at hfits
    have hrouter := (s.router_setRouter call.gateway call.gateway
      ((s.gateways call.gateway).router.update crc32 instances)).trans (if_pos rfl)
    refine hcount.stay (by rw [hpc]; exact id) (hless (faces_update hfits hrouter)) (by rfl) ?_
    unfold Clean SessionDead
    simp only [Shared.session_setRouter]
    exact id
  | @picked route hpc hroute =>
    have hsame : faces crc32 call.uid dead s call.gateway (.resolving (.writeStore route) : CallPC ρ) =
        faces crc32 call.uid dead s call.gateway call.pc := by
      rw [hpc]
      simp only [faces, hroute]
    exact hcount.stay (by rw [hpc]; exact id) (by rw [hsame]) (by rfl) id
  | @written route _ _ _ _ _ hpc hnext =>
    have hends (s₁ : Shared α) : faces crc32 call.uid dead s₁ call.gateway pc = false := by
      rcases hnext with rfl | ⟨err, rfl⟩ <;> rfl
    rw [hends]
    exact counted_written rfl hpc hcount
  | @sessionSet route hpc =>
    rw [hpc] at hfits
    refine counted_resolved hcount (hless (faces_resolved _ _ _ _ _)) (by rw [hpc]; exact id) (by rfl) ?_ ?_
    · intro haddr _ hc
      exact hc.1 (hfits haddr)
    · intro hc
      apply clean_setSession call.gateway ?_ hc
      intro server hserver haddr
      exact hc.1 (hfits (Option.some.inj hserver ▸ haddr))
  | reused hpc hclient =>
    refine hcount.keep (hless rfl) (by rfl) id ?_
    intro _ hl
    rw [hpc] at hl
    exact Or.inr ((hclients _ _ _ hclient).trans hl)
  | dialed hpc hclient =>
    refine hcount.keep (hless rfl) (by rfl) id ?_
    intro _ hl
    rw [hpc] at hl
    exact Or.inr hl
  | refused hpc => exact hcount.keep (hless rfl) (by rfl) id fun _ _ => Or.inr trivial
  | @dispatched client request answer hpc hkind =>
    refine hcount.keep (hless (by cases answer <;> rfl)) (by rfl) id ?_
    intro _ hl
    rw [hpc] at hl
    cases answer with
    | ok resp => exact absurd hl (hdispatch resp client rfl hpc)
    | error err => exact Or.inr trivial
  | sessionCleared hpc =>
    refine hcount.keep (hless rfl) (by rfl) ?_ ?_
    · exact clean_setSession call.gateway fun server hserver => by cases hserver
    · rintro rfl _
      right
      rintro ⟨server, hserver, _⟩
      rw [Shared.session_setSession, if_pos ⟨rfl, rfl⟩] at hserver
      cases hserver
  | @storeCleared cause outcome hpc =>
    rw [if_pos (hclear outcome rfl)]
    refine hcount.keep (hless rfl) (by rfl) ?_ ?_
    · intro hc
      exact clean_setStore (fun x hx => by cases hx) hc.2
    · intro _ hl
      rw [hpc] at hl
      exact Or.inl (clean_setStore (fun x hx => by cases hx) hl)

theorem lists_eq_false : pc.lists dead = false ↔ ∀ instances ∈ pc.listing?, ∀ server ∈ instances, server.grpcAddr ≠ dead := by
  cases pc with
  | resolving pc =>
    cases pc with
    | update instances => simp [CallPC.lists, CallPC.listing?]
    | _ => simp [CallPC.lists, CallPC.listing?]
  | _ => simp [CallPC.lists, CallPC.listing?]

section Unmoved

variable {listing : Option (List PlayerServerInstance)} (h : Unmoved crc32 uid dead listing s s') {g : Nat}
include h

theorem Unmoved.fits (hfits : Fits uid dead s pc) : Fits uid dead s' pc := by
  cases pc with
  | resolving pc =>
    cases pc with
    | setSession route =>
      intro haddr
      obtain ⟨stored, hstored, hdead⟩ := hfits haddr
      exact ⟨stored, h.store.trans hstored, hdead⟩
    | _ => exact hfits
  | _ => trivial

theorem Unmoved.faces (hlisting : ∀ instances ∈ listing, ∀ server ∈ instances, server.grpcAddr ≠ dead)
    (hfaces : faces crc32 uid dead s' g pc = true) : faces crc32 uid dead s g pc = true := by
  cases pc with
  | resolving pc =>
    cases pc with
    | pick =>
      rcases h.router g with hsame | ⟨instances, hinstances, hupdated⟩
      · simp only [Forwarding.faces, hsame] at hfaces ⊢
        exact hfaces
      · rw [faces_update (hlisting instances hinstances) hupdated] at hfaces
        cases hfaces
    | writeStore route => exact hfaces
    | _ => cases hfaces
  | _ => cases hfaces

theorem Unmoved.sessionDead : SessionDead uid dead s' g ↔ SessionDead uid dead s g := by
  rw [SessionDead, SessionDead, h.session]

theorem Unmoved.clean (hc : Clean uid dead s g) : Clean uid dead s' g := by
  rwa [Clean, h.sessionDead, StoreDead, h.store]

theorem Unmoved.leaving (hl : Leaving uid dead s g pc) : Leaving uid dead s' g pc := by
  cases pc with
  | clearStore cause => exact fun hd => hl (h.sessionDead.mp hd)
  | _ => exact hl

end Unmoved

section Bounds

variable {before : Nat → Nat} {w w' : World α ρ}

theorem facing_own (hc : w.calls[c]? = some call) (hown : call.uid = uid)
    (hrest : ∀ (c' : Nat) (call' : Call α ρ), c' ≠ c → w.calls[c']? = some call' → call'.uid = uid →
      call'.pc.active = false) :
    facing crc32 uid dead w = faces crc32 uid dead w.shared call.gateway call.pc := by
  rw [Bool.eq_iff_iff, facing, List.any_eq_true]
  constructor
  · rintro ⟨call', hmem, hfaces⟩
    simp only [Bool.and_eq_true, decide_eq_true_eq] at hfaces
    obtain ⟨c', hc'⟩ := List.mem_iff_getElem?.mp hmem
    by_cases hsame : c' = c
    · rw [hsame, hc] at hc'
      cases hc'
      exact hfaces.2
    · have hfalse := hfaces.2
      rw [faces_of_returned (hrest c' call' hsame hc' hfaces.1)] at hfalse
      cases hfalse
  · intro hfaces
    refine ⟨call, List.mem_of_getElem? hc, ?_⟩
    simp only [Bool.and_eq_true, decide_eq_true_eq]
    exact ⟨hown, hfaces⟩

theorem Bounded.idle_others (hw : Bounded crc32 uid dead before w) (hc : w.calls[c]? = some call)
    (hown : call.uid = uid) (hactive : call.pc.active = true) {c' : Nat} {call' : Call α ρ} (hne : c' ≠ c)
    (hc' : w.calls[c']? = some call') (huid : call'.uid = uid) : call'.pc.active = false := by
  by_contra hbusy
  exact hne (hw.sole c' c call' call hc' hc huid hown (by simpa using hbusy) hactive)

theorem Bounded.counted (hw : Bounded crc32 uid dead before w) (hc : w.calls[c]? = some call) (hown : call.uid = uid)
    (hactive : call.pc.active = true) (g : Nat) :
    Counted uid dead (before g) (held dead w + (faces crc32 uid dead w.shared call.gateway call.pc).toNat) w.shared g
      call.gateway call.pc := by
  rw [← facing_own hc hown fun c' call' hne hc' huid => hw.idle_others hc hown hactive hne hc' huid]
  refine (hw.count g).imp_right fun hone => ⟨hone.1, hone.2.imp_right ?_⟩
  rintro ⟨c', call', hc', huid, hg, hl⟩
  obtain rfl := hw.sole c' c call' call hc' hc huid hown (active_of_leaving hl) hactive
  rw [hc] at hc'
  cases hc'
  exact ⟨hg, hl⟩

theorem lists_of_fits (h : Fits uid dead s pc) : pc.lists dead = false := by
  cases pc with
  | resolving pc =>
    cases pc with
    | update instances =>
      simp only [CallPC.lists, List.any_eq_false, decide_eq_true_eq]
      exact h
    | _ => rfl
  | _ => rfl

theorem bounded_own (hw : Bounded crc32 uid dead before w) (hc : w.calls[c]? = some call) (hown : call.uid = uid)
    (hok : Gone uid dead w (.call c l)) (h : Advance crc32 config c w.shared call l s' pc) :
    Bounded crc32 uid dead before ⟨s', w.calls.set c { call with pc }⟩ := by
  have hlt : c < w.calls.length := (List.getElem?_eq_some_iff.mp hc).1
  have hactive := advance_active h
  have hfits := hw.fits c call hc hown
  -- the call that moves is the only one of the player
  have hrest : ∀ (c' : Nat) (call' : Call α ρ), c' ≠ c → (w.calls.set c { call with pc })[c']? = some call' →
      call'.uid = uid → call'.pc.active = false := by
    intro c' call' hne hc' huid
    rw [List.getElem?_set_ne (Ne.symm hne)] at hc'
    exact hw.idle_others hc hown hactive hne hc' huid
  have hlist : ∀ instances, l = .resolve (.list (.ok instances)) → ∀ server ∈ instances, server.grpcAddr ≠ dead := by
    rintro instances rfl
    exact hok
  refine ⟨fun c₁ c₂ call₁ call₂ h₁ h₂ hu₁ hu₂ ha₁ ha₂ => ?_, fun c' call' hc' huid => ?_,
    clients_advance h hw.clients, fun g => ?_⟩
  · have only : ∀ (c' : Nat) (call' : Call α ρ), (w.calls.set c { call with pc })[c']? = some call' →
        call'.uid = uid → call'.pc.active = true → c' = c := by
      intro c' call' hc' huid ha
      by_contra hne
      rw [hrest c' call' hne hc' huid] at ha
      cases ha
    rw [only c₁ call₁ h₁ hu₁ ha₁, only c₂ call₂ h₂ hu₂ ha₂]
  · by_cases hsame : c' = c
    · subst hsame
      rw [List.getElem?_set_self hlt] at hc'
      cases hc'
      have hnext := own_fits h hown hlist
      exact hnext
    · exact fits_of_returned (hrest c' call' hsame hc' huid)
  · have hheld : held dead ⟨s', w.calls.set c { call with pc }⟩ = held dead w := by
      have hset := held_set s' hc (advance_lists h hlist)
      rw [lists_of_fits hfits] at hset
      exact hset
    have hdispatch : ∀ resp client, l = .dispatch (.ok resp) → call.pc = .dispatch client → client.addr ≠ dead := by
      rintro resp client rfl hpc
      obtain ⟨gateway, u, kind, _⟩ := call
      obtain rfl : _ = CallPC.dispatch client := hpc
      exact hok client (by simp only [dispatching, hc, Option.mem_def])
    have hclear : ∀ outcome, l = .clearStore outcome → outcome.executed = true := by
      rintro outcome rfl
      exact hok
    have hnext := own_counted h hown hfits hw.clients hdispatch hclear (hw.counted hc hown hactive g)
    have hmoved : (⟨s', w.calls.set c { call with pc }⟩ : World α ρ).calls[c]? = some { call with pc } :=
      List.getElem?_set_self hlt
    rw [threats, hheld, facing_own hmoved hown hrest]
    refine hnext.imp_right fun hone => ⟨hone.1, hone.2.imp_right ?_⟩
    rintro ⟨hg, hl⟩
    exact ⟨c, _, List.getElem?_set_self hlt, hown, hg, hl⟩

theorem threats_other (hc : w.calls[c]? = some call) (hother : call.uid ≠ uid) (hlists : pc.lists dead = false)
    (hunmoved : Unmoved crc32 uid dead call.pc.listing? w.shared s') :
    threats crc32 uid dead ⟨s', w.calls.set c { call with pc }⟩ ≤ threats crc32 uid dead w := by
  -- a listing another player's call makes the ring of is a threat less, and at most one more call faces the
  -- ring
  have hheld := held_set s' hc hlists
  unfold threats
  cases hstale : call.pc.lists dead with
  | true =>
    rw [hstale, Bool.toNat_true] at hheld
    have hone := Bool.toNat_le (facing crc32 uid dead ⟨s', w.calls.set c { call with pc }⟩)
    omega
  | false =>
    rw [hstale, Bool.toNat_false, Nat.add_zero] at hheld
    rw [hheld]
    apply Nat.add_le_add_left
    apply Bool.toNat_le_toNat
    rw [Bool.le_iff_imp]
    intro hfacing
    obtain ⟨own, hown, hfaces⟩ := List.any_eq_true.mp hfacing
    simp only [Bool.and_eq_true, decide_eq_true_eq] at hfaces
    apply List.any_eq_true.mpr
    rcases List.mem_or_eq_of_mem_set hown with hown | rfl
    · refine ⟨own, hown, ?_⟩
      simp only [Bool.and_eq_true, decide_eq_true_eq]
      exact ⟨hfaces.1, hunmoved.faces (lists_eq_false.mp hstale) hfaces.2⟩
    · exact absurd hfaces.1 hother

theorem bounded_other (hw : Bounded crc32 uid dead before w) (hc : w.calls[c]? = some call) (hother : call.uid ≠ uid)
    (hok : Gone uid dead w (.call c l)) (h : Advance crc32 config c w.shared call l s' pc) :
    Bounded crc32 uid dead before ⟨s', w.calls.set c { call with pc }⟩ := by
  have hlist : ∀ instances, l = .resolve (.list (.ok instances)) → ∀ server ∈ instances, server.grpcAddr ≠ dead := by
    rintro instances rfl
    exact hok
  have hunmoved : Unmoved crc32 uid dead call.pc.listing? w.shared s' := unmoved_advance h hother
  have hthreats := threats_other hc hother (advance_lists h hlist) hunmoved
  have hkept : ∀ (c' : Nat) (call' : Call α ρ), (w.calls.set c { call with pc })[c']? = some call' →
      call'.uid = uid → w.calls[c']? = some call' := by
    intro c' call' hc' huid
    rw [List.getElem?_set] at hc'
    split_ifs at hc' with hsame hlt
    · cases hc'
      exact absurd huid hother
    · exact hc'
  refine ⟨fun c₁ c₂ call₁ call₂ h₁ h₂ hu₁ hu₂ => hw.sole c₁ c₂ call₁ call₂ (hkept c₁ call₁ h₁ hu₁)
    (hkept c₂ call₂ h₂ hu₂) hu₁ hu₂, fun c' call' hc' huid => hunmoved.fits (hw.fits c' call' (hkept c' call' hc' huid) huid),
    clients_advance h hw.clients, fun g => ?_⟩
  have htries := hunmoved.tries g
  refine (hw.count g).imp (fun hnone => ?_) fun hone => ⟨?_, hone.2.imp hunmoved.clean ?_⟩
  · dsimp only at htries ⊢
    omega
  · dsimp only at htries ⊢
    omega
  · rintro ⟨c', call', hc', huid, hg, hl⟩
    refine ⟨c', call', ?_, huid, hg, hunmoved.leaving hl⟩
    rw [List.getElem?_set_ne ?_]
    · exact hc'
    · rintro rfl
      rw [hc] at hc'
      cases hc'
      exact hother huid

theorem bounded_begin (hw : Bounded crc32 uid dead before w) {g : Nat} {u : Int} {kind : Kind α}
    (hok : Gone uid dead w (.begin g u kind)) :
    Bounded crc32 uid dead before { w with calls := w.calls ++ [⟨g, u, kind, kind.start⟩] } := by
  have hcases : ∀ (c : Nat) (call : Call α ρ), (w.calls ++ [⟨g, u, kind, kind.start⟩])[c]? = some call →
      w.calls[c]? = some call ∨ c = w.calls.length ∧ call = ⟨g, u, kind, kind.start⟩ := by
    intro c call hc
    rw [List.getElem?_append] at hc
    split_ifs at hc with hlt
    · exact Or.inl hc
    · rw [List.getElem?_singleton] at hc
      split_ifs at hc with hzero
      exact Or.inr ⟨by omega, (Option.some.inj hc).symm⟩
  have hidle {c : Nat} {call : Call α ρ} (hu : u = uid) (hc : w.calls[c]? = some call) (huid : call.uid = uid)
      (ha : call.pc.active = true) : False := by
    rw [hok hu call (List.mem_of_getElem? hc) huid] at ha
    cases ha
  have hthreats : threats crc32 uid dead { w with calls := w.calls ++ [⟨g, u, kind, kind.start⟩] } =
      threats crc32 uid dead w := by
    cases kind <;> simp [threats, held, facing, Kind.start, CallPC.lists, faces]
  refine ⟨fun c₁ c₂ call₁ call₂ h₁ h₂ hu₁ hu₂ ha₁ ha₂ => ?_, fun c call hc huid => ?_, hw.clients, fun g' => ?_⟩
  · rcases hcases c₁ call₁ h₁ with h₁ | ⟨he₁, hn₁⟩ <;> rcases hcases c₂ call₂ h₂ with h₂ | ⟨he₂, hn₂⟩
    · exact hw.sole c₁ c₂ call₁ call₂ h₁ h₂ hu₁ hu₂ ha₁ ha₂
    · exact (hidle (by rw [hn₂] at hu₂; exact hu₂) h₁ hu₁ ha₁).elim
    · exact (hidle (by rw [hn₁] at hu₁; exact hu₁) h₂ hu₂ ha₂).elim
    · rw [he₁, he₂]
  · rcases hcases c call hc with hc | ⟨_, rfl⟩
    · exact hw.fits c call hc huid
    · cases kind <;> trivial
  · rw [hthreats]
    refine (hw.count g').imp_right fun hone => ⟨hone.1, hone.2.imp_right ?_⟩
    rintro ⟨c, call, hc, hrest⟩
    exact ⟨c, call, (List.getElem?_append_left (List.getElem?_eq_some_iff.mp hc).1).trans hc, hrest⟩

theorem bounded_step {l : Label α ρ} (hw : Bounded crc32 uid dead before w) (hok : Gone uid dead w l)
    (h : step crc32 config w l = some w') : Bounded crc32 uid dead before w' := by
  cases step_inv h with
  | begin => exact bounded_begin hw hok
  | @call c call l s pc hc hstep =>
    by_cases hown : call.uid = uid
    · exact bounded_own hw hc hown hok hstep
    · exact bounded_other hw hc hown hok hstep
  | closeClients =>
    refine ⟨hw.sole, hw.fits, fun j addr client hc => ?_, hw.count⟩
    simp only [Function.update_apply] at hc
    split_ifs at hc
    exact hw.clients j addr client hc

end Bounds

end Steps

section SecondServer

end SecondServer

end GlobalMailSystem.Forwarding
