import GlobalMailSystem.RegistryListing

namespace GlobalMailSystem.Registry

open Transition

def Exited (w : World) (p : Nat) : Prop := ∃ process : Process, w.processes[p]? = some process ∧ process.pc = .exited

def Abandoned (p : Nat) (w w' : World) : Prop :=
  Exited w p → Exited w' p ∧ ∀ (l : Nat) (lease : Lease), w'.leases[l]? = some lease → lease.owner = p →
    ∃ before : Lease, w.leases[l]? = some before ∧ before.owner = p ∧ before.expireAt = lease.expireAt

theorem Abandoned.refl (p : Nat) (w : World) : Abandoned p w w :=
  fun hexit => ⟨hexit, fun _ lease hl howner => ⟨lease, hl, howner, rfl⟩⟩

theorem Abandoned.trans {p : Nat} (w₁ w₂ w₃ : World) (h : Abandoned p w₁ w₂) (h' : Abandoned p w₂ w₃) :
    Abandoned p w₁ w₃ := by
  intro hexit
  obtain ⟨hexit₂, hleases₂⟩ := h hexit
  obtain ⟨hexit₃, hleases₃⟩ := h' hexit₂
  refine ⟨hexit₃, fun l lease hl howner => ?_⟩
  obtain ⟨mid, hmid, hmidOwner, hmidAt⟩ := hleases₃ l lease hl howner
  obtain ⟨before, hbefore, hbeforeOwner, hbeforeAt⟩ := hleases₂ l mid hmid hmidOwner
  exact ⟨before, hbefore, hbeforeOwner, hbeforeAt.trans hmidAt⟩

section Steps

variable {cfg : Config} {w w' : World} {p q : Nat} {process : Process}

theorem Exited.ne (hexit : Exited w p) (hq : w.processes[q]? = some process) (hpc : process.pc ≠ .exited) : q ≠ p := by
  rintro rfl
  obtain ⟨x, hx, hxpc⟩ := hexit
  rw [Option.some.inj (hx.symm.trans hq)] at hxpc
  exact hpc hxpc

theorem Exited.setPC {pc : ProcessPC} (hexit : Exited w p) (hne : q ≠ p) : Exited (w.setPC q process pc) p := by
  obtain ⟨x, hx, hxpc⟩ := hexit
  exact ⟨x, (setPC_other (Ne.symm hne)).trans hx, hxpc⟩

theorem abandoned_step {label : Label} (p : Nat) (hw : Listing cfg w) (h : step cfg w label = some w') :
    Abandoned p w w' := by
  intro hexit
  have hsame : ∀ (l : Nat) (lease : Lease), w.leases[l]? = some lease → lease.owner = p →
      ∃ before : Lease, w.leases[l]? = some before ∧ before.owner = p ∧ before.expireAt = lease.expireAt :=
    (Abandoned.refl p w hexit).2
  cases step_moves h with
  | ticked _ => exact ⟨hexit, hsame⟩
  | started =>
    obtain ⟨x, hx, hxpc⟩ := hexit
    exact ⟨⟨x, by rw [List.getElem?_append_left (List.getElem?_eq_some_iff.mp hx).1, hx], hxpc⟩, hsame⟩
  | left hq hrun => exact ⟨hexit.setPC (hexit.ne hq (by simpa [Process.running] using hrun)), hsame⟩
  | @granted q _ _ hq hpc _ _ =>
    have hne := hexit.ne hq (by simp [hpc])
    refine ⟨hexit.setPC hne, fun l lease hl howner => ?_⟩
    apply hsame l lease ?_ howner
    rcases lt_or_ge l w.leases.length with hlt | hge
    · simpa [World.setPC, World.granted, List.getElem?_append_left hlt] using hl
    · simp only [World.setPC, World.granted, List.getElem?_append_right hge] at hl
      have hlease := List.mem_singleton.mp (List.mem_of_getElem? hl)
      rw [hlease] at howner
      exact absurd howner hne
  | put hq hpc _ _ _ => exact ⟨hexit.setPC (hexit.ne hq (by simp [hpc])), hsame⟩
  | @renewed q process l lease hq hpc hl hlive =>
    refine ⟨hexit, fun l' lease' hl' howner => ?_⟩
    have hne := hexit.ne hq (by simp [hpc])
    by_cases hsameLease : l = l'
    · subst hsameLease
      -- the lease that is renewed belongs to the process that renews it
      obtain ⟨held, hheld, hq'⟩ := hw.leased q process l hq (by rw [hpc]; rfl)
      rw [World.renewed, List.getElem?_set_self (List.getElem?_eq_some_iff.mp hl).1] at hl'
      cases hl'
      rw [Option.some.inj (hheld.symm.trans hl)] at hq'
      exact absurd (hq'.symm.trans howner) hne
    · rw [World.renewed, List.getElem?_set_ne hsameLease] at hl'
      exact hsame l' lease' hl' howner
  | idle => exact ⟨hexit, hsame⟩
  | unregistered hq hpc => exact ⟨Exited.setPC hexit (hexit.ne hq (by simp [hpc])), hsame⟩
  | @revoked l lease hl _ _ =>
    refine ⟨hexit, fun l' lease' hl' howner => ?_⟩
    by_cases hsameLease : l = l'
    · subst hsameLease
      rw [World.revoked, List.getElem?_set_self (List.getElem?_eq_some_iff.mp hl).1] at hl'
      cases hl'
      exact ⟨lease, hl, howner, rfl⟩
    · rw [World.revoked, List.getElem?_set_ne hsameLease] at hl'
      exact hsame l' lease' hl' howner
  | calls _ => exact ⟨hexit, hsame⟩
  | updated _ _ _ => exact ⟨hexit, hsame⟩

theorem abandoned_run {labels : List Label} (p : Nat) (hw : Listing cfg w) (hg : Guarded (step cfg) Orderly w labels)
    (h : run (step cfg) w labels = some w') : Listing cfg w' ∧ Abandoned p w w' :=
  guarded_rule (Abandoned.refl p) Abandoned.trans
    (fun _ _ _ hs hok hl => ⟨listing_step hs hok hl, abandoned_step p hs hl⟩) hw hg h

end Steps

def Label.revokes : Label → Prop
  | .revoke _ => True
  | _ => False

def World.liveLeases (w : World) : Nat := w.leases.countP Lease.live

section Revoking

variable {cfg : Config} {w w' : World}

theorem revokes_step {label : Label} (hrevokes : label.revokes) (h : step cfg w label = some w') :
    w'.clock = w.clock ∧ w'.liveLeases < w.liveLeases := by
  cases label with
  | revoke l =>
    obtain ⟨lease, hl, hstep⟩ := Option.bind_eq_some_iff.mp h
    split_ifs at hstep with hdue
    cases hstep
    obtain ⟨hlt, he⟩ := List.getElem?_eq_some_iff.mp hl
    have hpos : 0 < w.leases.countP Lease.live :=
      List.countP_pos_iff.mpr ⟨lease, List.mem_of_getElem? hl, hdue.1⟩
    refine ⟨rfl, ?_⟩
    simp only [World.liveLeases, World.revoked, List.countP_set hlt, he, hdue.1, if_true, Bool.false_eq_true, if_false]
    omega
  | tick _ => exact hrevokes.elim
  | start _ _ => exact hrevokes.elim
  | process _ _ => exact hrevokes.elim
  | updateStatus _ _ _ => exact hrevokes.elim
  | update _ _ => exact hrevokes.elim

theorem orderly_of_revokes {label : Label} (h : label.revokes) (w : World) : Orderly w label := by
  cases label with
  | revoke l => trivial
  | tick _ => exact h.elim
  | start _ _ => exact h.elim
  | process _ _ => exact h.elim
  | updateStatus _ _ _ => exact h.elim
  | update _ _ => exact h.elim

theorem revokes_due (cfg : Config) (w : World) : ∃ w', Reaches (step cfg) Label.revokes w w' ∧ w'.clock = w.clock ∧
    ∀ lease ∈ w'.leases, lease.live = true → w'.clock < lease.expireAt := by
  have hlower : ∀ (s : World) (l : Label) (t : World), l.revokes → step cfg s l = some t → t.liveLeases < s.liveLeases :=
    fun s l t hl hstep => (revokes_step hl hstep).2
  obtain ⟨w', ⟨labels, hrevokes, hrun⟩, hlast⟩ := Reaches.exhausts hlower w
  refine ⟨w', ⟨labels, hrevokes, hrun⟩, ?_, ?_⟩
  · have hclock : ∀ (s : World) (l : Label) (t : World), l.revokes → step cfg s l = some t → t.clock = s.clock :=
      fun s l t hl hstep => (revokes_step hl hstep).1
    apply guarded_relation (R := fun s t : World => t.clock = s.clock) (fun _ => rfl) (fun _ _ _ hst htu => htu.trans hst)
      hclock (guarded_of_labels fun l hl _ => hrevokes l hl) hrun
  · intro lease hlease hlive
    obtain ⟨l, hl⟩ := List.mem_iff_getElem?.mp hlease
    have hnone := hlast (.revoke l) trivial
    by_contra hdue
    simp [step, hl, hlive, not_lt.mp hdue] at hnone

end Revoking

theorem exited_process_unlisted {cfg : Config} {clock : Time} {labels more : List Label} {w w' : World} {p : Nat}
    (hg : Guarded (step cfg) Orderly (World.init clock) labels) (h : run (step cfg) (World.init clock) labels = some w)
    (hexit : Exited w p) (hg' : Guarded (step cfg) Orderly w more) (h' : run (step cfg) w more = some w')
    (hdue : ∀ lease ∈ w.leases, lease.owner = p → lease.expireAt ≤ w'.clock) :
    ∃ w'', Reaches (step cfg) Label.revokes w' w'' ∧ ∀ service, Plain service →
      ∀ value ∈ listReady cfg.serviceKeyPrefix w''.kv service,
        ∃ q, q ≠ p ∧ ∃ process : Process, w''.processes[q]? = some process ∧ process.value = value := by
  have hw := listing_run (listing_init cfg clock) hg h
  obtain ⟨hw', habandoned⟩ := abandoned_run p hw hg' h'
  obtain ⟨w'', ⟨revokes, hrevokes, hrun⟩, hclock, hlive⟩ := revokes_due cfg w'
  have horderly : Guarded (step cfg) Orderly w' revokes :=
    guarded_of_labels fun label hlabel s => orderly_of_revokes (hrevokes label hlabel) s
  obtain ⟨hw'', habandoned'⟩ := abandoned_run p hw' horderly hrun
  refine ⟨w'', ⟨revokes, hrevokes, hrun⟩, fun service hs value hvalue => ?_⟩
  obtain ⟨_, _, entry, hentry, hvalue⟩ := (hw''.mem_listReady hs).mp hvalue
  obtain ⟨q, process, l, lease, hq, rfl, hl, howner, hheld⟩ := hw''.backed entry hentry
  refine ⟨q, ?_, process, hq, hvalue⟩
  rintro rfl
  obtain ⟨before, hbefore, hbeforeOwner, hbeforeAt⟩ :=
    (Abandoned.trans _ _ _ habandoned habandoned' hexit).2 l lease hl howner
  have hlater := hlive lease (List.mem_of_getElem? hl) hheld
  rw [hclock, ← hbeforeAt] at hlater
  exact absurd (hdue before (List.mem_of_getElem? hbefore) hbeforeOwner) (not_le.mpr hlater)

def crashedWorld : World :=
  (run (step defaultConfig) (World.init 0) (registration 0 playerServer 5 ++ [.process 0 .crash])).get (by rfl)

theorem crashed_unlisted : ∃ w, Reaches (step defaultConfig) Label.revokes { crashedWorld with clock := 10 * second } w ∧
    ∀ value ∈ listReady "/rh/services" w.kv "playersrv",
      ∃ q, q ≠ 0 ∧ ∃ process : Process, w.processes[q]? = some process ∧ process.value = value := by
  have hrun : run (step defaultConfig) (World.init 0) (registration 0 playerServer 5 ++ [.process 0 .crash]) =
      some crashedWorld := (Option.some_get _).symm
  have hmore : run (step defaultConfig) crashedWorld [.tick (10 * second)] =
      some { crashedWorld with clock := 10 * second } := rfl
  have hdue : ∀ lease ∈ crashedWorld.leases, lease.owner = 0 → lease.expireAt ≤ 10 * second := by decide +kernel
  obtain ⟨w, hreaches, hlisted⟩ := exited_process_unlisted (by decide +kernel) hrun
    ⟨⟨playerServer, 5, .exited⟩, rfl, rfl⟩ (by decide +kernel) hmore hdue
  exact ⟨w, hreaches, hlisted "playersrv" (by decide +kernel)⟩

def Untouched (cfg : Config) (key : String) (w : World) : Label → Prop
  | .process p (.put _) => ∀ process ∈ w.processes[p]?, process.key cfg ≠ key
  | .process p (.unregister _) => ∀ process ∈ w.processes[p]?,
      instanceKey cfg.serviceKeyPrefix process.configured.serviceName process.configured.instanceID ≠ key
  | .update u (.put _ _) => ∀ update ∈ w.updates[u]?,
      instanceKey cfg.serviceKeyPrefix update.serviceName update.instanceID ≠ key
  | _ => True

instance (cfg : Config) (key : String) (w : World) : (label : Label) → Decidable (Untouched cfg key w label)
  | .process p (.put _) => inferInstanceAs (Decidable (∀ process ∈ w.processes[p]?, process.key cfg ≠ key))
  | .process p (.unregister _) => inferInstanceAs (Decidable (∀ process ∈ w.processes[p]?,
      instanceKey cfg.serviceKeyPrefix process.configured.serviceName process.configured.instanceID ≠ key))
  | .process _ (.grant _) => isTrue trivial
  | .process _ .keepAlive => isTrue trivial
  | .process _ .crash => isTrue trivial
  | .update u (.put _ _) => inferInstanceAs (Decidable (∀ update ∈ w.updates[u]?,
      instanceKey cfg.serviceKeyPrefix update.serviceName update.instanceID ≠ key))
  | .update _ (.get _) => isTrue trivial
  | .tick _ => isTrue trivial
  | .start _ _ => isTrue trivial
  | .revoke _ => isTrue trivial
  | .updateStatus _ _ _ => isTrue trivial

section Detached

variable {cfg : Config} {w w' : World} {entry : KeyValue}

theorem detached_step {label : Label} (hlease : entry.lease = none) (hentry : entry ∈ w.kv.rows)
    (hok : Untouched cfg entry.key w label) (h : step cfg w label = some w') : entry ∈ w'.kv.rows := by
  cases step_moves h with
  | put hp hpc hl hlive hnext => exact Table.mem_upsert.mpr (Or.inr ⟨hentry, Ne.symm (hok _ hp)⟩)
  | unregistered hp hpc =>
    apply Table.mem_filterRows.mpr
    have hne := hok _ hp
    exact ⟨hentry, by simpa using Ne.symm hne⟩
  | updated hu hpc updates => exact Table.mem_upsert.mpr (Or.inr ⟨hentry, Ne.symm (hok _ hu)⟩)
  | revoked hl hlive hdue => exact Table.mem_filterRows.mpr ⟨hentry, by simp [hlease]⟩
  | ticked _ => exact hentry
  | started => exact hentry
  | left _ _ => exact hentry
  | granted _ _ _ => exact hentry
  | renewed _ _ _ _ => exact hentry
  | idle => exact hentry
  | calls _ => exact hentry

theorem detached_run {labels : List Label} (hlease : entry.lease = none) (hentry : entry ∈ w.kv.rows)
    (hg : Guarded (step cfg) (Untouched cfg entry.key) w labels) (h : run (step cfg) w labels = some w') :
    entry ∈ w'.kv.rows :=
  guarded_invariant (I := fun s => entry ∈ s.kv.rows) (fun _ _ _ hs hok hl => detached_step hlease hs hok hl) hentry hg h

end Detached

theorem updated_status_never_expires {cfg : Config} {w w' w'' : World} {u : Nat} {update : Update} {now : Time}
    {outcome : Outcome} {labels : List Label} (hu : w.updates[u]? = some update) (hexecuted : outcome.executed = true)
    (hput : step cfg w (.update u (.put now outcome)) = some w')
    (hg : Guarded (step cfg)
      (Untouched cfg (instanceKey cfg.serviceKeyPrefix update.serviceName update.instanceID)) w' labels)
    (h : run (step cfg) w' labels = some w'')
    (hservice : Plain update.serviceName) (hid : Plain update.instanceID) (hready : update.status = "ready") :
    ∃ found : Instance, update.pc = .put found ∧ { found with status := "ready", updateTime := now } ∈
      listReady cfg.serviceKeyPrefix w''.kv update.serviceName := by
  simp only [step, hu, Option.bind_some, updateStep] at hput
  split at hput
  · rename_i found hpc
    rw [if_pos hexecuted] at hput
    cases hput
    let entry : KeyValue := ⟨instanceKey cfg.serviceKeyPrefix update.serviceName update.instanceID,
      { found with status := update.status, updateTime := now }, none⟩
    have hkept : entry ∈ w''.kv.rows := detached_run rfl (Table.mem_upsert.mpr (Or.inl rfl)) hg h
    refine ⟨found, hpc, mem_listReady.mpr ⟨_, hkept, ?_, ?_, rfl⟩⟩
    · exact (prefix_iff_service hservice hservice hid).mpr rfl
    · exact congrArg (fun status => { found with status := status, updateTime := now }) hready
  · cases hput

def updatingWorld : World :=
  (run (step defaultConfig) registeredWorld
    [.updateStatus "playersrv" "p1" "ready", .update 0 (.get .ok)]).get (by rfl)

def updatedWorld : World := (step defaultConfig updatingWorld (.update 0 (.put 7 .ok))).get (by rfl)

def outlivedWorld : World :=
  (run (step defaultConfig) updatedWorld [.process 0 .crash, .tick (20 * second), .revoke 0]).get (by rfl)

theorem outlivedWorld_listed : outlivedWorld.leases = [⟨0, 10 * second, false⟩] ∧
    { playerServer.prepared 5 with updateTime := 7 } ∈ listReady "/rh/services" outlivedWorld.kv "playersrv" := by
  have hput : step defaultConfig updatingWorld (.update 0 (.put 7 .ok)) = some updatedWorld :=
    (Option.some_get _).symm
  have hrun : run (step defaultConfig) updatedWorld [.process 0 .crash, .tick (20 * second), .revoke 0] =
      some outlivedWorld := (Option.some_get _).symm
  have hu : updatingWorld.updates[0]? = some ⟨"playersrv", "p1", "ready", .put (playerServer.prepared 5)⟩ := rfl
  obtain ⟨found, hfound, hlisted⟩ := updated_status_never_expires hu rfl hput (by decide +kernel) hrun
    (by decide +kernel) (by decide +kernel) rfl
  refine ⟨rfl, ?_⟩
  rw [← UpdatePC.put.inj hfound] at hlisted
  exact hlisted

end GlobalMailSystem.Registry
