import GlobalMailSystem.RestartedServer
import GlobalMailSystem.SnapshotSound
import GlobalMailSystem.SnapshotVersion
import GlobalMailSystem.SourcedRefresh

/-!
Publishers, relay workers and player servers, every call of a server command by command. `Publish` gives every mail
version 1 and a server refreshes only when it hears of a higher version than its own. So a server that has refreshed
once after the first mail went out keeps that snapshot until it restarts, unless a forced refresh was then under way.
-/

namespace GlobalMailSystem.Serving

open Transition Relay Visibility RefreshCalls

structure World where
  relay : Relay.World
  servers : RefreshCalls.World

/-- The servers as their next call finds MySQL and Redis. -/
def World.connected (w : World) : RefreshCalls.World :=
  { w.servers with
    refresh := { w.servers.refresh with mails := w.relay.store.db.mails, cache := w.relay.store.cache } }

def World.snapshot (w : World) (k : Nat) : CacheSnapshot := w.servers.refresh.snapshots k

inductive Label
  | relay (l : Relay.Label)
  | poll (k : Nat)
  | handle (k : Nat) (event : GlobalMailChangedEvent)
  | restart (k : Nat)
  | call (l : RefreshCalls.Label)

def isCall : RefreshCalls.Label → Bool
  | .readVersion _ _ | .check _ | .lock _ _ | .refresh _ => true
  | .begin _ _ | .write _ | .incrementGlobalMailVersion | .insert _ => false

def World.advance (w : World) (l : RefreshCalls.Label) : Option World :=
  (RefreshCalls.step w.connected l).map fun servers =>
    ⟨{ w.relay with store := { w.relay.store with cache := servers.refresh.cache } }, servers⟩

def stop (k : Nat) (call : Call) : Call := if call.server = k then { call with pc := .returned false } else call

def World.restart (w : World) (k : Nat) : World :=
  { w with servers := {
      refresh := { w.servers.refresh with
        snapshots := Function.update w.servers.refresh.snapshots k (.new 0 zeroTime)
        refreshes := Function.update w.servers.refresh.refreshes k .idle }
      calls := w.servers.calls.map (stop k) ++ [⟨k, .force, .readVersion⟩] } }

def step (sha256 : PublishPayload → String) (config : Nat → Config) (w : World) : Label → Option World
  | .relay l => (Relay.step sha256 config w.relay l).map fun relay => { w with relay }
  | .poll k => w.advance (.begin k .ifStale)
  | .handle k event =>
    if accepted w.relay.store.log event then
      if event.version > 0 ∧ event.version ≤ (w.snapshot k).version then some w else w.advance (.begin k .force)
    else none
  | .restart k => some (w.restart k)
  | .call l => if isCall l then w.advance l else none

def init : World := ⟨Relay.init, RefreshCalls.init⟩

def Label.restarts (k : Nat) : Label → Bool
  | .restart j => j = k
  | _ => false

def pending : CallPC → Bool
  | .returned _ => false
  | _ => true

def Unforced (k : Nat) (calls : List Call) : Prop :=
  ∀ call ∈ calls, call.server = k → call.kind = .force → pending call.pc = false

instance (k : Nat) (calls : List Call) : Decidable (Unforced k calls) :=
  inferInstanceAs (Decidable (∀ call ∈ calls, call.server = k → call.kind = .force → pending call.pc = false))

/-- No refresh of the server is under way and no `ForceRefresh` is to come to one. -/
def World.Quiet (w : World) (k : Nat) : Prop :=
  w.servers.refresh.refreshes k = .idle ∧ Unforced k w.servers.calls

structure Inv (w : World) : Prop where
  relay : Unversioned w.relay
  counted : 0 ≤ w.relay.store.cache.version
  bounded : Bounded w.connected
  sourced : Refresh.Sourced w.connected.refresh

variable {sha256 : PublishPayload → String} {config : Nat → Config} {w w' : World} {k : Nat}

theorem inv_relay {l : Relay.Label} {relay : Relay.World} (hw : Inv w)
    (h : Relay.step sha256 config w.relay l = some relay) : Inv { w with relay } := by
  have hrelay := unversioned_relay hw.relay h
  have hg := (Relay.inv_step hw.relay.relay h).2
  have hb := hw.bounded.raise hg.cache.version
  exact ⟨hrelay, hw.counted.trans hg.cache.version, ⟨hb.snapshots, hb.refreshes, hb.calls⟩,
    hw.sourced.mono hg.mails hg.cache hrelay.sound⟩

theorem refresh_cases {s s' : RefreshCalls.World} {l : RefreshCalls.Label} (h : RefreshCalls.step s l = some s')
    (hl : isCall l = true ∨ ∃ k kind, l = .begin k kind) :
    s'.refresh = s.refresh ∨ ∃ r, Refresh.step s.refresh r = some s'.refresh := by
  cases step_inv h with
  | begin | readVersion | check | skip => exact Or.inl rfl
  | @lock c server kind version now hc hidle hstale =>
    refine Or.inr ⟨.start server version now, ?_⟩
    simp only [Refresh.step, hidle]
    rfl
  | refresh hbusy hr => exact Or.inr ⟨_, hr⟩
  | write | increment | insert =>
    rcases hl with hl | ⟨k, kind, hl⟩
    · cases hl
    · cases hl

theorem inv_advance {l : RefreshCalls.Label} (hw : Inv w) (hl : isCall l = true ∨ ∃ k kind, l = .begin k kind)
    (h : w.advance l = some w') : Inv w' := by
  obtain ⟨servers, hstep, rfl⟩ := Option.map_eq_some_iff.mp h
  have hkeeps : Refresh.Keeps w.connected.refresh servers.refresh := by
    rcases refresh_cases hstep hl with he | ⟨r, hr⟩
    · rw [he]
      exact hw.sourced.keeps_refl
    · exact Refresh.keeps_step hw.sourced hr
  have hmails : servers.refresh.mails = w.relay.store.db.mails := hkeeps.mails
  have hsame : servers = { servers with refresh := { servers.refresh with mails := w.relay.store.db.mails } } := by
    rw [← hmails]
  refine ⟨hw.relay.setCache hkeeps.grows ?_ hkeeps.version, hw.counted.trans hkeeps.version.ge, ?_, ?_⟩
  · rw [← hmails]
    exact hkeeps.sourced.sound
  · have hb := bounded_step hw.bounded hstep
    rw [hsame] at hb
    exact hb
  · have hsourced := hkeeps.sourced
    rw [hsame] at hsourced
    exact hsourced

theorem inv_restart (hw : Inv w) (k : Nat) : Inv (w.restart k) := by
  refine ⟨hw.relay, hw.counted, ⟨fun j => ?_, fun j version hv => ?_, fun call hcall version hv => ?_⟩, hw.sourced.sound,
    fun j => ?_, fun j id mail hm => ?_⟩
  · simp only [World.connected, World.restart, Function.update_apply]
    split_ifs
    · exact hw.counted
    · exact hw.bounded.snapshots j
  · simp only [World.connected, World.restart, Function.update_apply] at hv
    split_ifs at hv
    · cases hv
    · exact hw.bounded.refreshes j version hv
  · rcases List.mem_append.mp hcall with hcall | hcall
    · obtain ⟨old, hold, rfl⟩ := List.mem_map.mp hcall
      unfold stop at hv
      split_ifs at hv
      · cases hv
      · exact hw.bounded.calls old hold version hv
    · rw [List.mem_singleton.mp hcall] at hv
      cases hv
  · simp only [World.connected, World.restart, Function.update_apply]
    split_ifs
    · trivial
    · exact hw.sourced.refreshes j
  · simp only [World.connected, World.restart, Function.update_apply] at hm
    split_ifs at hm
    · cases hm
    · exact hw.sourced.snapshots j id mail hm

theorem inv_step {l : Label} (hw : Inv w) (h : step sha256 config w l = some w') : Inv w' := by
  cases l with
  | relay l =>
    obtain ⟨relay, hl, rfl⟩ := Option.map_eq_some_iff.mp h
    exact inv_relay hw hl
  | poll k => exact inv_advance hw (Or.inr ⟨_, _, rfl⟩) h
  | handle k event =>
    simp only [step] at h
    split_ifs at h
    · cases h
      exact hw
    · exact inv_advance hw (Or.inr ⟨_, _, rfl⟩) h
  | restart k =>
    cases h
    exact inv_restart hw k
  | call l =>
    simp only [step] at h
    split_ifs at h with hl
    exact inv_advance hw (Or.inl hl) h

theorem inv_init : Inv init := by
  refine ⟨unversioned_start, le_refl _, ?_, unversioned_start.sound, fun k => trivial, fun k id mail hm => ?_⟩
  · exact ⟨bounded_init.snapshots, bounded_init.refreshes, bounded_init.calls⟩
  · cases hm

structure Frozen (k : Nat) (snapshot : CacheSnapshot) (w : World) : Prop where
  inv : Inv w
  same : w.snapshot k = snapshot
  quiet : w.Quiet k

section Frozen

variable {snapshot : CacheSnapshot}

theorem Unforced.set {calls : List Call} (h : Unforced k calls) (c : Nat) {call : Call}
    (hcall : call.server = k → call.kind = .force → pending call.pc = false) : Unforced k (calls.set c call) := by
  intro other ho
  rcases List.mem_or_eq_of_mem_set ho with ho | he
  · exact h other ho
  · rw [he]
    exact hcall

theorem Unforced.finished {calls : List Call} (h : Unforced k calls) (after : Refresh.World) (server : Nat) :
    Unforced k (finished after server calls) := by
  intro call hcall
  unfold RefreshCalls.finished at hcall
  split at hcall
  · obtain ⟨old, hold, rfl⟩ := List.mem_map.mp hcall
    unfold Call.finish
    split
    · split_ifs
      · exact fun _ _ => rfl
      · exact h old hold
    · exact h old hold
  · exact h call hcall

theorem Unforced.not_force {calls : List Call} (h : Unforced k calls) {c : Nat} {kind : Kind} {pc : CallPC}
    (hc : calls[c]? = some ⟨k, kind, pc⟩) (hpc : pending pc = true) : kind ≠ .force := by
  intro hkind
  rw [h _ (List.mem_of_getElem? hc) rfl hkind] at hpc
  cases hpc

theorem Frozen.not_refreshing (hw : Frozen k snapshot w) (hversion : 1 ≤ snapshot.version) {c : Nat} {kind : Kind}
    {version : Int} (hc : w.connected.calls[c]? = some ⟨k, kind, .lock version⟩)
    (hstale : kind = .ifStale → w.connected.fresh k version = false) : False := by
  cases kind with
  | force => exact hw.quiet.2.not_force hc rfl rfl
  | ifStale =>
    -- with version 1 in Redis at most, the snapshot is found fresh under the mutex again
    have hbound := hw.inv.bounded.calls _ (List.mem_of_getElem? hc) version rfl
    have hredis := hw.inv.relay.version
    have hfresh := hstale rfl
    have hsame : w.connected.refresh.snapshots k = snapshot := hw.same
    simp only [RefreshCalls.World.fresh, hsame, ge_iff_le, decide_eq_false_iff_not, not_le] at hfresh
    exact absurd (hbound.trans hredis) (by omega)

theorem frozen_advance {l : RefreshCalls.Label} (hw : Frozen k snapshot w) (hversion : 1 ≤ snapshot.version)
    (hl : isCall l = true ∨ ∃ j kind, l = .begin j kind ∧ (j = k → kind = .ifStale))
    (h : w.advance l = some w') : Frozen k snapshot w' := by
  have hinv := inv_advance hw.inv (hl.imp id fun ⟨j, kind, he, _⟩ => ⟨j, kind, he⟩) h
  obtain ⟨servers, hstep, rfl⟩ := Option.map_eq_some_iff.mp h
  obtain ⟨hidle, hcalls⟩ := hw.quiet
  cases step_inv hstep with
  | @begin server kind =>
    refine ⟨hinv, hw.same, hidle, fun call hcall => ?_⟩
    rcases List.mem_append.mp hcall with hcall | hcall
    · exact hcalls call hcall
    · rw [List.mem_singleton.mp hcall]
      rintro hserver rfl
      rcases hl with hl | ⟨j, kind, he, hkind⟩
      · cases hl
      · cases he
        cases hkind hserver
  | readVersion hc | check hc =>
    refine ⟨hinv, hw.same, hidle, hcalls.set _ ?_⟩
    rintro rfl hkind
    exact absurd hkind (hcalls.not_force hc rfl)
  | skip hc => exact ⟨hinv, hw.same, hidle, hcalls.set _ fun _ _ => rfl⟩
  | @lock c server kind version now hc _ hstale =>
    have hserver : k ≠ server := by
      rintro rfl
      exact hw.not_refreshing hversion hc hstale
    refine ⟨hinv, hw.same, ?_, hcalls.set _ fun hs _ => absurd hs.symm hserver⟩
    simp only [RefreshCalls.World.setCall, Refresh.World.goto, Function.update_of_ne hserver]
    exact hidle
  | @refresh r after hbusy hr =>
    have hserver : k ≠ r.server := fun he => hbusy (he ▸ hidle)
    obtain ⟨hrefreshes, hsnapshots⟩ := (Refresh.step_frame hr).others k hserver
    exact ⟨hinv, hsnapshots.trans hw.same, hrefreshes.trans hidle, hcalls.finished _ _⟩
  | write | increment | insert =>
    rcases hl with hl | ⟨j, kind, he, _⟩
    · cases hl
    · cases he

theorem frozen_restart (hw : Frozen k snapshot w) {j : Nat} (hj : k ≠ j) : Frozen k snapshot (w.restart j) := by
  obtain ⟨hidle, hcalls⟩ := hw.quiet
  refine ⟨inv_restart hw.inv j, ?_, ?_, fun call hcall => ?_⟩
  · simp only [World.snapshot, World.restart, Function.update_of_ne hj]
    exact hw.same
  · simp only [World.restart, Function.update_of_ne hj]
    exact hidle
  · rcases List.mem_append.mp hcall with hcall | hcall
    · obtain ⟨old, hold, rfl⟩ := List.mem_map.mp hcall
      unfold stop
      split_ifs
      · exact fun _ _ => rfl
      · exact hcalls old hold
    · rw [List.mem_singleton.mp hcall]
      exact fun he => absurd he.symm hj

theorem frozen_step {l : Label} (hw : Frozen k snapshot w) (hversion : 1 ≤ snapshot.version)
    (hl : l.restarts k = false) (h : step sha256 config w l = some w') : Frozen k snapshot w' := by
  cases l with
  | relay l =>
    have hinv := inv_step hw.inv h
    obtain ⟨relay, _, rfl⟩ := Option.map_eq_some_iff.mp h
    exact ⟨hinv, hw.same, hw.quiet⟩
  | poll j => exact frozen_advance hw hversion (Or.inr ⟨j, .ifStale, rfl, fun _ => rfl⟩) h
  | handle j event =>
    simp only [step] at h
    split_ifs at h with haccepted hseen
    · cases h
      exact hw
    · refine frozen_advance hw hversion (Or.inr ⟨j, .force, rfl, ?_⟩) h
      rintro rfl
      have hevent := hw.inv.relay.events event haccepted
      rw [hw.same] at hseen
      exact absurd (by omega) hseen
  | restart j =>
    cases h
    exact frozen_restart hw fun he => by simp [Label.restarts, he] at hl
  | call l =>
    simp only [step] at h
    split_ifs at h with hcall
    exact frozen_advance hw hversion (Or.inl hcall) h

end Frozen

theorem snapshot_frozen (sha256 : PublishPayload → String) (config : Nat → Config) {ls more : List Label}
    (h : run (step sha256 config) init ls = some w) (hversion : 1 ≤ (w.snapshot k).version) (hquiet : w.Quiet k)
    (h' : run (step sha256 config) w more = some w') (hmore : ∀ l ∈ more, l.restarts k = false) :
    w'.relay.store.cache.version ≤ 1 ∧ w'.snapshot k = w.snapshot k ∧
      ∀ profile now, ∀ mail ∈ (w'.snapshot k).visibleMails profile now, mail ∈ w.relay.store.db.mails.rows := by
  have hw : Inv w := run_invariant (fun _ _ _ hs hl => inv_step hs hl) inv_init h
  have hg : Guarded (step sha256 config) (fun _ l => l.restarts k = false) w more :=
    guarded_of_labels fun l hl _ => hmore l hl
  have hfrozen : Frozen k (w.snapshot k) w' :=
    guarded_invariant (fun _ _ _ hs hl hstep => frozen_step hs hversion hl hstep) ⟨hw, rfl, hquiet⟩ hg h'
  refine ⟨hfrozen.inv.relay.version, hfrozen.same, fun profile now mail hmail => ?_⟩
  rw [hfrozen.same] at hmail
  obtain ⟨id, _, hvisible⟩ := List.mem_filterMap.mp hmail
  exact hw.sourced.snapshots k id mail (CacheSnapshot.visible?_eq_some.mp hvisible).1

def refreshed (c mails : Nat) : List Label :=
  (.readVersion c .ok :: .lock c 0 :: List.replicate (1 + mails) (.refresh (.work 0 0 5 .ok))).map .call

def shownLabels : List Label := (publishAndFlush 0 100 7).map .relay ++ .restart 0 :: refreshed 0 1

def shownWorld : World := (run (step (fun _ => "") twoWorkers) init shownLabels).get (by decide)

def ignoredLabels : List Label :=
  (publishAndFlush 1 101 8).map .relay ++
    [.poll 0, .call (.readVersion 1 .ok), .call (.check 1), .handle 0 secondEvent]

def ignoredWorld : World := (run (step (fun _ => "") twoWorkers) shownWorld ignoredLabels).get (by decide)

theorem ignoredWorld_frozen : ignoredWorld.relay.store.db.mails.rows.map GlobalMail.id = [100, 101] ∧
    ((ignoredWorld.snapshot 0).mailsByID 100).isSome ∧
    ∀ profile now, ∀ mail ∈ (ignoredWorld.snapshot 0).visibleMails profile now,
      mail ∈ shownWorld.relay.store.db.mails.rows := by
  have hrun : run (step (fun _ => "") twoWorkers) init shownLabels = some shownWorld := (Option.some_get _).symm
  have hmore : run (step (fun _ => "") twoWorkers) shownWorld ignoredLabels = some ignoredWorld :=
    (Option.some_get _).symm
  have hquiet : shownWorld.Quiet 0 := ⟨rfl, by decide⟩
  exact ⟨by decide, by decide, (snapshot_frozen (fun _ => "") twoWorkers hrun (by decide) hquiet hmore (by decide)).2.2⟩

def overtakenLabels : List Label :=
  (publishAndFlush 0 100 7).map .relay ++ .handle 0 ⟨7, 100, 1, "publish", 0⟩  ::
    .poll 0 :: .call (.readVersion 1 .ok) :: .call (.check 1) :: (refreshed 1 1).tail ++
    (publishAndFlush 1 101 8).map .relay

-- a `ForceRefresh` that has begun does not compare versions under the mutex, so it brings the second mail
example : ((run (step (fun _ => "") twoWorkers) init overtakenLabels).map fun w =>
      ((w.snapshot 0).version, ((w.snapshot 0).mailsByID 101).isSome)) = some (1, false) ∧
    ((run (step (fun _ => "") twoWorkers) init (overtakenLabels ++ refreshed 0 2)).map fun w =>
      ((w.snapshot 0).version, ((w.snapshot 0).mailsByID 101).isSome)) = some (1, true) := by
  decide

end GlobalMailSystem.Serving
