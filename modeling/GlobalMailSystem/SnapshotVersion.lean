import GlobalMailSystem.RefreshCalls

namespace GlobalMailSystem.RefreshCalls

open Transition

def CallPC.version? : CallPC → Option Int
  | .check version => some version
  | .lock version => some version
  | _ => none

/-- A `ForceRefresh` takes the mutex after a newer snapshot than the one it will build was installed. -/
def overtakenForce (w : World) : Label → Bool
  | .lock c _ =>
    match w.calls[c]? with
    | some ⟨server, .force, .lock version⟩ => version < (w.refresh.snapshots server).version
    | _ => false
  | _ => false

section Refresh

variable {r r' : Refresh.World} {l : Refresh.Label}

theorem version_of_busy {pc : Refresh.PC} (h : pc ≠ .idle) : ∃ version, pc.version? = some version := by
  cases pc with
  | idle => exact absurd rfl h
  | readIndex | readDetails | tryLock | wait | readMySQL | setMail | addIndexes | release =>
    exact ⟨_, rfl⟩

structure KeepsVersions (r r' : Refresh.World) (k : Nat) : Prop where
  refreshes : ∀ version, (r'.refreshes k).version? = some version → (r.refreshes k).version? = some version
  snapshot : r'.snapshots k = r.snapshots k ∨
    ∃ version, (r.refreshes k).version? = some version ∧ (r'.snapshots k).version = version

theorem enter_keeps {cache : SharedCache} {k j : Nat} {next : Refresh.Next} {version : Int}
    (hpc : (r.refreshes k).version? = some version)
    (hnext : next = .fail ∨ next.version? = some version) :
    KeepsVersions r ({ r with cache }.enter k next) j := by
  by_cases hj : j = k
  · subst hj
    cases next with
    | goto pc =>
      refine ⟨fun v hv => ?_, Or.inl rfl⟩
      simp only [Refresh.World.enter, Refresh.World.goto, Function.update_self] at hv
      rw [hpc, ← hv]
      exact (hnext.resolve_left fun he => by cases he).symm
    | fail =>
      refine ⟨fun v hv => ?_, Or.inl rfl⟩
      simp [Refresh.World.enter, Refresh.World.fail, Refresh.PC.version?] at hv
    | install v now found =>
      refine ⟨fun v' hv' => ?_, Or.inr ⟨version, hpc, ?_⟩⟩
      · simp [Refresh.World.enter, Refresh.World.install, Refresh.PC.version?] at hv'
      · rcases hnext with he | he
        · cases he
        · simp only [Refresh.World.enter, Refresh.World.install, Function.update_self,
            CacheSnapshot.build_version]
          exact Option.some.inj he
  · cases next with
    | goto pc =>
      refine ⟨fun v hv => ?_, Or.inl rfl⟩
      simpa only [Refresh.World.enter, Refresh.World.goto, Function.update_of_ne hj] using hv
    | fail =>
      refine ⟨fun v hv => ?_, Or.inl rfl⟩
      simpa only [Refresh.World.enter, Refresh.World.fail, Function.update_of_ne hj] using hv
    | install v now found =>
      refine ⟨fun v' hv' => ?_, Or.inl ?_⟩
      · simpa only [Refresh.World.enter, Refresh.World.install, Function.update_of_ne hj] using hv'
      · simp only [Refresh.World.enter, Refresh.World.install, Function.update_of_ne hj]

theorem refresh_keeps (hbusy : r.refreshes l.server ≠ .idle) (h : Refresh.step r l = some r') :
    r'.cache.version = r.cache.version ∧ ∀ k, KeepsVersions r r' k := by
  obtain ⟨cache, next, hmoves, rfl⟩ := Refresh.step_moved h
  obtain ⟨version, hversion⟩ := version_of_busy hbusy
  refine ⟨?_, fun k => enter_keeps hversion (hmoves.version hversion)⟩
  cases next with
  | goto pc | fail | install v now found => exact hmoves.cache_version

end Refresh

structure Bounded (w : World) : Prop where
  snapshots : ∀ k, (w.refresh.snapshots k).version ≤ w.refresh.cache.version
  refreshes : ∀ k version, (w.refresh.refreshes k).version? = some version →
    version ≤ w.refresh.cache.version
  calls : ∀ call ∈ w.calls, ∀ version, call.pc.version? = some version →
    version ≤ w.refresh.cache.version

theorem Bounded.raise {w : World} (hw : Bounded w) {cache : SharedCache}
    (h : w.refresh.cache.version ≤ cache.version) : Bounded (w.setCache cache) where
  snapshots k := (hw.snapshots k).trans h
  refreshes k version hv := (hw.refreshes k version hv).trans h
  calls call hc version hv := (hw.calls call hc version hv).trans h

theorem Bounded.setCall {w : World} (hw : Bounded w) {c : Nat} {call : Call}
    (h : ∀ version, call.pc.version? = some version → version ≤ w.refresh.cache.version) :
    Bounded (w.setCall c call) := by
  refine ⟨hw.snapshots, hw.refreshes, fun other ho => ?_⟩
  rcases List.mem_or_eq_of_mem_set ho with ho | rfl
  · exact hw.calls other ho
  · exact h

theorem apply_version_le (c : SharedCache) (write : SharedCache.Write) :
    c.version ≤ (c.apply write).version := by
  cases write with
  | setGlobalMail mail now => exact le_refl _
  | addGlobalMailToIndexes mail => exact le_refl _
  | advanceGlobalMailVersion target => exact (SharedCache.le_advance c target).1

theorem mem_finished {after : Refresh.World} {server : Nat} {calls : List Call} {call : Call}
    (h : call ∈ finished after server calls) :
    call ∈ calls ∨ call.pc.version? = none := by
  unfold finished at h
  split at h
  · obtain ⟨old, hold, rfl⟩ := List.mem_map.mp h
    unfold Call.finish
    split
    · split_ifs
      · exact Or.inr rfl
      · exact Or.inl hold
    · exact Or.inl hold
  · exact Or.inl h

theorem Bounded.lock {w : World} (hw : Bounded w) {version : Int} (hbound : version ≤ w.refresh.cache.version)
    (server : Nat) (now : Time) :
    Bounded { w with refresh := w.refresh.goto server (.readIndex version now false) } := by
  refine ⟨hw.snapshots, fun k v hv => ?_, hw.calls⟩
  simp only [Refresh.World.goto, Function.update_apply] at hv
  split_ifs at hv
  · exact Option.some.inj hv ▸ hbound
  · exact hw.refreshes k v hv

theorem bounded_step {w w' : World} {l : Label} (hw : Bounded w) (h : step w l = some w') : Bounded w' := by
  cases step_inv h with
  | begin =>
    refine ⟨hw.snapshots, hw.refreshes, fun call hcall => ?_⟩
    rcases List.mem_append.mp hcall with hcall | hcall
    · exact hw.calls call hcall
    · rw [List.mem_singleton.mp hcall]
      exact fun version hv => by cases hv
  | @readVersion c server kind outcome hc =>
    apply hw.setCall
    intro version hv
    cases outcome with
    | failed err => cases hv
    | lost err => cases hv
    | ok => cases kind <;> exact le_of_eq (Option.some.inj hv).symm
  | @check c server kind version hc =>
    apply hw.setCall
    have hbound := hw.calls _ (List.mem_of_getElem? hc) version rfl
    split_ifs
    · exact fun v hv => by cases hv
    · exact fun v hv => Option.some.inj hv ▸ hbound
  | skip hc => exact hw.setCall fun v hv => by cases hv
  | @lock c server kind version now hc hidle hstale =>
    have hbound := hw.calls _ (List.mem_of_getElem? hc) version rfl
    exact (hw.lock hbound server now).setCall fun v hv => by cases hv
  | @refresh l r hbusy hl =>
    obtain ⟨hcache, hkeeps⟩ := refresh_keeps hbusy hl
    refine ⟨fun k => ?_, fun k v hv => ?_, fun call hcall v hv => ?_⟩
    · rw [hcache]
      rcases (hkeeps k).snapshot with he | ⟨version, hpc, he⟩
      · rw [he]
        exact hw.snapshots k
      · rw [he]
        exact hw.refreshes k version hpc
    · rw [hcache]
      exact hw.refreshes k v ((hkeeps k).refreshes v hv)
    · rw [hcache]
      rcases mem_finished hcall with hold | hnone
      · exact hw.calls call hold v hv
      · rw [hnone] at hv
        cases hv
  | write => exact hw.raise (apply_version_le _ _)
  | increment =>
    apply hw.raise
    change w.refresh.cache.version ≤ w.refresh.cache.version + 1
    omega
  | insert => exact ⟨hw.snapshots, hw.refreshes, hw.calls⟩

theorem bounded_init : Bounded init where
  snapshots k := le_refl _
  refreshes k version hv := by cases hv
  calls call hc := absurd hc List.not_mem_nil

def Ahead (w : World) : Prop :=
  ∀ k version, (w.refresh.refreshes k).version? = some version →
    (w.refresh.snapshots k).version ≤ version

def Rises (w w' : World) : Prop :=
  ∀ k, (w.refresh.snapshots k).version ≤ (w'.refresh.snapshots k).version

theorem not_overtaken {w : World} {c server : Nat} {kind : Kind} {version : Int} {now : Time}
    (hc : w.calls[c]? = some ⟨server, kind, .lock version⟩)
    (hok : overtakenForce w (.lock c now) = false)
    (hstale : kind = .ifStale → w.fresh server version = false) :
    (w.refresh.snapshots server).version ≤ version := by
  cases kind with
  | ifStale =>
    have hold := hstale rfl
    simp only [World.fresh, ge_iff_le, decide_eq_false_iff_not, not_le] at hold
    exact hold.le
  | force => simpa [overtakenForce, hc] using hok

theorem ahead_step {w w' : World} {l : Label} (hw : Ahead w) (hok : overtakenForce w l = false)
    (h : step w l = some w') : Ahead w' ∧ Rises w w' := by
  have same {x : World} (hr : x.refresh.refreshes = w.refresh.refreshes)
      (hs : x.refresh.snapshots = w.refresh.snapshots) : Ahead x ∧ Rises w x := by
    refine ⟨fun k v hv => ?_, fun k => ?_⟩
    · rw [hr] at hv
      rw [hs]
      exact hw k v hv
    · rw [hs]
  cases step_inv h with
  | begin | readVersion | check | skip | write | increment | insert => exact same rfl rfl
  | @lock c server kind version now hc hidle hstale =>
    have hle := not_overtaken hc hok hstale
    refine ⟨fun k v hv => ?_, fun k => le_refl _⟩
    simp only [World.setCall, Refresh.World.goto, Function.update_apply] at hv
    split_ifs at hv with hk
    · rw [← Option.some.inj hv, hk]
      exact hle
    · exact hw k v hv
  | @refresh l r hbusy hl =>
    obtain ⟨-, hkeeps⟩ := refresh_keeps hbusy hl
    have hrise : Rises w { refresh := r, calls := finished r l.server w.calls } := by
      intro k
      rcases (hkeeps k).snapshot with he | ⟨version, hpc, he⟩
      · exact (congrArg CacheSnapshot.version he).ge
      · exact (hw k version hpc).trans_eq he.symm
    refine ⟨fun k v hv => ?_, hrise⟩
    have hpc := (hkeeps k).refreshes v hv
    rcases (hkeeps k).snapshot with he | ⟨version, hpc', he⟩
    · exact (congrArg CacheSnapshot.version he).trans_le (hw k v hpc)
    · exact le_of_eq (he.trans (Option.some.inj (hpc'.symm.trans hpc)))

theorem snapshot_version_rises (before after : List Label) (s t : World) (hs : run step init before = some s)
    (ht : run step s after = some t) (k : Nat) :
    (t.refresh.snapshots k).version ≤ t.refresh.cache.version ∧
      (Guarded step (fun w l => overtakenForce w l = false) init (before ++ after) →
        (s.refresh.snapshots k).version ≤ (t.refresh.snapshots k).version) := by
  have hbounded : Bounded t :=
    run_invariant (fun w l w' hw hl => bounded_step hw hl) bounded_init (run_append.mpr ⟨s, hs, ht⟩)
  refine ⟨hbounded.snapshots k, fun hg => ?_⟩
  obtain ⟨hbefore, hafter⟩ := guarded_append hg hs
  have hinit : Ahead init := fun k version hv => by cases hv
  have hahead : Ahead s := guarded_invariant (fun w l w' hw hok hl => (ahead_step hw hok hl).1) hinit hbefore hs
  have hrises : Rises s t := (guarded_rule (fun w k => le_refl _)
    (fun u v x huv hvx k => (huv k).trans (hvx k)) (fun w l w' hw hok hl => ahead_step hw hok hl)
    hahead hafter ht).2
  exact hrises k

def emptyLoad : List Label := List.replicate 4 (.refresh (.work 0 0 7 .ok))

def forcedAt (version : Int) : List Label :=
  .write (.advanceGlobalMailVersion version) :: .begin 0 .force :: .readVersion 0 .ok :: .lock 0 0 :: emptyLoad

def polledAt (version : Int) : List Label :=
  .write (.advanceGlobalMailVersion version) :: .begin 0 .ifStale :: .readVersion 1 .ok :: .check 1 ::
    .lock 1 0 :: emptyLoad

def forced : World := (run step init (forcedAt 1)).get (by decide)

def polled : World := (run step forced (polledAt 2)).get (by decide)

theorem polled_version_rises :
    (forced.refresh.snapshots 0).version = 1 ∧ (polled.refresh.snapshots 0).version = 2 ∧
      (forced.refresh.snapshots 0).version ≤ (polled.refresh.snapshots 0).version ∧
      (polled.refresh.snapshots 0).version ≤ polled.refresh.cache.version := by
  have hforced : run step init (forcedAt 1) = some forced := (Option.some_get _).symm
  have hpolled : run step forced (polledAt 2) = some polled := (Option.some_get _).symm
  obtain ⟨hbound, hrises⟩ := snapshot_version_rises (forcedAt 1) (polledAt 2) forced polled hforced hpolled 0
  exact ⟨by decide, by decide, hrises (by decide), hbound⟩

def overtaken : List Label :=
  .write (.advanceGlobalMailVersion 1) :: .begin 0 .force :: .readVersion 0 .ok :: polledAt 2

def afterOvertaken : World := (run step init overtaken).get (by decide)

def afterForce : World := (run step afterOvertaken (.lock 0 1 :: emptyLoad)).get (by decide)

theorem overtaken_version_falls :
    run step init overtaken = some afterOvertaken ∧
      run step afterOvertaken (.lock 0 1 :: emptyLoad) = some afterForce ∧
      ¬ (afterOvertaken.refresh.snapshots 0).version ≤ (afterForce.refresh.snapshots 0).version :=
  ⟨(Option.some_get _).symm, (Option.some_get _).symm, by decide⟩

end GlobalMailSystem.RefreshCalls
