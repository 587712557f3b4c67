import GlobalMailSystem.RefreshCalls

namespace GlobalMailSystem

structure CacheSnapshot.Sound (snapshot : CacheSnapshot) (loaded : List GlobalMail) : Prop where
  active : ∀ id ∈ snapshot.activeMailIDs, (snapshot.mailsByID id).isSome
  servers : ∀ serverID, ∀ id ∈ snapshot.mailIDsByServer serverID, (snapshot.mailsByID id).isSome
  compiled : ∀ id mail, snapshot.mailsByID id = some mail →
    snapshot.compiledConditions id = compileConditions mail.conditions
  bounded : ∀ id, (snapshot.mailsByID id).isSome → id ≤ snapshot.maxGlobalMailID
  visible : ∀ profile now, ∀ mail ∈ snapshot.visibleMails profile now,
    mail ∈ loaded ∧ mail.Eligible profile now

theorem CacheSnapshot.sound_build (version : Int) (loaded : List GlobalMail) (now : Time) :
    (build version loaded now).Sound loaded where
  active id hid := by
    rw [build_activeMailIDs] at hid
    obtain ⟨mail, hm, rfl⟩ := List.mem_map.mp hid
    exact Option.isSome_iff_exists.mpr (build_mailsByID_isSome version now hm)
  servers serverID id hid := by
    obtain ⟨mail, hm, rfl, -⟩ := mem_mailIDsByServer.mp hid
    exact Option.isSome_iff_exists.mpr (build_mailsByID_isSome version now hm)
  compiled id mail h := build_compiledConditions h
  bounded id h := by
    obtain ⟨mail, hmail⟩ := Option.isSome_iff_exists.mp h
    obtain ⟨hm, rfl⟩ := build_mailsByID_mem hmail
    exact build_maxGlobalMailID hm
  visible profile now' mail h := by
    obtain ⟨id, -, hid⟩ := List.mem_filterMap.mp h
    obtain ⟨hmail, heligible⟩ := visible?_build.mp hid
    exact ⟨(build_mailsByID_mem hmail).1, heligible⟩

namespace Refresh

def Loads (w : World) (k : Nat) (version : Int) (now : Time) (loaded : List GlobalMail) : Prop :=
  ∃ cache, Moves w.mails w.cache (w.refreshes k) cache (.install version now loaded)

structure Frame (w w' : World) (k : Nat) : Prop where
  others : ∀ j, j ≠ k → w'.refreshes j = w.refreshes j ∧ w'.snapshots j = w.snapshots j
  own : w'.snapshots k = w.snapshots k ∨ ∃ version now loaded, Loads w k version now loaded ∧
    w'.snapshots k = .build version loaded now ∧ w'.refreshes k = .idle ∧
    w'.succeeded k = true

theorem step_frame {w w' : World} {l : Label} (h : step w l = some w') : Frame w w' l.server := by
  obtain ⟨cache, next, hmoves, rfl⟩ := step_moved h
  cases next with
  | goto pc | fail =>
    refine ⟨fun j hj => ⟨?_, rfl⟩, Or.inl rfl⟩
    exact Function.update_of_ne hj _ _
  | install version now loaded =>
    refine ⟨fun j hj => ?_, Or.inr ⟨version, now, loaded, ⟨cache, hmoves⟩, ?_⟩⟩
    · simp only [World.enter, World.install, Function.update_of_ne hj, and_self]
    · simp [World.enter, World.install]

end Refresh

namespace RefreshCalls

open Transition

def LoadedBy (ls : List Label) (k : Nat) (snapshot : CacheSnapshot) (loaded : List GlobalMail) : Prop :=
  ∃ as bs u version now, ls = as ++ bs ∧ run step init as = some u ∧
    Refresh.Loads u.refresh k version now loaded ∧ snapshot = .build version loaded now

theorem LoadedBy.append {ls : List Label} {k : Nat} {snapshot : CacheSnapshot} {loaded : List GlobalMail}
    (h : LoadedBy ls k snapshot loaded) (l : Label) : LoadedBy (ls ++ [l]) k snapshot loaded := by
  obtain ⟨as, bs, u, version, now, rfl, hrest⟩ := h
  exact ⟨as, bs ++ [l], u, version, now, List.append_assoc _ _ _, hrest⟩

def Provenance (ls : List Label) (w : World) : Prop :=
  ∀ k, w.refresh.snapshots k = .new 0 zeroTime ∨ ∃ loaded, LoadedBy ls k (w.refresh.snapshots k) loaded

theorem provenance_step {ls : List Label} {w w' : World} {l : Label} (hrun : run step init ls = some w)
    (hw : Provenance ls w) (h : step w l = some w') : Provenance (ls ++ [l]) w' := by
  have kept {k : Nat} (hk : w'.refresh.snapshots k = w.refresh.snapshots k) :
      w'.refresh.snapshots k = .new 0 zeroTime ∨
        ∃ loaded, LoadedBy (ls ++ [l]) k (w'.refresh.snapshots k) loaded := by
    rw [hk]
    exact (hw k).imp id fun ⟨loaded, hloaded⟩ => ⟨loaded, hloaded.append l⟩
  intro k
  cases step_inv h with
  | begin | readVersion | check | skip | lock | write | increment | insert => exact kept rfl
  | @refresh l r hbusy hl =>
    have hframe := Refresh.step_frame hl
    by_cases hk : k = l.server
    · subst hk
      rcases hframe.own with he | ⟨version, now, loaded, hloads, he, -, -⟩
      · exact kept he
      · exact Or.inr ⟨loaded, ls, [.refresh l], w, version, now, rfl, hrun, hloads, he⟩
    · exact kept (hframe.others k hk).2

def Holds (w : World) (k : Nat) : Prop :=
  ∃ (c : Nat) (call : Call) (version : Int),
    w.calls[c]? = some call ∧ call.server = k ∧ call.pc = .refreshing version

def Held (w : World) : Prop := ∀ k, w.refresh.refreshes k ≠ .idle → Holds w k

theorem Holds.setCall {w : World} {k c : Nat} {old call : Call} {refresh : Refresh.World}
    (h : Holds w k) (hc : w.calls[c]? = some old) (hold : ∀ version, old.pc ≠ .refreshing version) :
    Holds ({ w with refresh }.setCall c call) k := by
  obtain ⟨d, holder, version, hd, hserver, hpc⟩ := h
  refine ⟨d, holder, version, ?_, hserver, hpc⟩
  have hdc : d ≠ c := by
    rintro rfl
    exact hold version (Option.some.inj (hc.symm.trans hd) ▸ hpc)
  exact (getElem_set hc).trans ((if_neg hdc).trans hd)

theorem Holds.finished {w : World} {k server : Nat} {refresh : Refresh.World} (h : Holds w k)
    (hk : k ≠ server ∨ refresh.refreshes server ≠ .idle) :
    Holds { refresh, calls := finished refresh server w.calls } k := by
  obtain ⟨d, holder, version, hd, hserver, hpc⟩ := h
  refine ⟨d, holder, version, ?_, hserver, hpc⟩
  rcases getElem_finished refresh server d w.calls with he | ⟨hidle, he⟩
  · exact he.trans hd
  · have hne := hk.resolve_right fun hbusy => hbusy hidle
    change (RefreshCalls.finished refresh server w.calls)[d]? = some holder
    rw [he, hd, Option.map_some, Call.finish, hpc, if_neg (hserver ▸ hne)]

theorem held_step {w w' : World} {l : Label} (hw : Held w) (h : step w l = some w') : Held w' := by
  intro k hk
  cases step_inv h with
  | begin =>
    obtain ⟨d, holder, version, hd, hrest⟩ := hw k hk
    have hlt := (List.getElem?_eq_some_iff.mp hd).1
    exact ⟨d, holder, version, (List.getElem?_append_left hlt).trans hd, hrest⟩
  | readVersion hc => exact (hw k hk).setCall hc fun _ he => by cases he
  | check hc => exact (hw k hk).setCall hc fun _ he => by cases he
  | skip hc => exact (hw k hk).setCall hc fun _ he => by cases he
  | @lock c server kind version now hc hidle hstale =>
    by_cases hks : k = server
    · exact ⟨c, _, version, (getElem_set hc).trans (if_pos rfl), hks.symm, rfl⟩
    · simp only [World.setCall, Refresh.World.goto, Function.update_of_ne hks] at hk
      exact (hw k hk).setCall hc fun _ he => by cases he
  | @refresh l r hbusy hl =>
    by_cases hks : k = l.server
    · subst hks
      exact (hw _ hbusy).finished (Or.inr hk)
    · have hsame := ((Refresh.step_frame hl).others k hks).1
      exact (hw k (hsame ▸ hk)).finished (Or.inl hks)
  | write => exact hw k hk
  | increment => exact hw k hk
  | insert => exact hw k hk

structure Follows (w w' : World) : Prop where
  settled : ∀ (c : Nat) (call : Call) (ok : Bool), w.calls[c]? = some call → call.pc = .returned ok →
    w'.calls[c]? = some call
  changed : ∀ k, w'.refresh.snapshots k ≠ w.refresh.snapshots k → ∃ (c : Nat) (call : Call),
    w'.calls[c]? = some call ∧ call.server = k ∧ call.pc = .returned true ∧
      ∀ (old : Call) (ok : Bool), w.calls[c]? = some old → old.pc ≠ .returned ok

theorem Follows.refl (w : World) : Follows w w :=
  ⟨fun _ _ _ h _ => h, fun _ h => absurd rfl h⟩

theorem Follows.trans {u v w : World} (huv : Follows u v) (hvw : Follows v w) : Follows u w where
  settled c call ok h hpc := hvw.settled c call ok (huv.settled c call ok h hpc) hpc
  changed k hk := by
    by_cases hvk : w.refresh.snapshots k = v.refresh.snapshots k
    · obtain ⟨c, call, hc, hserver, hpc, hold⟩ := huv.changed k (hvk ▸ hk)
      exact ⟨c, call, hvw.settled c call true hc hpc, hserver, hpc, hold⟩
    · obtain ⟨c, call, hc, hserver, hpc, hold⟩ := hvw.changed k hvk
      refine ⟨c, call, hc, hserver, hpc, fun old ok ho hok => ?_⟩
      exact hold old ok (huv.settled c old ok ho hok) hok

theorem follows_setCall {w : World} {c : Nat} {old call : Call} {refresh : Refresh.World}
    (hc : w.calls[c]? = some old) (hold : ∀ ok, old.pc ≠ .returned ok)
    (hs : refresh.snapshots = w.refresh.snapshots) : Follows w ({ w with refresh }.setCall c call) where
  settled d other ok hd hpc := by
    have hdc : d ≠ c := by
      rintro rfl
      exact hold ok (Option.some.inj (hc.symm.trans hd) ▸ hpc)
    exact (getElem_set hc).trans ((if_neg hdc).trans hd)
  changed k hk := absurd (congrFun hs k) hk

theorem finish_returned {call : Call} {ok : Bool} (h : call.pc = .returned ok) (server : Nat) (ok' : Bool) :
    call.finish server ok' = call := by
  simp only [Call.finish, h]

theorem follows_refresh {w : World} {l : Refresh.Label} {r : Refresh.World} (hw : Held w)
    (hbusy : w.refresh.refreshes l.server ≠ .idle) (hl : Refresh.step w.refresh l = some r) :
    Follows w { refresh := r, calls := finished r l.server w.calls } where
  settled c call ok hc hpc := by
    rcases getElem_finished r l.server c w.calls with he | ⟨-, he⟩
    · exact he.trans hc
    · exact he.trans (by rw [hc, Option.map_some, finish_returned hpc])
  changed k hk := by
    have hframe := Refresh.step_frame hl
    have hks : k = l.server := by
      by_contra hne
      exact hk (hframe.others k hne).2
    subst hks
    obtain ⟨version, now, loaded, -, -, hidle, hsucceeded⟩ := hframe.own.resolve_left hk
    obtain ⟨c, call, v, hc, hserver, hpc⟩ := hw _ hbusy
    refine ⟨c, { call with pc := .returned true }, ?_, hserver, rfl, fun old ok ho hok => ?_⟩
    · simp only [finished, hidle, List.getElem?_map, hc, Option.map_some, Call.finish, hpc, hserver,
        if_true, hsucceeded]
    · rw [← Option.some.inj (hc.symm.trans ho), hpc] at hok
      cases hok

theorem follows_step {w w' : World} {l : Label} (hw : Held w) (h : step w l = some w') : Follows w w' := by
  cases step_inv h with
  | begin =>
    refine ⟨fun c call ok hc _ => ?_, fun _ hk => absurd rfl hk⟩
    exact (List.getElem?_append_left (List.getElem?_eq_some_iff.mp hc).1).trans hc
  | readVersion hc => exact follows_setCall hc (fun _ he => by cases he) rfl
  | check hc => exact follows_setCall hc (fun _ he => by cases he) rfl
  | skip hc => exact follows_setCall hc (fun _ he => by cases he) rfl
  | lock hc hidle hstale => exact follows_setCall hc (fun _ he => by cases he) rfl
  | refresh hbusy hl => exact follows_refresh hw hbusy hl
  | write | increment | insert => exact ⟨fun _ _ _ hc _ => hc, fun _ hk => absurd rfl hk⟩

theorem held_init : Held init := fun _ hk => absurd rfl hk

theorem snapshots_sound (ls ls' : List Label) (w w' : World) (h : run step init ls = some w)
    (h' : run step w ls' = some w') (k : Nat) :
    ((∀ (c : Nat) (call : Call), w'.calls[c]? = some call → call.server = k → call.pc = .returned true →
        w.calls[c]? = some call) → w'.refresh.snapshots k = w.refresh.snapshots k) ∧
      ∃ loaded, (w.refresh.snapshots k).Sound loaded ∧
        ((w.refresh.snapshots k = .new 0 zeroTime ∧ loaded = []) ∨
          LoadedBy ls k (w.refresh.snapshots k) loaded) := by
  have hheld : Held w := run_invariant (fun _ _ _ hs hl => held_step hs hl) held_init h
  have hfollows : Follows w w' :=
    run_relation Follows.refl (fun _ _ _ => Follows.trans)
      (fun s l t hs hl => ⟨held_step hs hl, follows_step hs hl⟩) hheld h'
  have hprovenance : Provenance ls w :=
    run_history (fun as u l v hrun hu hl => provenance_step hrun hu hl) (fun k => Or.inl rfl) h
  constructor
  · intro hnone
    by_contra hk
    obtain ⟨c, call, hc, hserver, hpc, hold⟩ := hfollows.changed k hk
    exact hold call true (hnone c call hc hserver hpc) hpc
  · rcases hprovenance k with hnew | ⟨loaded, hloaded⟩
    · refine ⟨[], ?_, Or.inl ⟨hnew, rfl⟩⟩
      rw [hnew]
      exact CacheSnapshot.sound_build 0 [] zeroTime
    · refine ⟨loaded, ?_, Or.inr hloaded⟩
      obtain ⟨as, bs, u, version, now, -, -, -, he⟩ := hloaded
      rw [he]
      exact CacheSnapshot.sound_build version loaded now

def openMail : GlobalMail :=
  { (default : GlobalMail) with id := 5, status := .published, expireTime := 90 * minute }

def filledLabels : List Label :=
  .insert openMail :: .begin 0 .force :: .readVersion 0 .ok :: .lock 0 0 ::
    List.replicate 6 (.refresh (.work 0 0 7 .ok))

def filled : World := (run step init filledLabels).get (by decide)

def refusedLabels : List Label :=
  [.begin 0 .force, .readVersion 1 .ok, .lock 1 1, .refresh (.work 0 1 7 (.failed "i/o timeout"))]

def refused : World := (run step filled refusedLabels).get (by decide)

theorem refused_sound :
    (filled.refresh.snapshots 0).activeMailIDs = [5] ∧
      refused.calls.map (·.pc) = [.returned true, .returned false] ∧
      refused.refresh.snapshots 0 = filled.refresh.snapshots 0 ∧
      ∃ loaded, (filled.refresh.snapshots 0).Sound loaded := by
  have hfilled : run step init filledLabels = some filled := (Option.some_get _).symm
  have hrefused : run step filled refusedLabels = some refused := (Option.some_get _).symm
  obtain ⟨hsame, loaded, hsound, -⟩ := snapshots_sound filledLabels refusedLabels filled refused hfilled hrefused 0
  refine ⟨by decide, by decide, hsame fun c call hc hserver hpc => ?_, loaded, hsound⟩
  have hcalls : refused.calls = filled.calls ++ [⟨0, .force, .returned false⟩] := by decide
  rw [hcalls] at hc
  by_cases hlt : c < filled.calls.length
  · exact (List.getElem?_append_left hlt).symm.trans hc
  · rw [List.getElem?_append_right (not_lt.mp hlt)] at hc
    rw [List.mem_singleton.mp (List.mem_of_getElem? hc)] at hpc
    cases hpc

end RefreshCalls

end GlobalMailSystem
