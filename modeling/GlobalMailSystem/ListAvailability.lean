import GlobalMailSystem.DeletedFinal
import GlobalMailSystem.SnapshotSound

namespace GlobalMailSystem

def Refresh.PC.loads : Refresh.PC → Bool
  | .idle => false
  | .wait _ _ => false
  | .release _ _ _ _ => false
  | _ => true

namespace RefreshCalls

open Transition PlayerMail

def listResult (w : World) (c : Nat) (states : Except Unit StateTable) (profile : UserProfile) (now : Time) :
    Option (Except Unit (List MailItem)) :=
  match w.calls[c]? with
  | some ⟨server, _, .returned ok⟩ =>
    if ok then some (states.map fun states => listedItems states (w.refresh.snapshots server) profile now)
    else some (.error ())
  | _ => none

def refreshingOn (w : World) (c k : Nat) : Bool :=
  match w.calls[c]? with
  | some ⟨server, _, .refreshing _⟩ => server = k
  | _ => false

def failsLoad (c : Nat) (w : World) : Label → Bool
  | .readVersion _ .ok => false
  | .readVersion d _ => d = c
  | .refresh (.work _ _ _ .ok) => false
  | .refresh (.work k _ _ _) => refreshingOn w c k && (w.refresh.refreshes k).loads
  | _ => false

def Failing (c : Nat) (w : World) : Prop :=
  ∃ k kind, w.calls[c]? = some ⟨k, kind, .returned false⟩ ∨
    ∃ version v now token, w.calls[c]? = some ⟨k, kind, .refreshing version⟩ ∧
      w.refresh.refreshes k = .release v now token none

section Failing

variable {w w' : World} {c k : Nat} {kind : Kind} {version : Int}

theorem failing_fail (hc : w.calls[c]? = some ⟨k, kind, .refreshing version⟩) (r : Refresh.World) :
    Failing c { refresh := r.fail k, calls := finished (r.fail k) k w.calls } := by
  refine ⟨k, kind, Or.inl ?_⟩
  simp [finished, Refresh.World.fail, hc, Call.finish]

theorem failing_goto (hc : w.calls[c]? = some ⟨k, kind, .refreshing version⟩) (r : Refresh.World) (v : Int)
    (now : Time) (token : Int) :
    Failing c { refresh := r.goto k (.release v now token none)
                calls := finished (r.goto k (.release v now token none)) k w.calls } := by
  refine ⟨k, kind, Or.inr ⟨version, v, now, token, ?_, ?_⟩⟩
  · simp [finished, Refresh.World.goto, hc]
  · simp [Refresh.World.goto]

theorem failing_abort (hc : w.calls[c]? = some ⟨k, kind, .refreshing version⟩) (r : Refresh.World) (v : Int)
    (now : Time) (lock : Option Int) :
    Failing c { refresh := Refresh.abort r k v now lock
                calls := finished (Refresh.abort r k v now lock) k w.calls } := by
  cases lock with
  | none => exact failing_fail hc r
  | some token => exact failing_goto hc r v now token

theorem abort_snapshots (r : Refresh.World) (k : Nat) (v : Int) (now : Time) (lock : Option Int) :
    (Refresh.abort r k v now lock).snapshots = r.snapshots := by
  cases lock <;> rfl

theorem failing_work {r : Refresh.World} {clock : Time} {token : Int} {outcome : Outcome}
    (hc : w.calls[c]? = some ⟨k, kind, .refreshing version⟩) (hfails : outcome ≠ .ok)
    (hloads : (w.refresh.refreshes k).loads = true)
    (hl : Refresh.step w.refresh (.work k clock token outcome) = some r) :
    r.snapshots = w.refresh.snapshots ∧ Failing c { refresh := r, calls := finished r k w.calls } := by
  simp only [Refresh.step] at hl
  cases hpc : w.refresh.refreshes k with
  | idle | wait | release => simp [hpc, Refresh.PC.loads] at hloads
  | readIndex v now polling =>
    rw [hpc] at hl
    cases outcome with
    | ok => exact absurd rfl hfails
    | failed err | lost err => cases hl; exact ⟨rfl, failing_fail hc _⟩
  | readDetails v now polling ids loaded =>
    rw [hpc] at hl
    cases outcome with
    | ok => exact absurd rfl hfails
    | failed err | lost err => cases hl; exact ⟨rfl, failing_fail hc _⟩
  | tryLock v now =>
    rw [hpc] at hl
    cases outcome with
    | ok => exact absurd rfl hfails
    | failed err | lost err => cases hl; exact ⟨rfl, failing_fail hc _⟩
  | readMySQL v now lock | setMail v now lock | addIndexes v now lock =>
    rw [hpc] at hl
    cases outcome with
    | ok => exact absurd rfl hfails
    | failed err | lost err => cases hl; exact ⟨abort_snapshots _ _ _ _ _, failing_abort hc _ _ _ _⟩

theorem failing_readVersion {outcome : Outcome} (hfailed : outcome ≠ .ok)
    (h : step w (.readVersion c outcome) = some w') :
    w'.refresh.snapshots = w.refresh.snapshots ∧ Failing c w' := by
  cases step_inv h with
  | @readVersion _ server kind _ hc =>
    refine ⟨rfl, server, kind, Or.inl ((getElem_set hc).trans ?_)⟩
    cases outcome with
    | ok => exact absurd rfl hfailed
    | failed err | lost err => simp [versionRead]

theorem refreshingOn_eq_true (h : refreshingOn w c k = true) :
    ∃ kind version, w.calls[c]? = some ⟨k, kind, .refreshing version⟩ := by
  unfold refreshingOn at h
  split at h
  · rename_i server kind version hc
    obtain rfl : server = k := by simpa using h
    exact ⟨kind, version, hc⟩
  · cases h

theorem failing_of_failsLoad {l : Label} (hfails : failsLoad c w l = true) (h : step w l = some w') :
    w'.refresh.snapshots = w.refresh.snapshots ∧ Failing c w' := by
  cases l with
  | readVersion d outcome =>
    cases outcome with
    | ok => cases hfails
    | failed err | lost err =>
      obtain rfl : d = c := by simpa [failsLoad] using hfails
      exact failing_readVersion (fun he => by cases he) h
  | refresh l =>
    cases l with
    | work k clock token outcome =>
      cases outcome with
      | ok => cases hfails
      | failed err | lost err =>
        obtain ⟨hon, hloads⟩ := Bool.and_eq_true_iff.mp hfails
        obtain ⟨kind, version, hc⟩ := refreshingOn_eq_true hon
        cases step_inv h with
        | refresh hbusy hl => exact failing_work hc (fun he => by cases he) hloads hl
    | start | tick | timeout | cancel => cases hfails
  | begin | check | lock | write | incrementGlobalMailVersion | insert => cases hfails

theorem returned_step {ok : Bool} {l : Label} (hc : w.calls[c]? = some ⟨k, kind, .returned ok⟩)
    (h : step w l = some w') : w'.calls[c]? = some ⟨k, kind, .returned ok⟩ := by
  have hset {d : Nat} {old call : Call} (hd : w.calls[d]? = some old) (hold : old.pc ≠ .returned ok) :
      (w.calls.set d call)[c]? = some ⟨k, kind, .returned ok⟩ := by
    have hne : c ≠ d := by
      rintro rfl
      rw [← Option.some.inj (hc.symm.trans hd)] at hold
      exact hold rfl
    rw [getElem_set hd, if_neg hne, hc]
  cases step_inv h with
  | begin => exact (List.getElem?_append_left (List.getElem?_eq_some_iff.mp hc).1).trans hc
  | readVersion hd | check hd | skip hd | lock hd => exact hset hd (fun he => by cases he)
  | @refresh l r hbusy hl =>
    rcases getElem_finished r l.server c w.calls with hsame | ⟨-, hmap⟩
    · exact hsame.trans hc
    · rw [hmap, hc, Option.map_some, finish_returned rfl]
  | write | increment | insert => exact hc

theorem finish_other {server : Nat} (h : k ≠ server) (ok : Bool) :
    Call.finish server ok ⟨k, kind, .refreshing version⟩ = ⟨k, kind, .refreshing version⟩ :=
  if_neg h

theorem failing_step {l : Label} (hw : Failing c w) (h : step w l = some w') : Failing c w' := by
  obtain ⟨k, kind, hc | ⟨version, v, now, token, hc, hpc⟩⟩ := hw
  · exact ⟨k, kind, Or.inl (returned_step hc h)⟩
  · have hset {d : Nat} {old call : Call} (hd : w.calls[d]? = some old) (hold : ∀ version, old.pc ≠ .refreshing version) :
        (w.calls.set d call)[c]? = some ⟨k, kind, .refreshing version⟩ := by
      have hne : c ≠ d := by
        rintro rfl
        rw [← Option.some.inj (hc.symm.trans hd)] at hold
        exact hold version rfl
      rw [getElem_set hd, if_neg hne, hc]
    cases step_inv h with
    | begin =>
      refine ⟨k, kind, Or.inr ⟨version, v, now, token, ?_, hpc⟩⟩
      exact (List.getElem?_append_left (List.getElem?_eq_some_iff.mp hc).1).trans hc
    | readVersion hd | check hd | skip hd =>
      exact ⟨k, kind, Or.inr ⟨version, v, now, token, hset hd (fun _ he => by cases he), hpc⟩⟩
    | @lock d server _ _ _ hd hidle =>
      have hother : k ≠ server := by
        rintro rfl
        rw [hpc] at hidle
        cases hidle
      refine ⟨k, kind, Or.inr ⟨version, v, now, token, hset hd (fun _ he => by cases he), ?_⟩⟩
      exact (Function.update_of_ne hother _ _).trans hpc
    | @refresh l r hbusy hl =>
      by_cases hserver : k = l.server
      · subst hserver
        obtain ⟨cache, next, hmoves, rfl⟩ := Refresh.step_moved hl
        rw [hpc] at hmoves
        cases hmoves with
        | fail _ => exact failing_fail hc _
        | givenUp => exact failing_fail hc _
      · refine ⟨k, kind, Or.inr ⟨version, v, now, token, ?_, ?_⟩⟩
        · rcases getElem_finished r l.server c w.calls with hsame | ⟨-, hmap⟩
          · exact hsame.trans hc
          · rw [hmap, hc, Option.map_some, finish_other hserver]
        · exact ((Refresh.step_frame hl).others k hserver).1.trans hpc
    | write | increment | insert => exact ⟨k, kind, Or.inr ⟨version, v, now, token, hc, hpc⟩⟩

end Failing

theorem failed_refresh_no_list (w v w' : World) (c : Nat) (l : Label) (ls : List Label)
    (hfails : failsLoad c w l = true) (hl : step w l = some v) (hrun : run step v ls = some w')
    (states : Except Unit StateTable) (profile : UserProfile) (now : Time) :
    v.refresh.snapshots = w.refresh.snapshots ∧
    (listResult w' c states profile now = some (.error ()) ∨
      listResult w' c states profile now = none ∧ ∃ k clock token outcome u,
        step w' (.refresh (.work k clock token outcome)) = some u ∧
          listResult u c states profile now = some (.error ())) := by
  obtain ⟨hsame, hv⟩ := failing_of_failsLoad hfails hl
  refine ⟨hsame, ?_⟩
  obtain ⟨k, kind, hc | ⟨version, t, at', token, hc, hpc⟩⟩ : Failing c w' :=
    run_invariant (fun _ _ _ hs hstep => failing_step hs hstep) hv hrun
  · left
    simp [listResult, hc]
  · right
    refine ⟨by simp [listResult, hc], k, at', token, .failed "", ?_⟩
    refine ⟨{ refresh := w'.refresh.fail k, calls := finished (w'.refresh.fail k) k w'.calls }, ?_, ?_⟩
    · simp [step, Refresh.step, Refresh.work, hpc, Outcome.executed, Refresh.Label.server]
    · simp [listResult, finished, Refresh.World.fail, hc, Call.finish]

def refusedLabel : Label := .readVersion 1 (.failed "i/o timeout")

def askedCall : World := (run step filled [.begin 0 .ifStale]).get (by decide)

def refusedRead : World := (run step askedCall [refusedLabel]).get (by decide)

theorem refusedRead_refuses :
    askedCall.refresh.snapshots 0 = refusedRead.refresh.snapshots 0 ∧
      listResult refusedRead 1 (.ok .empty) default 1 = some (.error ()) := by
  have hstep : step askedCall refusedLabel = some refusedRead := rfl
  obtain ⟨hsame, herror | ⟨hnone, -⟩⟩ := failed_refresh_no_list askedCall refusedRead refusedRead 1 refusedLabel []
    (by decide) hstep rfl (.ok .empty) default 1
  · exact ⟨(congrFun hsame 0).symm, herror⟩
  · cases hnone

theorem refusedRead_no_list :
    refusedRead.refresh.snapshots 0 = filled.refresh.snapshots 0 ∧
      (listedItems .empty (filled.refresh.snapshots 0) default 1).length = 1 ∧
      listResult refusedRead 1 (.ok .empty) default 1 = some (.error ()) := by
  exact ⟨rfl, by decide, rfl⟩

end RefreshCalls

end GlobalMailSystem
