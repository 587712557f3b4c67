import GlobalMailSystem.RefreshSteps

/-!
`RefreshIfStale` and `ForceRefresh` on the `LocalCache`s of any number of player servers. A call reads
the version, takes the mutex of its server and runs `refresh`; the mutex is free when no refresh of
the server is in progress. Relays, publishers and `IncrementGlobalMailVersion` change Redis and MySQL
at any time.
-/

namespace GlobalMailSystem.RefreshCalls

open Transition

inductive Kind
  | ifStale
  | force
  deriving DecidableEq

inductive CallPC
  | readVersion
  | check (version : Int)
  | lock (version : Int)
  | refreshing (version : Int)
  | returned (ok : Bool)
  deriving DecidableEq

structure Call where
  server : Nat
  kind : Kind
  pc : CallPC
  deriving DecidableEq

structure World where
  refresh : Refresh.World
  calls : List Call

inductive Label
  | begin (server : Nat) (kind : Kind)
  | readVersion (c : Nat) (outcome : Outcome)
  | check (c : Nat)
  | lock (c : Nat) (now : Time)
  | refresh (l : Refresh.Label)
  | write (w : SharedCache.Write)
  | incrementGlobalMailVersion
  | insert (mail : GlobalMail)

def World.setCall (w : World) (c : Nat) (call : Call) : World :=
  { w with calls := w.calls.set c call }

def World.setCache (w : World) (cache : SharedCache) : World :=
  { w with refresh := { w.refresh with cache } }

def World.fresh (w : World) (server : Nat) (version : Int) : Bool :=
  (w.refresh.snapshots server).version ≥ version

def versionRead (kind : Kind) (version : Int) : Outcome → CallPC
  | .ok =>
    match kind with
    | .ifStale => .check version
    | .force => .lock version
  | _ => .returned false

def Call.finish (server : Nat) (ok : Bool) (call : Call) : Call :=
  match call.pc with
  | .refreshing _ => if call.server = server then { call with pc := .returned ok } else call
  | _ => call

def finished (after : Refresh.World) (server : Nat) (calls : List Call) : List Call :=
  match after.refreshes server with
  | .idle => calls.map (Call.finish server (after.succeeded server))
  | _ => calls

def step (w : World) : Label → Option World
  | .begin server kind => some { w with calls := w.calls ++ [⟨server, kind, .readVersion⟩] }
  | .readVersion c outcome =>
    match w.calls[c]? with
    | some ⟨server, kind, .readVersion⟩ =>
      some (w.setCall c ⟨server, kind, versionRead kind w.refresh.cache.version outcome⟩)
    | _ => none
  | .check c =>
    match w.calls[c]? with
    | some ⟨server, kind, .check version⟩ =>
      some (w.setCall c
        ⟨server, kind, if w.fresh server version then .returned true else .lock version⟩)
    | _ => none
  | .lock c now =>
    match w.calls[c]? with
    | some ⟨server, kind, .lock version⟩ =>
      match w.refresh.refreshes server with
      | .idle =>
        if kind = .ifStale ∧ w.fresh server version then
          some (w.setCall c ⟨server, kind, .returned true⟩)
        else
          (Refresh.step w.refresh (.start server version now)).map fun refresh =>
            { w with refresh }.setCall c ⟨server, kind, .refreshing version⟩
      | _ => none
    | _ => none
  | .refresh (.start _ _ _) => none
  | .refresh l =>
    (Refresh.step w.refresh l).map fun refresh =>
      { refresh, calls := finished refresh l.server w.calls }
  | .write write => some (w.setCache (w.refresh.cache.apply write))
  | .incrementGlobalMailVersion =>
    some (w.setCache { w.refresh.cache with version := w.refresh.cache.version + 1 })
  | .insert mail =>
    (w.refresh.mails.insert mail).map fun mails => { w with refresh := { w.refresh with mails } }

def init : World := ⟨Refresh.init .empty .empty, []⟩

inductive Step (w : World) : Label → World → Prop
  | begin {server : Nat} {kind : Kind} :
      Step w (.begin server kind) { w with calls := w.calls ++ [⟨server, kind, .readVersion⟩] }
  | readVersion {c server : Nat} {kind : Kind} {outcome : Outcome}
      (hc : w.calls[c]? = some ⟨server, kind, .readVersion⟩) :
      Step w (.readVersion c outcome)
        (w.setCall c ⟨server, kind, versionRead kind w.refresh.cache.version outcome⟩)
  | check {c server : Nat} {kind : Kind} {version : Int}
      (hc : w.calls[c]? = some ⟨server, kind, .check version⟩) :
      Step w (.check c) (w.setCall c
        ⟨server, kind, if w.fresh server version then .returned true else .lock version⟩)
  | skip {c server : Nat} {kind : Kind} {version : Int} {now : Time}
      (hc : w.calls[c]? = some ⟨server, kind, .lock version⟩) :
      Step w (.lock c now) (w.setCall c ⟨server, kind, .returned true⟩)
  | lock {c server : Nat} {kind : Kind} {version : Int} {now : Time}
      (hc : w.calls[c]? = some ⟨server, kind, .lock version⟩) (hidle : w.refresh.refreshes server = .idle)
      (hstale : kind = .ifStale → w.fresh server version = false) :
      Step w (.lock c now)
        ({ w with refresh := w.refresh.goto server (.readIndex version now false) }.setCall c
          ⟨server, kind, .refreshing version⟩)
  | refresh {l : Refresh.Label} {refresh : Refresh.World} (hbusy : w.refresh.refreshes l.server ≠ .idle)
      (hl : Refresh.step w.refresh l = some refresh) :
      Step w (.refresh l) { refresh, calls := finished refresh l.server w.calls }
  | write {write : SharedCache.Write} : Step w (.write write) (w.setCache (w.refresh.cache.apply write))
  | increment : Step w .incrementGlobalMailVersion
      (w.setCache { w.refresh.cache with version := w.refresh.cache.version + 1 })
  | insert {mail : GlobalMail} {mails : Table GlobalMail.id} :
      Step w (.insert mail) { w with refresh := { w.refresh with mails } }

theorem step_inv {w w' : World} {l : Label} (h : step w l = some w') : Step w l w' := by
  cases l with
  | begin server kind => cases h; exact .begin
  | readVersion c outcome =>
    simp only [step] at h
    split at h
    · rename_i hc
      cases h
      exact .readVersion hc
    · cases h
  | check c =>
    simp only [step] at h
    split at h
    · rename_i hc
      cases h
      exact .check hc
    · cases h
  | lock c now =>
    simp only [step] at h
    split at h
    · rename_i server kind version hc
      split at h
      · rename_i hidle
        split_ifs at h with hfresh
        · cases h
          exact .skip hc
        · simp only [Refresh.step, hidle, Option.map_some, Option.some.injEq] at h
          cases h
          refine .lock hc hidle fun hkind => ?_
          simpa [hkind] using hfresh
      · cases h
    · cases h
  | refresh l =>
    cases l with
    | start k version now => cases h
    | work | tick | timeout | cancel =>
      simp only [step, Option.map_eq_some_iff] at h
      obtain ⟨refresh, hl, rfl⟩ := h
      exact .refresh (Refresh.busy_of_not_start rfl hl) hl
  | write write => cases h; exact .write
  | incrementGlobalMailVersion => cases h; exact .increment
  | insert mail =>
    simp only [step, Option.map_eq_some_iff] at h
    obtain ⟨mails, -, rfl⟩ := h
    exact .insert

theorem getElem_set {calls : List Call} {c d : Nat} {old call : Call} (hc : calls[c]? = some old) :
    (calls.set c call)[d]? = if d = c then some call else calls[d]? := by
  rw [List.getElem?_set]
  have hlt := (List.getElem?_eq_some_iff.mp hc).1
  by_cases hd : c = d
  · simp [← hd, hlt]
  · simp [hd, Ne.symm hd]

theorem getElem_finished (after : Refresh.World) (server c : Nat) (calls : List Call) :
    (finished after server calls)[c]? = calls[c]? ∨
      (after.refreshes server = .idle ∧ (finished after server calls)[c]? =
        calls[c]?.map (Call.finish server (after.succeeded server))) := by
  unfold finished
  split
  · rename_i hidle
    exact Or.inr ⟨hidle, List.getElem?_map⟩
  · exact Or.inl rfl

end GlobalMailSystem.RefreshCalls
