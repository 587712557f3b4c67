import GlobalMailSystem.Transition
import Mathlib.Algebra.BigOperators.Group.List.Basic
import Mathlib.Algebra.Ring.Nat
import Mathlib.Data.List.Nodup
import Mathlib.Logic.Function.Basic

/-!
`singleflightGroup`: any number of `Do` calls with any keys. A caller takes the lock once to look up or to
register a call, runs `fn`, signals the wait group and takes the lock again to remove the entry; a caller
that has joined ends its wait some time after the signal.
-/

namespace GlobalMailSystem.Singleflight

open Transition

structure SingleflightCall (κ ν : Type) where
  key : κ
  runner : Nat
  val : Option ν
  err : Option String
  done : Bool

inductive CallerPC (ν : Type)
  | lookup
  | wait (call : Nat)
  | running (call : Nat)
  | signal (call : Nat)
  | remove (call : Nat)
  | returned (call : Nat) (val : Option ν) (err : Option String) (shared : Bool)

structure Caller (κ ν : Type) where
  key : κ
  pc : CallerPC ν

structure Execution (κ ν : Type) where
  call : Nat
  key : κ
  runner : Nat
  val : Option ν
  err : Option String

/-- `m` points into `calls`; `executions` is a log kept by the model only. -/
structure World (κ ν : Type) where
  m : κ → Option Nat
  calls : List (SingleflightCall κ ν)
  callers : List (Caller κ ν)
  executions : List (Execution κ ν)

inductive Label (κ ν : Type)
  | begin (key : κ)
  | lookup (i : Nat)
  | fnReturns (i : Nat) (val : Option ν) (err : Option String)
  | signal (i : Nat)
  | remove (i : Nat)
  | waitEnds (i : Nat)

variable {κ ν : Type}

def init : World κ ν := ⟨fun _ => none, [], [], []⟩

def World.goto (w : World κ ν) (i : Nat) (key : κ) (pc : CallerPC ν) : World κ ν :=
  { w with callers := w.callers.set i ⟨key, pc⟩ }

section Steps

variable [DecidableEq κ]

def World.register (w : World κ ν) (i : Nat) (key : κ) : World κ ν :=
  World.goto { w with
    m := Function.update w.m key (some w.calls.length)
    calls := w.calls ++ [⟨key, i, none, none, false⟩] } i key (.running w.calls.length)

def World.fnReturned (w : World κ ν) (i : Nat) (key : κ) (c : Nat) (val : Option ν) (err : Option String) :
    World κ ν :=
  World.goto { w with
    calls := w.calls.modify c fun call => { call with val, err }
    executions := w.executions ++ [⟨c, key, i, val, err⟩] } i key (.signal c)

def World.signalled (w : World κ ν) (i : Nat) (key : κ) (c : Nat) : World κ ν :=
  World.goto { w with calls := w.calls.modify c fun call => { call with done := true } } i key (.remove c)

def World.removed (w : World κ ν) (i : Nat) (key : κ) (c : Nat) (call : SingleflightCall κ ν) : World κ ν :=
  World.goto { w with m := Function.update w.m key none } i key (.returned c call.val call.err false)

def step (w : World κ ν) : Label κ ν → Option (World κ ν)
  | .begin key => some { w with callers := w.callers ++ [⟨key, .lookup⟩] }
  | .lookup i =>
    match w.callers[i]? with
    | some ⟨key, .lookup⟩ =>
      match w.m key with
      | some c => some (w.goto i key (.wait c))
      | none => some (w.register i key)
    | _ => none
  | .fnReturns i val err =>
    match w.callers[i]? with
    | some ⟨key, .running c⟩ => some (w.fnReturned i key c val err)
    | _ => none
  | .signal i =>
    match w.callers[i]? with
    | some ⟨key, .signal c⟩ => some (w.signalled i key c)
    | _ => none
  | .remove i =>
    match w.callers[i]? with
    | some ⟨key, .remove c⟩ => (w.calls[c]?).map (w.removed i key c)
    | _ => none
  | .waitEnds i =>
    match w.callers[i]? with
    | some ⟨key, .wait c⟩ =>
      match w.calls[c]? with
      | some call => if call.done then some (w.goto i key (.returned c call.val call.err true)) else none
      | none => none
    | _ => none

inductive Step (w : World κ ν) : Label κ ν → World κ ν → Prop
  | begin {key : κ} : Step w (.begin key) { w with callers := w.callers ++ [⟨key, .lookup⟩] }
  | join {i : Nat} {key : κ} {c : Nat} (hi : w.callers[i]? = some ⟨key, .lookup⟩) (hm : w.m key = some c) :
      Step w (.lookup i) (w.goto i key (.wait c))
  | register {i : Nat} {key : κ} (hi : w.callers[i]? = some ⟨key, .lookup⟩) (hm : w.m key = none) :
      Step w (.lookup i) (w.register i key)
  | fnReturns {i : Nat} {key : κ} {c : Nat} {val : Option ν} {err : Option String}
      (hi : w.callers[i]? = some ⟨key, .running c⟩) :
      Step w (.fnReturns i val err) (w.fnReturned i key c val err)
  | signal {i : Nat} {key : κ} {c : Nat} (hi : w.callers[i]? = some ⟨key, .signal c⟩) :
      Step w (.signal i) (w.signalled i key c)
  | remove {i : Nat} {key : κ} {c : Nat} {call : SingleflightCall κ ν}
      (hi : w.callers[i]? = some ⟨key, .remove c⟩) (hc : w.calls[c]? = some call) :
      Step w (.remove i) (w.removed i key c call)
  | waitEnds {i : Nat} {key : κ} {c : Nat} {call : SingleflightCall κ ν}
      (hi : w.callers[i]? = some ⟨key, .wait c⟩) (hc : w.calls[c]? = some call) (hdone : call.done = true) :
      Step w (.waitEnds i) (w.goto i key (.returned c call.val call.err true))

theorem step_inv {w w' : World κ ν} {l : Label κ ν} (h : step w l = some w') : Step w l w' := by
  cases l with
  | begin key => cases h; exact .begin
  | lookup i =>
    simp only [step] at h
    split at h
    · rename_i key hi
      split at h
      · rename_i c hm
        cases h; exact .join hi hm
      · rename_i hm
        cases h; exact .register hi hm
    · cases h
  | fnReturns i val err =>
    simp only [step] at h
    split at h
    · rename_i key c hi
      cases h; exact .fnReturns hi
    · cases h
  | signal i =>
    simp only [step] at h
    split at h
    · rename_i key c hi
      cases h; exact .signal hi
    · cases h
  | remove i =>
    simp only [step] at h
    split at h
    · rename_i key c hi
      obtain ⟨call, hc, rfl⟩ := Option.map_eq_some_iff.mp h
      exact .remove hi hc
    · cases h
  | waitEnds i =>
    simp only [step] at h
    split at h
    · rename_i key c hi
      split at h
      · rename_i call hc
        split_ifs at h with hdone
        cases h; exact .waitEnds hi hc hdone
      · cases h
    · cases h

end Steps

section Invariant

theorem goto_callers {w : World κ ν} {i : Nat} {caller : Caller κ ν} (hi : w.callers[i]? = some caller)
    (key : κ) (pc : CallerPC ν) (j : Nat) :
    (w.goto i key pc).callers[j]? = if i = j then some ⟨key, pc⟩ else w.callers[j]? := by
  obtain ⟨hlt, -⟩ := List.getElem?_eq_some_iff.mp hi
  simp only [World.goto, List.getElem?_set, hlt, if_true]

def Executed (w : World κ ν) (c : Nat) (call : SingleflightCall κ ν) : Prop :=
  ⟨c, call.key, call.runner, call.val, call.err⟩ ∈ w.executions

inductive Leads (w : World κ ν) (c : Nat) (call : SingleflightCall κ ν) : CallerPC ν → Prop
  | running (hm : w.m call.key = some c) (hdone : call.done = false) (hnone : ∀ e ∈ w.executions, e.call ≠ c) :
      Leads w c call (.running c)
  | signal (hm : w.m call.key = some c) (hdone : call.done = false) (hexec : Executed w c call) :
      Leads w c call (.signal c)
  | remove (hm : w.m call.key = some c) (hdone : call.done = true) (hexec : Executed w c call) :
      Leads w c call (.remove c)
  | returned (hm : w.m call.key ≠ some c) (hdone : call.done = true) (hexec : Executed w c call) :
      Leads w c call (.returned c call.val call.err false)

def CallerPC.led : CallerPC ν → Option Nat
  | .running c | .signal c | .remove c | .returned c _ _ false => some c
  | _ => none

def CallerOk (calls : List (SingleflightCall κ ν)) (i : Nat) (key : κ) : CallerPC ν → Prop
  | .lookup => True
  | .running c | .signal c | .remove c => ∃ call, calls[c]? = some call ∧ call.key = key ∧ call.runner = i
  | .wait c => ∃ call, calls[c]? = some call ∧ call.key = key ∧ call.runner ≠ i
  | .returned c val err shared => ∃ call, calls[c]? = some call ∧ call.key = key ∧
      (call.done = true ∧ call.val = val ∧ call.err = err) ∧ (shared = false ↔ call.runner = i)

structure Inv (w : World κ ν) : Prop where
  led : ∀ c call, w.calls[c]? = some call →
    ∃ pc, w.callers[call.runner]? = some ⟨call.key, pc⟩ ∧ Leads w c call pc
  callers : ∀ i key pc, w.callers[i]? = some ⟨key, pc⟩ → CallerOk w.calls i key pc
  map : ∀ key c, w.m key = some c → ∃ call, w.calls[c]? = some call ∧ call.key = key
  executed : ∀ e ∈ w.executions, ∃ call, w.calls[e.call]? = some call
  once : (w.executions.map (·.call)).Nodup

variable {w w' : World κ ν} {c d i : Nat} {call : SingleflightCall κ ν} {key : κ} {pc : CallerPC ν}

theorem Leads.led_eq (h : Leads w c call pc) : pc.led = some c := by
  cases h <;> rfl

theorem Leads.executed (h : Leads w c call pc) (hdone : call.done = true) : Executed w c call := by
  cases h with
  | running hm hfalse hnone => simp [hdone] at hfalse
  | signal hm hfalse hexec => exact hexec
  | remove hm htrue hexec => exact hexec
  | returned hm htrue hexec => exact hexec

theorem Leads.frame (hm : w'.m call.key = some c ↔ w.m call.key = some c)
    (hkept : ∀ e, e.call = c → (e ∈ w'.executions ↔ e ∈ w.executions)) (h : Leads w c call pc) :
    Leads w' c call pc := by
  have hexec (hexec : Executed w c call) : Executed w' c call := (hkept _ rfl).mpr hexec
  cases h with
  | running hmap hdone hnone =>
    refine .running (hm.mpr hmap) hdone fun e he hc => hnone e ((hkept e hc).mp he) hc
  | signal hmap hdone hold => exact .signal (hm.mpr hmap) hdone (hexec hold)
  | remove hmap hdone hold => exact .remove (hm.mpr hmap) hdone (hexec hold)
  | returned hmap hdone hold => exact .returned (mt hm.mp hmap) hdone (hexec hold)

theorem Leads.goto {pc' : CallerPC ν} (h : Leads w c call pc) : Leads (w.goto i key pc') c call pc :=
  h.frame (w := w) Iff.rfl fun _ _ => Iff.rfl

theorem CallerOk.frame {calls calls' : List (SingleflightCall κ ν)}
    (hcalls : ∀ (c : Nat) call, calls[c]? = some call → ∃ call', calls'[c]? = some call' ∧ call'.key = call.key ∧
      call'.runner = call.runner ∧ (call.done = true → call' = call)) (h : CallerOk calls i key pc) :
    CallerOk calls' i key pc := by
  cases pc with
  | lookup => trivial
  | running c | signal c | remove c | wait c =>
    obtain ⟨call, hc, hkey, hrunner⟩ := h
    obtain ⟨call', hc', hkey', hrunner', -⟩ := hcalls c call hc
    exact ⟨call', hc', hkey'.trans hkey, by rwa [hrunner']⟩
  | returned c val err shared =>
    obtain ⟨call, hc, hkey, hresult, hshared⟩ := h
    obtain ⟨call', hc', -, -, hsame⟩ := hcalls c call hc
    obtain rfl := hsame hresult.1
    exact ⟨call', hc', hkey, hresult, hshared⟩

theorem Inv.leader (hw : Inv w) (hc : w.calls[c]? = some call) (hi : w.callers[call.runner]? = some ⟨key, pc⟩) :
    call.key = key ∧ Leads w c call pc := by
  obtain ⟨pc', hpc, hlead⟩ := hw.led c call hc
  rw [hi] at hpc
  cases hpc
  exact ⟨rfl, hlead⟩

theorem Inv.led_of_runner (hw : Inv w) (hi : w.callers[i]? = some ⟨key, pc⟩) (hc : w.calls[c]? = some call)
    (hrunner : call.runner = i) : pc.led = some c := by
  subst hrunner
  exact (hw.leader hc hi).2.led_eq

theorem Inv.map_key (hw : Inv w) (hc : w.calls[c]? = some call) (key : κ) (hm : w.m key = some c) :
    call.key = key := by
  obtain ⟨call', hc', hkey⟩ := hw.map key c hm
  cases hc.symm.trans hc'
  exact hkey

theorem inv_follow (hw : Inv w) {pc' : CallerPC ν} (hi : w.callers[i]? = some ⟨key, pc⟩) (hled : pc.led = none)
    (hok : CallerOk w.calls i key pc') : Inv (w.goto i key pc') := by
  refine ⟨fun c call hc => ?_, fun j key' pc'' hj => ?_, hw.map, hw.executed, hw.once⟩
  · obtain ⟨pc'', hpc, hlead⟩ := hw.led c call hc
    have hne : i ≠ call.runner := by
      intro heq
      have := hw.led_of_runner hi hc heq.symm
      simp [hled] at this
    refine ⟨pc'', ?_, hlead.goto⟩
    rw [goto_callers hi, if_neg hne]
    exact hpc
  · rw [goto_callers hi] at hj
    split_ifs at hj with hij
    · cases hj
      exact hij ▸ hok
    · exact hw.callers j key' pc'' hj

theorem calls_kept {calls : List (SingleflightCall κ ν)}
    (hcalls : ∀ d : Nat, calls[d]? = if d = c then some call else w.calls[d]?)
    (hold : ∀ old, w.calls[c]? = some old → old.key = call.key ∧ old.runner = call.runner ∧
      (old.done = true → call = old)) (d : Nat) (old : SingleflightCall κ ν) (hd : w.calls[d]? = some old) :
    ∃ call', calls[d]? = some call' ∧ call'.key = old.key ∧ call'.runner = old.runner ∧
      (old.done = true → call' = old) := by
  by_cases hdc : d = c
  · subst hdc
    obtain ⟨hkey, hrunner, hsame⟩ := hold old hd
    exact ⟨call, by rw [hcalls, if_pos rfl], hkey.symm, hrunner.symm, hsame⟩
  · exact ⟨old, by rw [hcalls, if_neg hdc, hd], rfl, rfl, fun _ => rfl⟩

theorem inv_lead (hw : Inv w) (call : SingleflightCall κ ν) {calls : List (SingleflightCall κ ν)} {m : κ → Option Nat}
    {executions : List (Execution κ ν)} {pc' : CallerPC ν} (hi : w.callers[i]? = some ⟨call.key, pc⟩)
    (hled : ∀ d, pc.led = some d → d = c) (hrunner : call.runner = i)
    (hcalls : ∀ d : Nat, calls[d]? = if d = c then some call else w.calls[d]?)
    (hold : ∀ old, w.calls[c]? = some old → old.key = call.key ∧ old.runner = call.runner ∧
      (old.done = true → call = old))
    (hm : ∀ key d, d ≠ c → (m key = some d ↔ w.m key = some d)) (hmap : ∀ key, m key = some c → call.key = key)
    (hexecs : ∀ e, e.call ≠ c → (e ∈ executions ↔ e ∈ w.executions)) (honce : (executions.map (·.call)).Nodup)
    (hlead : Leads ⟨m, calls, w.callers, executions⟩ c call pc') (hok : CallerOk calls i call.key pc') :
    Inv (World.goto ⟨m, calls, w.callers, executions⟩ i call.key pc') := by
  set w' : World κ ν := ⟨m, calls, w.callers, executions⟩
  have hi' : w'.callers[i]? = some ⟨call.key, pc⟩ := hi
  have hself : calls[c]? = some call := by rw [hcalls, if_pos rfl]
  have hkept := calls_kept hcalls hold
  refine ⟨fun d old hd => ?_, fun j key' pc'' hj => ?_, fun key' d hd => ?_, fun e he => ?_, honce⟩
  · change calls[d]? = some old at hd
    rw [hcalls] at hd
    split_ifs at hd with hdc
    · cases hd
      subst hdc
      exact ⟨pc', by rw [goto_callers hi', if_pos hrunner.symm], hlead.goto⟩
    · -- another call has another leader, and nothing it depends on has moved
      obtain ⟨pc'', hpc, holdlead⟩ := hw.led d old hd
      have hne : i ≠ old.runner := fun heq => hdc (hled d (hw.led_of_runner hi hd heq.symm))
      refine ⟨pc'', by rw [goto_callers hi', if_neg hne]; exact hpc, holdlead.frame (hm _ d hdc) fun e he => ?_⟩
      exact hexecs e fun hc => hdc (he.symm.trans hc)
  · rw [goto_callers hi'] at hj
    split_ifs at hj with hij
    · cases hj
      exact hij ▸ hok
    · exact (hw.callers j key' pc'' hj).frame hkept
  · change m key' = some d at hd
    by_cases hdc : d = c
    · subst hdc
      exact ⟨call, hself, hmap key' hd⟩
    · obtain ⟨old, hd', hkey'⟩ := hw.map key' d ((hm key' d hdc).mp hd)
      exact ⟨old, ((hcalls d).trans (if_neg hdc)).trans hd', hkey'⟩
  · by_cases hec : e.call = c
    · exact ⟨call, hec ▸ hself⟩
    · obtain ⟨old, hd⟩ := hw.executed e ((hexecs e hec).mp he)
      obtain ⟨call', hcall', -⟩ := hkept e.call old hd
      exact ⟨call', hcall'⟩

theorem inv_init : Inv (init : World κ ν) := by
  refine ⟨fun c call hc => ?_, fun i key pc hi => ?_, fun key c hm => ?_, fun e he => ?_, List.nodup_nil⟩
  · simp [init] at hc
  · simp [init] at hi
  · cases hm
  · cases he

theorem inv_begin (hw : Inv w) (key : κ) : Inv { w with callers := w.callers ++ [⟨key, .lookup⟩] } := by
  refine ⟨fun c call hc => ?_, fun j key' pc hj => ?_, hw.map, hw.executed, hw.once⟩
  · obtain ⟨pc, hpc, hlead⟩ := hw.led c call hc
    obtain ⟨hlt, -⟩ := List.getElem?_eq_some_iff.mp hpc
    refine ⟨pc, (List.getElem?_append_left hlt).trans hpc, hlead.frame (w := w) Iff.rfl fun _ _ => Iff.rfl⟩
  · by_cases hlt : j < w.callers.length
    · exact hw.callers j key' pc ((List.getElem?_append_left hlt).symm.trans hj)
    · obtain ⟨hlt', -⟩ := List.getElem?_eq_some_iff.mp hj
      have hlast : j = w.callers.length := by
        simp only [List.length_append, List.length_singleton] at hlt'
        omega
      subst hlast
      simp only [List.getElem?_concat_length] at hj
      cases hj
      trivial

theorem Inv.leading (hw : Inv w) (hi : w.callers[i]? = some ⟨key, pc⟩)
    (hok : ∃ call, w.calls[c]? = some call ∧ call.key = key ∧ call.runner = i) :
    ∃ call, w.calls[c]? = some call ∧ call.key = key ∧ call.runner = i ∧ Leads w c call pc := by
  obtain ⟨call, hc, hkey, rfl⟩ := hok
  exact ⟨call, hc, hkey, rfl, (hw.leader hc hi).2⟩

theorem getElem?_modify_call {calls : List (SingleflightCall κ ν)} (hc : calls[c]? = some call)
    (f : SingleflightCall κ ν → SingleflightCall κ ν) (d : Nat) :
    (calls.modify c f)[d]? = if d = c then some (f call) else calls[d]? := by
  rw [List.getElem?_modify]
  by_cases hd : d = c
  · subst hd
    simp [hc]
  · simp [hd, Ne.symm hd]

theorem inv_fnReturned (hw : Inv w) (hi : w.callers[i]? = some ⟨key, .running c⟩) (val : Option ν)
    (err : Option String) : Inv (w.fnReturned i key c val err) := by
  obtain ⟨call, hc, rfl, rfl, hlead⟩ := hw.leading hi (hw.callers i key _ hi)
  cases hlead with
  | running hm hdone hnone =>
    have hcalls := getElem?_modify_call hc fun call => { call with val, err }
    refine inv_lead hw { call with val, err } hi (fun d hd => (Option.some.inj hd).symm) rfl hcalls ?_
      (fun _ _ _ => Iff.rfl) ?_ ?_ ?_ (.signal hm hdone ?_) ⟨_, (hcalls c).trans (if_pos rfl), rfl, rfl⟩
    · intro old hold
      cases hc.symm.trans hold
      exact ⟨rfl, rfl, fun h => by simp [hdone] at h⟩
    · exact fun key' hm' => hw.map_key hc key' hm'
    · intro e he
      simp only [List.mem_append, List.mem_singleton, or_iff_left_iff_imp]
      rintro rfl
      exact absurd rfl he
    · simp only [List.map_append, List.map_cons, List.map_nil]
      refine List.nodup_append.mpr ⟨hw.once, List.nodup_singleton _, ?_⟩
      simpa using hnone
    · exact List.mem_append_right _ List.mem_cons_self

theorem inv_signalled (hw : Inv w) (hi : w.callers[i]? = some ⟨key, .signal c⟩) : Inv (w.signalled i key c) := by
  obtain ⟨call, hc, rfl, rfl, hlead⟩ := hw.leading hi (hw.callers i key _ hi)
  cases hlead with
  | signal hm hdone hexec =>
    have hcalls := getElem?_modify_call hc fun call => { call with done := true }
    refine inv_lead hw { call with done := true } hi (fun d hd => (Option.some.inj hd).symm) rfl hcalls ?_
      (fun _ _ _ => Iff.rfl) (fun key' hm' => hw.map_key hc key' hm') (fun _ _ => Iff.rfl) hw.once
      (.remove hm rfl hexec) ⟨_, (hcalls c).trans (if_pos rfl), rfl, rfl⟩
    intro old hold
    cases hc.symm.trans hold
    exact ⟨rfl, rfl, fun h => by simp [hdone] at h⟩

variable [DecidableEq κ]

theorem inv_register (hw : Inv w) (hi : w.callers[i]? = some ⟨key, .lookup⟩) (hm : w.m key = none) :
    Inv (w.register i key) := by
  have hcalls (d : Nat) : (w.calls ++ [⟨key, i, none, none, false⟩])[d]? =
      if d = w.calls.length then some ⟨key, i, none, none, false⟩ else w.calls[d]? := by
    rw [List.getElem?_append]
    grind
  have hfresh (old : SingleflightCall κ ν) : w.calls[w.calls.length]? ≠ some old := by simp
  have hunused (e : Execution κ ν) (he : e ∈ w.executions) : e.call ≠ w.calls.length := by
    intro heq
    obtain ⟨call, hc⟩ := hw.executed e he
    exact hfresh call (heq ▸ hc)
  refine inv_lead hw _ hi (fun d hd => by cases hd) rfl hcalls (fun old hold => absurd hold (hfresh old)) ?_ ?_
    (fun _ _ => Iff.rfl) hw.once (.running (Function.update_self ..) rfl hunused)
    ⟨_, (hcalls _).trans (if_pos rfl), rfl, rfl⟩
  · intro key' d hd
    by_cases hkey : key' = key
    · subst hkey
      simp [hm, Ne.symm hd]
    · rw [Function.update_of_ne hkey]
  · intro key' hkey'
    by_contra hne
    rw [Function.update_of_ne (Ne.symm hne)] at hkey'
    obtain ⟨call, hc, -⟩ := hw.map key' _ hkey'
    exact hfresh call hc

theorem inv_removed (hw : Inv w) (hi : w.callers[i]? = some ⟨key, .remove c⟩) (hc : w.calls[c]? = some call) :
    Inv (w.removed i key c call) := by
  -- while the call is registered its key has no other entry, so removing by key removes just that one
  obtain ⟨call', hc', rfl, rfl, hlead⟩ := hw.leading hi (hw.callers i key _ hi)
  cases hc.symm.trans hc'
  cases hlead with
  | remove hm hdone hexec =>
    have hcalls (d : Nat) : w.calls[d]? = if d = c then some call else w.calls[d]? := by
      split_ifs with hd
      · rw [hd, hc]
      · rfl
    have hempty : Function.update w.m call.key none call.key ≠ some c := by simp
    refine inv_lead hw call hi (fun d hd => (Option.some.inj hd).symm) rfl hcalls ?_ ?_ ?_ (fun _ _ => Iff.rfl)
      hw.once (.returned hempty hdone hexec) ⟨call, hc, rfl, ⟨hdone, rfl, rfl⟩, by simp⟩
    · intro old hold
      cases hc.symm.trans hold
      exact ⟨rfl, rfl, fun _ => rfl⟩
    · intro key' d hd
      by_cases hkey : key' = call.key
      · subst hkey
        simp [hm, Ne.symm hd]
      · rw [Function.update_of_ne hkey]
    · intro key' hkey'
      by_contra hne
      rw [Function.update_of_ne (Ne.symm hne)] at hkey'
      exact hne (hw.map_key hc key' hkey')

theorem inv_step {l : Label κ ν} (hw : Inv w) (h : step w l = some w') : Inv w' := by
  cases step_inv h with
  | begin => exact inv_begin hw _
  | @join i key c hi hm =>
    obtain ⟨call, hc, hkey⟩ := hw.map key c hm
    refine inv_follow hw hi rfl ⟨call, hc, hkey, fun hrunner => ?_⟩
    have hled := hw.led_of_runner hi hc hrunner
    cases hled
  | register hi hm => exact inv_register hw hi hm
  | fnReturns hi => exact inv_fnReturned hw hi _ _
  | signal hi => exact inv_signalled hw hi
  | remove hi hc => exact inv_removed hw hi hc
  | @waitEnds i key c call hi hc hdone =>
    obtain ⟨call', hc', hkey, hrunner⟩ := hw.callers i key _ hi
    cases hc.symm.trans hc'
    exact inv_follow hw hi rfl ⟨call, hc, hkey, ⟨hdone, rfl, rfl⟩, by simp [hrunner]⟩

theorem inv_run {ls : List (Label κ ν)} (h : run step init ls = some w) : Inv w :=
  run_invariant (fun _ _ _ hw hl => inv_step hw hl) inv_init h

end Invariant

section Served

def CallerPC.inProgress : CallerPC ν → Bool
  | .returned .. => false
  | _ => true

def Label.own : Label κ ν → Bool
  | .begin _ => false
  | _ => true

def CallerPC.remaining : CallerPC ν → Nat
  | .lookup => 4
  | .running _ => 3
  | .signal _ => 2
  | .remove _ | .wait _ => 1
  | .returned .. => 0

def World.remaining (w : World κ ν) : Nat := (w.callers.map (·.pc.remaining)).sum

variable {w w' : World κ ν} {i j c d : Nat} {key : κ} {pc pc' : CallerPC ν}

theorem Inv.running_unique (hw : Inv w) (hi : w.callers[i]? = some ⟨key, .running c⟩)
    (hj : w.callers[j]? = some ⟨key, .running d⟩) : i = j := by
  obtain ⟨call, hc, rfl, rfl, hlead⟩ := hw.leading hi (hw.callers i key _ hi)
  obtain ⟨call', hd, hkey, rfl, hlead'⟩ := hw.leading hj (hw.callers j _ _ hj)
  cases hlead with
  | running hm hdone hnone =>
    cases hlead' with
    | running hm' hdone' hnone' =>
      -- both are the entry of one key
      rw [hkey, hm] at hm'
      cases hm'
      cases hc.symm.trans hd
      rfl

theorem Inv.result (hw : Inv w) {val : Option ν} {err : Option String} {shared : Bool}
    (hi : w.callers[i]? = some ⟨key, .returned c val err shared⟩) :
    ∃ e ∈ w.executions, (e.call = c ∧ e.key = key ∧ e.val = val ∧ e.err = err) ∧
      (shared = false ↔ e.runner = i) ∧ ∀ e' ∈ w.executions, e'.call = c → e' = e := by
  obtain ⟨call, hc, rfl, ⟨hdone, rfl, rfl⟩, hshared⟩ := hw.callers i key _ hi
  obtain ⟨pc, -, hlead⟩ := hw.led c call hc
  have hexec : _ ∈ w.executions := hlead.executed hdone
  refine ⟨_, hexec, ⟨rfl, rfl, rfl, rfl⟩, hshared, fun e' he' hc' => ?_⟩
  exact List.inj_on_of_nodup_map hw.once he' hexec hc'

theorem Inv.map_empty (hw : Inv w) (hdone : ∀ caller ∈ w.callers, caller.pc.inProgress = false) (key : κ) :
    w.m key = none := by
  by_contra hne
  obtain ⟨c, hm⟩ := Option.ne_none_iff_exists'.mp hne
  obtain ⟨call, hc, rfl⟩ := hw.map key c hm
  obtain ⟨pc, hpc, hlead⟩ := hw.led c call hc
  have hpc' := hdone _ (List.mem_of_getElem? hpc)
  cases hlead with
  | running | signal | remove => cases hpc'
  | returned hnot => exact hnot hm

theorem remaining_set (hi : w.callers[i]? = some ⟨key, pc⟩) (hset : w'.callers = w.callers.set i ⟨key, pc'⟩)
    (hlower : pc'.remaining < pc.remaining) : w'.remaining < w.remaining := by
  obtain ⟨hlt, hget⟩ := List.getElem?_eq_some_iff.mp hi
  have hlt' : i < (w.callers.map (·.pc.remaining)).length := by simpa using hlt
  have hsplit := List.sum_take_add_sum_drop (w.callers.map (·.pc.remaining)) i
  have hsum := List.sum_set (w.callers.map (·.pc.remaining)) i pc'.remaining
  simp only [List.drop_eq_getElem_cons hlt', List.sum_cons, List.getElem_map, hget] at hsplit
  rw [if_pos hlt'] at hsum
  simp only [World.remaining, hset, List.map_set]
  omega

variable [DecidableEq κ]

theorem remaining_step (w : World κ ν) (l : Label κ ν) (w' : World κ ν) (hl : l.own = true)
    (h : step w l = some w') : w'.remaining < w.remaining := by
  cases step_inv h with
  | begin => cases hl
  | join hi | register hi | fnReturns hi | signal hi | remove hi | waitEnds hi =>
    exact remaining_set hi rfl (by simp [CallerPC.remaining])

theorem Inv.progress (hw : Inv w) (hi : w.callers[i]? = some ⟨key, pc⟩) (hpc : pc.inProgress = true) :
    ∃ l : Label κ ν, l.own = true ∧ (step w l).isSome = true := by
  -- while a caller is in progress some step is enabled: a joined caller waits for a call whose runner can move,
  -- or that is done
  cases pc with
  | lookup =>
    refine ⟨.lookup i, rfl, ?_⟩
    simp only [step, hi]
    split <;> rfl
  | running c => exact ⟨.fnReturns i none none, rfl, by simp [step, hi]⟩
  | signal c => exact ⟨.signal i, rfl, by simp [step, hi]⟩
  | remove c =>
    obtain ⟨call, hc, -⟩ := hw.callers i key _ hi
    exact ⟨.remove i, rfl, by simp [step, hi, hc]⟩
  | wait c =>
    obtain ⟨call, hc, -⟩ := hw.callers i key _ hi
    obtain ⟨pc, hpc, hlead⟩ := hw.led c call hc
    cases hlead with
    | running => exact ⟨.fnReturns call.runner none none, rfl, by simp [step, hpc]⟩
    | signal => exact ⟨.signal call.runner, rfl, by simp [step, hpc]⟩
    | remove hm hdone | returned hm hdone => exact ⟨.waitEnds i, rfl, by simp [step, hi, hc, hdone]⟩
  | returned => cases hpc

theorem do_serves_every_caller (ls : List (Label κ ν)) (w : World κ ν) (h : run step init ls = some w) :
    (∀ (i j : Nat) key c d, w.callers[i]? = some ⟨key, .running c⟩ → w.callers[j]? = some ⟨key, .running d⟩ → i = j) ∧
    (∀ (i : Nat) key c val err shared, w.callers[i]? = some ⟨key, .returned c val err shared⟩ →
      ∃ e ∈ w.executions, (e.call = c ∧ e.key = key ∧ e.val = val ∧ e.err = err) ∧
        (shared = false ↔ e.runner = i) ∧ ∀ e' ∈ w.executions, e'.call = c → e' = e) ∧
    ((∀ caller ∈ w.callers, caller.pc.inProgress = false) → ∀ key, w.m key = none) ∧
    ∀ ls' w', (∀ l ∈ ls', Label.own l = true) → run step w ls' = some w' →
      ls'.length ≤ w.remaining ∧
      ((∀ l, Label.own l = true → step w' l = none) → ∀ caller ∈ w'.callers, caller.pc.inProgress = false) := by
  have hw := inv_run h
  refine ⟨fun i j key c d => hw.running_unique, fun i key c val err shared => hw.result, hw.map_empty,
    fun ls' w' hown hrest => ⟨?_, fun hstuck caller hcaller => ?_⟩⟩
  · have := run_length_le remaining_step hown hrest
    omega
  · have hw' : Inv w' := run_invariant (fun _ _ _ hinv hl => inv_step hinv hl) hw hrest
    obtain ⟨i, hi⟩ := List.getElem?_of_mem hcaller
    by_contra hprogress
    obtain ⟨l, hl, hstep⟩ := hw'.progress hi (Bool.not_eq_false _ ▸ hprogress)
    simp [hstuck l hl] at hstep

def lateJoin : List (Label Nat Nat) :=
  [.begin 7, .begin 7, .begin 7, .lookup 0, .fnReturns 0 (some 1) none, .signal 0, .lookup 1, .remove 0,
    .lookup 2, .waitEnds 1, .fnReturns 2 none (some "down"), .signal 2, .remove 2]

def afterLateJoin : World Nat Nat := (run step init lateJoin).get (by decide)

theorem lateJoin_served :
    (run step init lateJoin = some afterLateJoin ∧
      afterLateJoin.callers[1]? = some ⟨7, .returned 0 (some 1) none true⟩) ∧
    (∃ e ∈ afterLateJoin.executions, (e.call = 0 ∧ e.key = 7 ∧ e.val = some 1 ∧ e.err = none) ∧
      (true = false ↔ e.runner = 1) ∧ ∀ e' ∈ afterLateJoin.executions, e'.call = 0 → e' = e) ∧
    ∀ key, afterLateJoin.m key = none := by
  have hrun : run step init lateJoin = some afterLateJoin := (Option.some_get _).symm
  obtain ⟨-, hresult, hempty, -⟩ := do_serves_every_caller lateJoin afterLateJoin hrun
  exact ⟨⟨hrun, rfl⟩, hresult 1 7 0 (some 1) none true rfl, hempty (by decide)⟩

end Served

end GlobalMailSystem.Singleflight
