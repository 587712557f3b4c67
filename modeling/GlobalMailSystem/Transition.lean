import Mathlib.Data.List.Basic

namespace GlobalMailSystem

/-- What the caller of a remote call sees; after `lost` the call has taken effect all the same. -/
inductive Outcome
  | ok
  | failed (err : String)
  | lost (err : String)

def Outcome.executed : Outcome → Bool
  | .failed _ => false
  | _ => true

namespace Transition

variable {σ ℓ : Type}

def run (step : σ → ℓ → Option σ) : σ → List ℓ → Option σ
  | s, [] => some s
  | s, l :: ls => (step s l).bind fun t => run step t ls

/-- Every step the run takes is allowed by `ok` in the state it is taken from. -/
def Guarded (step : σ → ℓ → Option σ) (ok : σ → ℓ → Prop) : σ → List ℓ → Prop
  | _, [] => True
  | s, l :: ls => ok s l ∧ ∀ t, step s l = some t → Guarded step ok t ls

instance Guarded.decidable (step : σ → ℓ → Option σ) (ok : σ → ℓ → Prop)
    [∀ s l, Decidable (ok s l)] : ∀ s ls, Decidable (Guarded step ok s ls)
  | _, [] => isTrue trivial
  | s, l :: ls =>
    match h : step s l with
    | none => decidable_of_iff (ok s l) ⟨fun hok => ⟨hok, fun t ht => by simp [h] at ht⟩, And.left⟩
    | some t =>
      have := Guarded.decidable step ok t ls
      decidable_of_iff (ok s l ∧ Guarded step ok t ls)
        ⟨fun hg => ⟨hg.1, fun u hu => Option.some.inj (h.symm.trans hu) ▸ hg.2⟩,
          fun hg => ⟨hg.1, hg.2 t h⟩⟩

def trace {ε : Type} (step : σ → ℓ → Option σ) (obs : σ → ℓ → List ε) : σ → List ℓ → List ε
  | _, [] => []
  | s, l :: ls =>
    match step s l with
    | none => []
    | some t => obs s l ++ trace step obs t ls

section Rules

variable {step : σ → ℓ → Option σ} {ok : σ → ℓ → Prop}

theorem run_cons {s u : σ} {l : ℓ} {ls : List ℓ} :
    run step s (l :: ls) = some u ↔ ∃ t, step s l = some t ∧ run step t ls = some u := by
  simp only [run, Option.bind_eq_some_iff]

theorem run_append {s u : σ} {as bs : List ℓ} :
    run step s (as ++ bs) = some u ↔ ∃ t, run step s as = some t ∧ run step t bs = some u := by
  induction as generalizing s with
  | nil => simp [run]
  | cons l as ih =>
    rw [List.cons_append, run_cons]
    constructor
    · rintro ⟨t, hl, hrest⟩
      obtain ⟨v, has, hbs⟩ := ih.mp hrest
      exact ⟨v, run_cons.mpr ⟨t, hl, has⟩, hbs⟩
    · rintro ⟨v, hall, hbs⟩
      obtain ⟨t, hl, has⟩ := run_cons.mp hall
      exact ⟨t, hl, ih.mpr ⟨v, has, hbs⟩⟩

theorem guarded_rule {I : σ → Prop} {R : σ → σ → Prop} (hrefl : ∀ s, R s s)
    (htrans : ∀ s t u, R s t → R t u → R s u)
    (hstep : ∀ s l t, I s → ok s l → step s l = some t → I t ∧ R s t)
    {s t : σ} {ls : List ℓ} (hs : I s) (hg : Guarded step ok s ls) (h : run step s ls = some t) :
    I t ∧ R s t := by
  induction ls generalizing s with
  | nil =>
    simp only [run, Option.some.injEq] at h
    exact h ▸ ⟨hs, hrefl s⟩
  | cons l ls ih =>
    obtain ⟨u, hl, hrest⟩ := run_cons.mp h
    obtain ⟨hu, hsu⟩ := hstep s l u hs hg.1 hl
    obtain ⟨ht, hut⟩ := ih hu (hg.2 u hl) hrest
    exact ⟨ht, htrans s u t hsu hut⟩

theorem guarded_invariant {I : σ → Prop}
    (hstep : ∀ s l t, I s → ok s l → step s l = some t → I t)
    {s t : σ} {ls : List ℓ} (hs : I s) (hg : Guarded step ok s ls)
    (h : run step s ls = some t) : I t :=
  (guarded_rule (R := fun _ _ => True) (fun _ => trivial) (fun _ _ _ _ _ => trivial)
    (fun s l t hs hok hl => ⟨hstep s l t hs hok hl, trivial⟩) hs hg h).1

theorem guarded_relation {R : σ → σ → Prop} (hrefl : ∀ s, R s s)
    (htrans : ∀ s t u, R s t → R t u → R s u) (hstep : ∀ s l t, ok s l → step s l = some t → R s t)
    {s t : σ} {ls : List ℓ} (hg : Guarded step ok s ls) (h : run step s ls = some t) : R s t :=
  have hrule := guarded_rule hrefl htrans
    (fun s l t (_ : True) hok hl => ⟨trivial, hstep s l t hok hl⟩) trivial hg h
  hrule.2

theorem guarded_true (s : σ) (ls : List ℓ) : Guarded step (fun _ _ => True) s ls := by
  induction ls generalizing s with
  | nil => trivial
  | cons l ls ih => exact ⟨trivial, fun t _ => ih t⟩

theorem run_invariant {I : σ → Prop} (hstep : ∀ s l t, I s → step s l = some t → I t)
    {s t : σ} {ls : List ℓ} (hs : I s) (h : run step s ls = some t) : I t :=
  guarded_invariant (fun s l t hs _ hl => hstep s l t hs hl) hs (guarded_true s ls) h

theorem run_relation {I : σ → Prop} {R : σ → σ → Prop} (hrefl : ∀ s, R s s)
    (htrans : ∀ s t u, R s t → R t u → R s u)
    (hstep : ∀ s l t, I s → step s l = some t → I t ∧ R s t)
    {s t : σ} {ls : List ℓ} (hs : I s) (h : run step s ls = some t) : R s t :=
  (guarded_rule hrefl htrans (fun s l t hs _ hl => hstep s l t hs hl) hs (guarded_true s ls) h).2

theorem run_snoc {s t u : σ} {as : List ℓ} {l : ℓ} (h : run step s as = some t)
    (hl : step t l = some u) : run step s (as ++ [l]) = some u :=
  run_append.mpr ⟨t, h, run_cons.mpr ⟨u, hl, rfl⟩⟩

theorem run_history {P : List ℓ → σ → Prop} {s t : σ} {ls : List ℓ}
    (hstep : ∀ as u l v, run step s as = some u → P as u → step u l = some v → P (as ++ [l]) v)
    (hs : P [] s) (h : run step s ls = some t) : P ls t := by
  have hfrom : ∀ ls as u, run step s as = some u → P as u → run step u ls = some t → P (as ++ ls) t := by
    intro ls
    induction ls with
    | nil =>
      intro as u _ hu hrun
      simp only [run, Option.some.injEq] at hrun
      simpa [hrun] using hu
    | cons l ls ih =>
      intro as u has hu hrun
      obtain ⟨v, hl, hrest⟩ := run_cons.mp hrun
      simpa using ih (as ++ [l]) v (run_snoc has hl) (hstep as u l v has hu hl) hrest
  exact hfrom ls [] s rfl hs h

theorem reachable_invariant {I : σ → Prop} {s t : σ} {ls : List ℓ}
    (hstep : ∀ as u l v, run step s as = some u → I u → step u l = some v → I v) (hs : I s)
    (h : run step s ls = some t) : I t :=
  run_history (P := fun _ u => I u) hstep hs h

theorem trace_append {ε : Type} {obs : σ → ℓ → List ε} {s t : σ} {as bs : List ℓ}
    (h : run step s as = some t) :
    trace step obs s (as ++ bs) = trace step obs s as ++ trace step obs t bs := by
  induction as generalizing s with
  | nil =>
    simp only [run, Option.some.injEq] at h
    subst h
    rfl
  | cons l as ih =>
    obtain ⟨u, hl, hrest⟩ := run_cons.mp h
    simp only [List.cons_append, trace, hl, List.append_assoc]
    rw [ih hrest]

theorem run_trace {ε : Type} {obs : σ → ℓ → List ε} {P : List ε → σ → Prop} {s t : σ} {ls : List ℓ}
    (hstep : ∀ as u l v, run step s as = some u → P (trace step obs s as) u → step u l = some v →
      P (trace step obs s as ++ obs u l) v)
    (hs : P [] s) (h : run step s ls = some t) : P (trace step obs s ls) t := by
  apply run_history (P := fun as u => P (trace step obs s as) u) ?_ hs h
  intro as u l v hrun hu hl
  rw [trace_append hrun]
  simpa [trace, hl] using hstep as u l v hrun hu hl

theorem run_crossing {P : σ → Prop} {s t : σ} {ls : List ℓ} (hs : ¬ P s) (ht : P t)
    (h : run step s ls = some t) :
    ∃ as l bs u v, ls = as ++ l :: bs ∧ run step s as = some u ∧ step u l = some v ∧ ¬ P u ∧ P v := by
  induction ls generalizing s with
  | nil => simp only [run, Option.some.injEq] at h; exact absurd (h ▸ ht) hs
  | cons l ls ih =>
    obtain ⟨u, hl, hrest⟩ := run_cons.mp h
    by_cases hu : P u
    · exact ⟨[], l, ls, s, u, rfl, rfl, hl, hs, hu⟩
    · obtain ⟨as, l', bs, v, x, rfl, hv, hx, hnot, hp⟩ := ih hu hrest
      exact ⟨l :: as, l', bs, v, x, rfl, run_cons.mpr ⟨u, hl, hv⟩, hx, hnot, hp⟩

theorem run_length_le {own : ℓ → Prop} {rank : σ → Nat}
    (hstep : ∀ s l t, own l → step s l = some t → rank t < rank s) {s t : σ} {ls : List ℓ}
    (hown : ∀ l ∈ ls, own l) (h : run step s ls = some t) : ls.length + rank t ≤ rank s := by
  induction ls generalizing s with
  | nil =>
    simp only [run, Option.some.injEq] at h
    simp [h]
  | cons l ls ih =>
    obtain ⟨u, hl, hrest⟩ := run_cons.mp h
    have hlower := hstep s l u (hown l List.mem_cons_self) hl
    have htail := ih (fun x hx => hown x (List.mem_cons_of_mem _ hx)) hrest
    simp only [List.length_cons]
    omega

theorem guarded_of_forall {s : σ} {ls : List ℓ}
    (h : ∀ as l bs t, ls = as ++ l :: bs → run step s as = some t → ok t l) :
    Guarded step ok s ls := by
  induction ls generalizing s with
  | nil => trivial
  | cons l ls ih =>
    refine ⟨h [] l ls s rfl rfl, fun t hl => ih ?_⟩
    intro as l' bs u he hrun
    apply h (l :: as) l' bs u (by rw [he]; rfl)
    exact run_cons.mpr ⟨t, hl, hrun⟩

theorem guarded_of_labels {s : σ} {ls : List ℓ} (h : ∀ l ∈ ls, ∀ s, ok s l) : Guarded step ok s ls := by
  apply guarded_of_forall
  rintro as l bs t rfl _
  exact h l (List.mem_append_right _ List.mem_cons_self) t

theorem guarded_mono {ok' : σ → ℓ → Prop} (hok : ∀ s l, ok s l → ok' s l) {s : σ} {ls : List ℓ}
    (h : Guarded step ok s ls) : Guarded step ok' s ls := by
  induction ls generalizing s with
  | nil => trivial
  | cons l ls ih => exact ⟨hok s l h.1, fun t ht => ih (h.2 t ht)⟩

theorem guarded_and {ok' : σ → ℓ → Prop} {s : σ} {ls : List ℓ} (h : Guarded step ok s ls)
    (h' : Guarded step ok' s ls) : Guarded step (fun s l => ok s l ∧ ok' s l) s ls := by
  induction ls generalizing s with
  | nil => trivial
  | cons l ls ih => exact ⟨⟨h.1, h'.1⟩, fun t ht => ih (h.2 t ht) (h'.2 t ht)⟩

theorem guarded_append {s t : σ} {as bs : List ℓ} (hg : Guarded step ok s (as ++ bs))
    (h : run step s as = some t) : Guarded step ok s as ∧ Guarded step ok t bs := by
  induction as generalizing s with
  | nil =>
    simp only [run, Option.some.injEq] at h
    exact ⟨trivial, h ▸ hg⟩
  | cons l as ih =>
    obtain ⟨u, hl, hrest⟩ := run_cons.mp h
    obtain ⟨hok, hnext⟩ := hg
    refine ⟨⟨hok, fun v hv => ?_⟩, (ih (hnext u hl) hrest).2⟩
    have he : u = v := Option.some.inj (hl.symm.trans hv)
    exact he ▸ (ih (hnext u hl) hrest).1

end Rules

def Reaches (step : σ → ℓ → Option σ) (own : ℓ → Prop) (s t : σ) : Prop :=
  ∃ ls, (∀ l ∈ ls, own l) ∧ run step s ls = some t

namespace Reaches

variable {step : σ → ℓ → Option σ} {own : ℓ → Prop}

theorem refl (s : σ) : Reaches step own s s := ⟨[], by simp, rfl⟩

theorem trans {s t u : σ} (hst : Reaches step own s t) (htu : Reaches step own t u) :
    Reaches step own s u := by
  obtain ⟨as, has, hs⟩ := hst
  obtain ⟨bs, hbs, ht⟩ := htu
  refine ⟨as ++ bs, fun l hl => ?_, run_append.mpr ⟨t, hs, ht⟩⟩
  rcases List.mem_append.mp hl with hl | hl
  · exact has l hl
  · exact hbs l hl

theorem head {s t u : σ} {l : ℓ} (hown : own l) (hl : step s l = some t)
    (h : Reaches step own t u) : Reaches step own s u :=
  trans ⟨[l], by simpa using hown, run_cons.mpr ⟨t, hl, rfl⟩⟩ h

theorem exhausts {rank : σ → Nat} (hstep : ∀ s l t, own l → step s l = some t → rank t < rank s) (s : σ) :
    ∃ t, Reaches step own s t ∧ ∀ l, own l → step t l = none := by
  induction hn : rank s using Nat.strongRecOn generalizing s with
  | ind n ih =>
    by_cases hlast : ∀ l, own l → step s l = none
    · exact ⟨s, refl s, hlast⟩
    · push Not at hlast
      obtain ⟨l, hown, hl⟩ := hlast
      obtain ⟨t, ht⟩ := Option.ne_none_iff_exists'.mp hl
      obtain ⟨u, hreach, hu⟩ := ih (rank t) (hn ▸ hstep s l t hown ht) t rfl
      exact ⟨u, head hown ht hreach, hu⟩

end Reaches

end Transition

end GlobalMailSystem
