import GlobalMailSystem.RelayInvariants

namespace GlobalMailSystem.Relay

open Publisher Transition

def Label.call : Label → Option Nat
  | .publishBegin p _ _ _ _ _ => some p
  | .publishCreate p _ _ => some p
  | .publishCrash p => some p
  | .fetch .. | .work .. | .crash _ => none

section Moves

variable (sha256 : PublishPayload → String)

inductive Move (w w' : World) (p : Nat) : Label → Prop
  | other {l : Label} (hl : l.call ≠ some p) (h : w'.publishers p = w.publishers p) : Move w w' p l
  | started {cmd : PublishCommand} {now : Time} {newMailID eventID : Int} {failure : Option String}
      (hidle : w.publishers p = .idle) (hstore : w'.store = w.store)
      (h : w'.publishers p =
        publisherStart sha256 w.store.db cmd now newMailID eventID failure) :
      Move w w' p (.publishBegin p cmd now newMailID eventID failure)
  | created {auto : AutoIncrement} {rows : Rows} {outcome : Outcome} (hcreating : w.publishers p = .creating rows)
      (hstore : w'.store = (createResult w.store auto rows outcome).1)
      (h : w'.publishers p = (createResult w.store auto rows outcome).2) :
      Move w w' p (.publishCreate p auto outcome)
  | crashed (hstore : w'.store = w.store) (h : w'.publishers p = .returned (.error "crashed")) :
      Move w w' p (.publishCrash p)

variable {sha256} {config : Nat → Config}

theorem setPublisher_same (w : World) (p : Nat) (r : Store × PublisherPC) :
    (w.setPublisher p r).publishers p = r.2 := by
  simp [World.setPublisher]

theorem setPublisher_other {w : World} {p q : Nat} (r : Store × PublisherPC) (h : q ≠ p) :
    (w.setPublisher p r).publishers q = w.publishers q := by
  simp [World.setPublisher, h]

theorem step_move {w w' : World} {l : Label} (h : step sha256 config w l = some w') (p : Nat) :
    Move sha256 w w' p l := by
  have other {q : Nat} {l : Label} {r : Store × PublisherPC} (hl : l.call = some q) (hp : p ≠ q) :
      Move sha256 w (w.setPublisher q r) p l :=
    .other (fun he => hp (Option.some.inj (he.symm.trans hl))) (setPublisher_other _ hp)
  cases step_inv h with
  | @publishBegin q _ _ _ _ _ hidle =>
    by_cases hp : p = q
    · subst hp
      exact .started hidle rfl (setPublisher_same _ _ _)
    · exact other rfl hp
  | @publishCreate q _ _ _ hcreating =>
    by_cases hp : p = q
    · subst hp
      exact .created hcreating rfl (setPublisher_same _ _ _)
    · exact other rfl hp
  | @publishCrash q =>
    by_cases hp : p = q
    · subst hp
      exact .crashed rfl (setPublisher_same _ _ _)
    · exact other rfl hp
  | fetch | work | crash => exact .other (fun he => by cases he) rfl

end Moves

def Began (ls : List Label) (p : Nat) (cmd : PublishCommand) : Prop :=
  ∃ now newMailID eventID failure, .publishBegin p cmd now newMailID eventID failure ∈ ls

theorem Began.mono {as bs : List Label} {p : Nat} {cmd : PublishCommand} (h : Began as p cmd) :
    Began (as ++ bs) p cmd := by
  obtain ⟨now, newMailID, eventID, failure, hmem⟩ := h
  exact ⟨now, newMailID, eventID, failure, List.mem_append_left _ hmem⟩

theorem began_snoc {as : List Label} {l : Label} {p : Nat} {cmd : PublishCommand} :
    Began (as ++ [l]) p cmd ↔ Began as p cmd ∨
      ∃ now newMailID eventID failure, l = .publishBegin p cmd now newMailID eventID failure := by
  constructor
  · rintro ⟨now, newMailID, eventID, failure, hmem⟩
    rcases List.mem_append.mp hmem with hmem | hmem
    · exact Or.inl ⟨now, newMailID, eventID, failure, hmem⟩
    · exact Or.inr ⟨now, newMailID, eventID, failure, (List.mem_singleton.mp hmem).symm⟩
  · rintro (h | ⟨now, newMailID, eventID, failure, rfl⟩)
    · exact h.mono
    · exact ⟨now, newMailID, eventID, failure, List.mem_append_right _ (List.mem_singleton.mpr rfl)⟩

theorem began_other {as : List Label} {l : Label} {p : Nat} {cmd : PublishCommand}
    (hl : l.call ≠ some p) (h : Began (as ++ [l]) p cmd) : Began as p cmd := by
  rcases began_snoc.mp h with h | ⟨now, newMailID, eventID, failure, rfl⟩
  · exact h
  · exact absurd rfl hl

section Runs

variable {sha256 : PublishPayload → String} {config : Nat → Config}

theorem drafted_run {ls : List Label} {w : World} (h : run (step sha256 config) init ls = some w)
    {p : Nat} {rows : Rows} (hp : w.publishers p = .creating rows) :
    ∃ cmd now newMailID eventID, Began ls p cmd ∧
      rows = publishRows sha256 (defaultAction cmd) now newMailID eventID := by
  refine run_history (P := fun as u => ∀ p rows, u.publishers p = .creating rows →
    ∃ cmd now newMailID eventID, Began as p cmd ∧
      rows = publishRows sha256 (defaultAction cmd) now newMailID eventID) ?_ ?_ h p rows hp
  · intro as u l v _ hu hl p rows hp
    cases step_move hl p with
    | other _ hsame =>
      obtain ⟨cmd, now, newMailID, eventID, hbegan, hrows⟩ := hu p rows (hsame ▸ hp)
      exact ⟨cmd, now, newMailID, eventID, hbegan.mono, hrows⟩
    | @started cmd now newMailID eventID failure _ _ hstart =>
      refine ⟨cmd, now, newMailID, eventID, ⟨now, newMailID, eventID, failure, ?_⟩,
        publisherStart_creating (hstart ▸ hp)⟩
      exact List.mem_append_right _ (List.mem_singleton.mpr rfl)
    | created _ _ hresult => exact absurd (hresult ▸ hp) (createResult_returned _ _ _ _ _)
    | crashed _ hcrash =>
      rw [hcrash] at hp
      cases hp
  · intro p rows hp
    cases hp

theorem publisherStart_not_idle {db : Database} {cmd : PublishCommand} {now : Time}
    {newMailID eventID : Int} {failure : Option String} :
    publisherStart sha256 db cmd now newMailID eventID failure ≠ .idle := by
  intro h
  cases failure with
  | some err => cases h
  | none =>
    simp only [publisherStart] at h
    split at h <;> cases h

theorem createResult_not_idle (s : Store) (auto : AutoIncrement) (rows : Rows) (outcome : Outcome) :
    (createResult s auto rows outcome).2 ≠ .idle := by
  intro h
  cases outcome with
  | ok =>
    simp only [createResult] at h
    split at h <;> cases h
  | failed | lost => cases h

theorem began_not_idle {ls : List Label} {w : World} (h : run (step sha256 config) init ls = some w)
    {p : Nat} {cmd : PublishCommand} (hp : Began ls p cmd) : w.publishers p ≠ .idle := by
  refine run_history (P := fun as u => ∀ p cmd, Began as p cmd → u.publishers p ≠ .idle) ?_ ?_ h
    p cmd hp
  · intro as u l v _ hu hl p cmd hbegan
    cases step_move hl p with
    | other hother hsame =>
      rw [hsame]
      exact hu p cmd (began_other hother hbegan)
    | started _ _ hstart =>
      rw [hstart]
      exact publisherStart_not_idle
    | created _ _ hresult =>
      rw [hresult]
      exact createResult_not_idle _ _ _ _
    | crashed _ hcrash =>
      rw [hcrash]
      exact nofun
  · rintro p cmd ⟨_, _, _, _, hmem⟩
    cases hmem

theorem step_began_idle {w w' : World} {p : Nat} {cmd : PublishCommand} {now : Time}
    {newMailID eventID : Int} {failure : Option String}
    (h : step sha256 config w (.publishBegin p cmd now newMailID eventID failure) = some w') :
    w.publishers p = .idle := by
  cases step_move h p with
  | other hother => exact absurd rfl hother
  | started hidle => exact hidle

theorem began_unique {ls : List Label} {w : World} (h : run (step sha256 config) init ls = some w)
    {p : Nat} {cmd cmd' : PublishCommand} (hp : Began ls p cmd) (hp' : Began ls p cmd') :
    cmd = cmd' := by
  refine run_history (P := fun as _ => ∀ p cmd cmd', Began as p cmd → Began as p cmd' → cmd = cmd')
    ?_ ?_ h p cmd cmd' hp hp'
  · intro as u l v hrun hu hl p cmd cmd' hp hp'
    rcases began_snoc.mp hp with hold | ⟨now, newMailID, eventID, failure, rfl⟩
    · rcases began_snoc.mp hp' with hold' | ⟨now, newMailID, eventID, failure, rfl⟩
      · exact hu p cmd cmd' hold hold'
      · exact absurd (step_began_idle hl) (began_not_idle hrun hold)
    · rcases began_snoc.mp hp' with hold' | ⟨now', newMailID', eventID', failure', he⟩
      · exact absurd (step_began_idle hl) (began_not_idle hrun hold')
      · cases he
        rfl
  · rintro p cmd cmd' ⟨_, _, _, _, hmem⟩
    cases hmem

theorem returned_stays {s t : World} {ls : List Label} {p : Nat} {result : Except String GlobalMail}
    (hp : s.publishers p = .returned result) (hcrash : .publishCrash p ∉ ls)
    (h : run (step sha256 config) s ls = some t) : t.publishers p = .returned result := by
  have hg : Guarded (step sha256 config) (fun _ l => l ≠ .publishCrash p) s ls := by
    apply guarded_of_labels
    rintro l hl _ rfl
    exact hcrash hl
  apply guarded_invariant (I := fun u : World => u.publishers p = .returned result) ?_ hp hg h
  intro u l v hu hok hl
  cases step_move hl p with
  | other _ hsame => exact hsame.trans hu
  | started hidle => rw [hidle] at hu; cases hu
  | created hcreating => rw [hcreating] at hu; cases hu
  | crashed => exact absurd rfl hok

end Runs

end GlobalMailSystem.Relay
