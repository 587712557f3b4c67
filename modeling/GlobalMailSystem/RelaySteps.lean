import GlobalMailSystem.RelayMachine

namespace GlobalMailSystem.Relay

open Publisher

def Action.effects (s : Store) : Action → List Effect
  | .create _ _ => []
  | .fetch k limit lockedBy lockedUntil now skip =>
    (s.db.outbox.fetchPending limit lockedBy lockedUntil now skip).2.map
      fun event => .fetched k event.id now lockedUntil
  | .write w => [.write w]
  | .accept k id event => [.accepted k id event]
  | .markPublished k id _ => [.markedPublished k id]
  | .markFailed k id _ _ _ _ => [.markedFailed k id]

theorem act_log (s : Store) (a : Action) : (s.act a).log = s.log ++ a.effects s := by
  cases a with
  | create auto rows =>
    simp only [Store.act, Action.effects, List.append_nil]
    split <;> rfl
  | fetch k limit lockedBy lockedUntil now skip => rfl
  | write w => rfl
  | accept k id event => rfl
  | markPublished k id now => rfl
  | markFailed k id status nextRetryAt now cause => rfl

inductive Issues (config : Nat → Config) (w : World) : Label → Action → Prop
  | create {p : Nat} {auto : AutoIncrement} {rows : Rows} {outcome : Outcome}
      (hp : w.publishers p = .creating rows) :
      Issues config w (.publishCreate p auto outcome) (.create auto rows)
  | fetch {k : Nat} {limit : Int} {workerNow now : Time} {skip : Int → Bool} {outcome : Outcome}
      (hk : w.workers k = .idle) :
      Issues config w (.fetch k limit workerNow now skip outcome)
        (.fetch k limit (config k).workerID (workerNow + (config k).lockTTL) now skip)
  | setMail {k : Nat} {now : Time} {outcome : Outcome} {t : Task} (hk : w.workers k = .setMail t) :
      Issues config w (.work k now outcome) (.write (.setGlobalMail t.mail now))
  | addIndexes {k : Nat} {now : Time} {outcome : Outcome} {t : Task}
      (hk : w.workers k = .addIndexes t) :
      Issues config w (.work k now outcome) (.write (.addGlobalMailToIndexes t.mail))
  | advance {k : Nat} {now : Time} {outcome : Outcome} {t : Task} (hk : w.workers k = .advance t) :
      Issues config w (.work k now outcome) (.write (.advanceGlobalMailVersion t.event.version))
  | accept {k : Nat} {now : Time} {outcome : Outcome} {t : Task} (hk : w.workers k = .publish t)
      (hex : outcome.executed = true) :
      Issues config w (.work k now outcome) (.accept k t.event.id t.changed)
  | markPublished {k : Nat} {now : Time} {outcome : Outcome} {t : Task}
      (hk : w.workers k = .markPublished t) :
      Issues config w (.work k now outcome) (.markPublished k t.event.id now)
  | markFailed {k : Nat} {now : Time} {outcome : Outcome} {event : OutboxEvent}
      {status : OutboxStatus} {nextRetryAt started : Time} {cause : String} {rest : List OutboxEvent}
      (hk : w.workers k = .markFailed event status nextRetryAt started cause rest)
      (hex : outcome.executed = true) :
      Issues config w (.work k now outcome)
        (.markFailed k event.id status nextRetryAt started cause)

variable {sha256 : PublishPayload → String} {config : Nat → Config}

theorem attempt_store (s : Store) (a : Action) (outcome : Outcome) (next : WorkerPC)
    (fail : String → WorkerPC) :
    (attempt s a outcome next fail).1 = if outcome.executed then s.act a else s := by
  cases outcome <;> rfl

theorem workStep_store {k : Nat} {w : World} {now : Time} {outcome : Outcome} {s' : Store}
    {pc' : WorkerPC} (h : workStep (config k) k w.store now outcome (w.workers k) = some (s', pc')) :
    s' = w.store ∨ ∃ a, Issues config w (.work k now outcome) a ∧ s' = w.store.act a := by
  have issued {a : Action} {next : WorkerPC} {fail : String → WorkerPC}
      (hi : outcome.executed = true → Issues config w (.work k now outcome) a)
      (he : some (attempt w.store a outcome next fail) = some (s', pc')) :
      s' = w.store ∨ ∃ a, Issues config w (.work k now outcome) a ∧ s' = w.store.act a := by
    have hs : s' = (attempt w.store a outcome next fail).1 := by rw [Option.some.inj he]
    rw [attempt_store] at hs
    split_ifs at hs with hex
    · exact Or.inr ⟨a, hi hex, hs⟩
    · exact Or.inl hs
  cases hpc : w.workers k with
  | idle => simp [hpc, workStep] at h
  | loop events =>
    rw [hpc] at h
    cases events with
    | nil => exact Or.inl (congrArg Prod.fst (Option.some.inj h)).symm
    | cons event rest =>
      simp only [workStep] at h
      split at h
      all_goals exact Or.inl (congrArg Prod.fst (Option.some.inj h)).symm
  | loadMail event changed rest =>
    simp only [hpc, workStep] at h
    split at h
    · split at h
      all_goals exact Or.inl (congrArg Prod.fst (Option.some.inj h)).symm
    all_goals exact Or.inl (congrArg Prod.fst (Option.some.inj h)).symm
  | setMail t => rw [hpc] at h; exact issued (fun _ => .setMail hpc) h
  | addIndexes t => rw [hpc] at h; exact issued (fun _ => .addIndexes hpc) h
  | advance t => rw [hpc] at h; exact issued (fun _ => .advance hpc) h
  | publish t => rw [hpc] at h; exact issued (fun hex => .accept hpc hex) h
  | markPublished t => rw [hpc] at h; exact issued (fun _ => .markPublished hpc) h
  | readRetryCount event cause nextRetryAt rest =>
    simp only [hpc, workStep] at h
    split at h
    · split at h
      all_goals exact Or.inl (congrArg Prod.fst (Option.some.inj h)).symm
    all_goals exact Or.inl (congrArg Prod.fst (Option.some.inj h)).symm
  | markFailed event status nextRetryAt started cause rest =>
    rw [hpc] at h; exact issued (fun hex => .markFailed hpc hex) h

theorem createResult_store (s : Store) (auto : AutoIncrement) (rows : Rows) (outcome : Outcome) :
    (createResult s auto rows outcome).1 = s ∨
      (createResult s auto rows outcome).1 = s.act (.create auto rows) := by
  cases outcome with
  | ok =>
    simp only [createResult]
    split
    · exact Or.inl rfl
    · exact Or.inr rfl
  | failed err => exact Or.inl rfl
  | lost err => exact Or.inr rfl

inductive Step (sha256 : PublishPayload → String) (config : Nat → Config) (w : World) : Label → World → Prop
  | publishBegin {p : Nat} {cmd : PublishCommand} {now : Time} {newMailID eventID : Int} {failure : Option String}
      (hidle : w.publishers p = .idle) :
      Step sha256 config w (.publishBegin p cmd now newMailID eventID failure)
        (w.setPublisher p (w.store, publisherStart sha256 w.store.db cmd now newMailID eventID failure))
  | publishCreate {p : Nat} {auto : AutoIncrement} {outcome : Outcome} {rows : Rows}
      (hcreating : w.publishers p = .creating rows) :
      Step sha256 config w (.publishCreate p auto outcome)
        (w.setPublisher p (createResult w.store auto rows outcome))
  | publishCrash {p : Nat} :
      Step sha256 config w (.publishCrash p) (w.setPublisher p (w.store, .returned (.error "crashed")))
  | fetch {k : Nat} {limit : Int} {workerNow now : Time} {skip : Int → Bool} {outcome : Outcome}
      (hidle : w.workers k = .idle) :
      Step sha256 config w (.fetch k limit workerNow now skip outcome)
        (w.setWorker k (fetchResult w.store (config k) k limit workerNow now skip outcome))
  | work {k : Nat} {now : Time} {outcome : Outcome} {s : Store} {pc : WorkerPC}
      (hwork : workStep (config k) k w.store now outcome (w.workers k) = some (s, pc)) :
      Step sha256 config w (.work k now outcome) (w.setWorker k (s, pc))
  | crash {k : Nat} : Step sha256 config w (.crash k) (w.setWorker k (w.store, .idle))

theorem step_inv {w w' : World} {l : Label} (h : step sha256 config w l = some w') :
    Step sha256 config w l w' := by
  cases l with
  | publishBegin p cmd now newMailID eventID failure =>
    simp only [step] at h
    split at h
    · rename_i hidle
      cases h
      exact .publishBegin hidle
    · cases h
  | publishCreate p auto outcome =>
    simp only [step] at h
    split at h
    · rename_i rows hcreating
      cases h
      exact .publishCreate hcreating
    · cases h
  | publishCrash p => cases h; exact .publishCrash
  | fetch k limit workerNow now skip outcome =>
    simp only [step] at h
    split at h
    · rename_i hidle
      cases h
      exact .fetch hidle
    · cases h
  | work k now outcome =>
    simp only [step, Option.map_eq_some_iff] at h
    obtain ⟨⟨s, pc⟩, hwork, rfl⟩ := h
    exact .work hwork
  | crash k => cases h; exact .crash

theorem step_store {w w' : World} {l : Label} (h : step sha256 config w l = some w') :
    w'.store = w.store ∨ ∃ a, Issues config w l a ∧ w'.store = w.store.act a := by
  cases step_inv h with
  | publishBegin | publishCrash | crash => exact Or.inl rfl
  | @publishCreate p auto outcome rows hcreating =>
    rcases createResult_store w.store auto rows outcome with hs | hs
    · exact Or.inl hs
    · exact Or.inr ⟨_, .create hcreating, hs⟩
  | @fetch k limit workerNow now skip outcome hidle =>
    cases outcome with
    | failed err => exact Or.inl rfl
    | ok | lost err => exact Or.inr ⟨_, .fetch hidle, rfl⟩
  | work hwork => exact workStep_store hwork

end GlobalMailSystem.Relay
