import GlobalMailSystem.Rewards

namespace GlobalMailSystem.Ledger

open Transition Rewards

structure World where
  rewards : Rewards
  calls : Nat → Option GrantPC

inductive Label
  | call (c : Nat) (grant : RewardGrant) (now : Time)
  | advance (c : Nat) (serverNow : Time) (outcome : Outcome)

def step (w : World) : Label → Option World
  | .call c grant now =>
    match w.calls c with
    | none => some { w with calls := Function.update w.calls c (some (.start grant now)) }
    | some _ => none
  | .advance c serverNow outcome => do
    let pc ← w.calls c
    let r ← pc.step w.rewards serverNow outcome
    some ⟨r.1, Function.update w.calls c (some r.2)⟩

def init : World := ⟨.empty, fun _ => none⟩

/-- `GrantBackpackReward` inserts the row of this step and reports an error all the same. -/
def LosesInsert (w : World) : Label → Prop
  | .advance c _ (.lost _) => ∃ grant now, w.calls c = some (.backpack grant now)
  | _ => False

structure Agreement (t : Rewards) : Prop where
  succeeded : ∀ row ∈ t.ledger.rows, row.status = .succeeded →
    (∃ held ∈ t.backpack.rows, held.grantKey = row.grantKey) ∧
      row.externalRewardID = "playersrv-backpack:" ++ row.grantKey
  failed : ∀ row ∈ t.ledger.rows, row.status = .failed →
    ∀ held ∈ t.backpack.rows, held.grantKey ≠ row.grantKey
  held : ∀ held ∈ t.backpack.rows, ∃ row ∈ t.ledger.rows, row.grantKey = held.grantKey ∧
    (row.status = .pending ∨ row.status = .succeeded)

def key : GrantPC → String
  | .reserve grant _ => grant.grantKey
  | .backpack grant _ => grant.grantKey
  | .markFailed grant _ _ => grant.grantKey
  | .markSucceeded grant _ _ => grant.grantKey
  | .returned grantKey _ => grantKey

def Owns : GrantPC → Prop
  | .reserve .. => False
  | .returned _ result => result = .ok true
  | _ => True

def Pending (row : Option RewardLedgerRow) : Prop := ∃ r, row = some r ∧ r.status = .pending

def Stage (row : Option RewardLedgerRow) (held : Option BackpackGrant) : GrantPC → Prop
  | .reserve grant _ => grant.status = .pending
  | .backpack .. => Pending row ∧ held = none
  | .markFailed .. => Pending row ∧ held = none
  | .markSucceeded grant _ externalRewardID =>
    Pending row ∧ held ≠ none ∧ externalRewardID = backpackExternalID grant.grantKey
  | .returned _ result => result = .ok true → row ≠ none

def Agrees : Option RewardLedgerRow → Option BackpackGrant → Prop
  | none, held => held = none
  | some row, held =>
    match row.status with
    | .unset => False
    | .pending => True
    | .succeeded => held ≠ none ∧ row.externalRewardID = backpackExternalID row.grantKey
    | .failed => held = none

def StageOk (t : Rewards) (pc : GrantPC) : Prop :=
  Stage (t.ledger.find? (key pc)) (t.backpack.find? (key pc)) pc

def AgreesAt (t : Rewards) (k : String) : Prop := Agrees (t.ledger.find? k) (t.backpack.find? k)

def SameAt (t t' : Rewards) (k : String) : Prop :=
  t'.ledger.find? k = t.ledger.find? k ∧ t'.backpack.find? k = t.backpack.find? k

theorem SameAt.agrees {t t' : Rewards} {k : String} (h : SameAt t t' k) (ha : AgreesAt t k) :
    AgreesAt t' k := by
  rw [AgreesAt, h.1, h.2]
  exact ha

theorem agrees_pending {row : Option RewardLedgerRow} {held : Option BackpackGrant} (h : Pending row) :
    Agrees row held := by
  obtain ⟨r, rfl, hr⟩ := h
  simp only [Agrees, hr]

theorem owns_reserved {t : Rewards} {pc : GrantPC} (h : StageOk t pc) (ho : Owns pc) :
    t.ledger.find? (key pc) ≠ none := by
  have pending {row : Option RewardLedgerRow} (hp : Pending row) : row ≠ none := by
    obtain ⟨r, rfl, _⟩ := hp
    simp
  cases pc with
  | reserve grant now => exact ho.elim
  | backpack grant now => exact pending h.1
  | markFailed grant now err => exact pending h.1
  | markSucceeded grant now ext => exact pending h.1
  | returned grantKey result => exact h ho

theorem StageOk.frame {t t' : Rewards} {pc : GrantPC} (h : StageOk t pc)
    (hsame : Owns pc → SameAt t t' (key pc)) : StageOk t' pc := by
  by_cases ho : Owns pc
  · obtain ⟨hl, hb⟩ := hsame ho
    rw [StageOk, hl, hb]
    exact h
  · cases pc with
    | reserve grant now => exact h
    | returned grantKey result => exact fun hr => absurd hr ho
    | backpack | markFailed | markSucceeded => exact absurd trivial ho

structure StepOk (t t' : Rewards) (pc pc' : GrantPC) : Prop where
  key_eq : key pc' = key pc
  other : ∀ k, k ≠ key pc → SameAt t t' k
  unowned : ¬ Owns pc → t.ledger.find? (key pc) ≠ none → SameAt t t' (key pc)
  agrees : AgreesAt t' (key pc)
  stage : StageOk t' pc'
  gains : Owns pc' → Owns pc ∨ t.ledger.find? (key pc) = none

theorem stepOk_same {t : Rewards} {pc pc' : GrantPC} (hkey : key pc' = key pc)
    (ha : AgreesAt t (key pc)) (hs : StageOk t pc') (hg : Owns pc' → Owns pc) : StepOk t t pc pc' where
  key_eq := hkey
  other _ _ := ⟨rfl, rfl⟩
  unowned _ _ := ⟨rfl, rfl⟩
  agrees := ha
  stage := hs
  gains ho := Or.inl (hg ho)

theorem reserve_sameAt {t : Rewards} {grant : RewardGrant} {now : Time} {k : String}
    (h : k ≠ grant.grantKey ∨ t.ledger.find? k ≠ none) :
    SameAt t (t.reserveGlobalMailReward grant now).1 k := by
  refine ⟨?_, rfl⟩
  rw [reserve_ledger]
  split_ifs with hk
  · have hsome := h.resolve_left (fun hne => hne hk.symm)
    obtain ⟨row, hrow⟩ := Option.ne_none_iff_exists'.mp hsome
    rw [hrow]
    rfl
  · rfl

theorem reserve_pending {t : Rewards} {grant : RewardGrant} {now : Time} (hg : grant.status = .pending)
    (h : t.ledger.find? grant.grantKey = none) :
    Pending ((t.reserveGlobalMailReward grant now).1.ledger.find? grant.grantKey) := by
  refine ⟨ledgerRow grant now, ?_, by simp [ledgerRow, hg]⟩
  rw [reserve_ledger, if_pos rfl, h]
  rfl

theorem reserve_agrees {t : Rewards} {grant : RewardGrant} {now : Time} (hg : grant.status = .pending)
    (ha : AgreesAt t grant.grantKey) :
    AgreesAt (t.reserveGlobalMailReward grant now).1 grant.grantKey := by
  by_cases hf : t.ledger.find? grant.grantKey = none
  · exact agrees_pending (reserve_pending hg hf)
  · exact (reserve_sameAt (Or.inr hf)).agrees ha

theorem reserve_ok {t t' : Rewards} {grant : RewardGrant} {now serverNow : Time} {outcome : Outcome}
    {pc' : GrantPC} (hg : grant.status = .pending) (ha : AgreesAt t grant.grantKey)
    (h : (GrantPC.reserve grant now).step t serverNow outcome = some (t', pc')) :
    StepOk t t' (.reserve grant now) pc' := by
  cases outcome with
  | failed err =>
    cases h
    exact stepOk_same rfl ha (fun he => by cases he) (fun he => by cases he)
  | lost err =>
    cases h
    exact ⟨rfl, fun k hk => reserve_sameAt (Or.inl hk), fun _ hr => reserve_sameAt (Or.inr hr),
      reserve_agrees hg ha, (fun he => by cases he), (fun he => by cases he)⟩
  | ok =>
    simp only [GrantPC.step, reserve_added, Option.some.injEq, Prod.mk.injEq] at h
    obtain ⟨rfl, rfl⟩ := h
    by_cases hf : t.ledger.find? grant.grantKey = none
    · simp only [hf, Option.isNone_none, if_true]
      have hheld : t.backpack.find? grant.grantKey = none := by
        rw [AgreesAt, hf] at ha
        exact ha
      exact ⟨rfl, fun k hk => reserve_sameAt (Or.inl hk), fun _ hr => absurd hf hr,
        reserve_agrees hg ha, ⟨reserve_pending hg hf, hheld⟩, fun _ => Or.inr hf⟩
    · rw [if_neg (by simpa using hf)]
      exact ⟨rfl, fun k hk => reserve_sameAt (Or.inl hk), fun _ hr => reserve_sameAt (Or.inr hr),
        reserve_agrees hg ha, (fun he => by cases he), (fun he => by cases he)⟩

theorem backpack_ok {t t' : Rewards} {grant : RewardGrant} {now serverNow : Time} {outcome : Outcome}
    {pc' : GrantPC} (hs : StageOk t (.backpack grant now)) (hlost : ∀ err, outcome ≠ .lost err)
    (h : (GrantPC.backpack grant now).step t serverNow outcome = some (t', pc')) :
    StepOk t t' (.backpack grant now) pc' := by
  obtain ⟨hp, hheld⟩ := hs
  cases outcome with
  | lost err => exact absurd rfl (hlost err)
  | failed err =>
    cases h
    exact stepOk_same rfl (agrees_pending hp) ⟨hp, hheld⟩ fun _ => trivial
  | ok =>
    cases h
    refine ⟨rfl, fun k hk => ⟨rfl, ?_⟩, fun ho => absurd trivial ho, agrees_pending hp, ⟨hp, ?_, rfl⟩,
      fun _ => Or.inl trivial⟩
    · rw [grantBackpack_backpack]
      exact if_neg (Ne.symm hk)
    · rw [grantBackpack_backpack]
      simp [key, GrantPC.backpackGrant]

theorem markFailed_ok {t t' : Rewards} {grant : RewardGrant} {now serverNow : Time} {err : String}
    {outcome : Outcome} {pc' : GrantPC} (hs : StageOk t (.markFailed grant now err))
    (h : (GrantPC.markFailed grant now err).step t serverNow outcome = some (t', pc')) :
    StepOk t t' (.markFailed grant now err) pc' := by
  obtain ⟨hp, hheld⟩ := hs
  cases h
  split_ifs with hex
  · refine ⟨rfl, fun k hk => ⟨?_, rfl⟩, fun ho => absurd trivial ho, ?_, (fun he => by cases he),
      (fun he => by cases he)⟩
    · rw [failed_ledger]
      exact if_neg hk
    · obtain ⟨row, hrow, _⟩ := hp
      simp only [key] at hrow hheld
      simp only [key, AgreesAt, failed_ledger, failed_backpack, if_true, hrow, Option.map_some, Agrees,
        failedRow]
      exact hheld
  · exact stepOk_same rfl (agrees_pending hp) (fun he => by cases he) (fun he => by cases he)

theorem markSucceeded_ok {t t' : Rewards} {grant : RewardGrant} {now serverNow : Time} {ext : String}
    {outcome : Outcome} {pc' : GrantPC} (hs : StageOk t (.markSucceeded grant now ext))
    (h : (GrantPC.markSucceeded grant now ext).step t serverNow outcome = some (t', pc')) :
    StepOk t t' (.markSucceeded grant now ext) pc' := by
  obtain ⟨hp, hheld, rfl⟩ := hs
  have marked {pc' : GrantPC} (hkey : key pc' = grant.grantKey)
      (hs' : StageOk (t.markGlobalMailRewardSucceeded grant.grantKey
        (backpackExternalID grant.grantKey) now) pc') :
      StepOk t (t.markGlobalMailRewardSucceeded grant.grantKey (backpackExternalID grant.grantKey) now)
        (.markSucceeded grant now (backpackExternalID grant.grantKey)) pc' := by
    refine ⟨hkey, fun k hk => ⟨?_, rfl⟩, fun ho => absurd trivial ho, ?_, hs', fun _ => Or.inl trivial⟩
    · rw [succeeded_ledger]
      exact if_neg hk
    · obtain ⟨row, hrow, _⟩ := hp
      have hk : row.grantKey = grant.grantKey := (Table.find?_eq_some.mp hrow).2
      simp only [key] at hrow hheld
      simp only [key, AgreesAt, succeeded_ledger, succeeded_backpack, if_true, hrow, Option.map_some,
        Agrees, succeededRow, hk]
      exact ⟨hheld, trivial⟩
  cases outcome with
  | ok =>
    cases h
    apply marked rfl
    intro _
    obtain ⟨row, hrow, _⟩ := hp
    simp only [key] at hrow
    simp [key, hrow]
  | failed err =>
    cases h
    exact stepOk_same rfl (agrees_pending hp) (fun he => by cases he) (fun he => by cases he)
  | lost err =>
    cases h
    exact marked rfl fun he => by cases he

theorem pcStep_ok {t t' : Rewards} {pc pc' : GrantPC} {serverNow : Time} {outcome : Outcome}
    (hs : StageOk t pc) (ha : AgreesAt t (key pc))
    (hlost : ∀ grant now err, pc = .backpack grant now → outcome ≠ .lost err)
    (h : pc.step t serverNow outcome = some (t', pc')) : StepOk t t' pc pc' := by
  cases pc with
  | reserve grant now => exact reserve_ok hs ha h
  | backpack grant now => exact backpack_ok hs (fun err => hlost grant now err rfl) h
  | markFailed grant now err => exact markFailed_ok hs h
  | markSucceeded grant now ext => exact markSucceeded_ok hs h
  | returned grantKey result => cases h

structure Inv (w : World) : Prop where
  agrees : ∀ k, AgreesAt w.rewards k
  stages : ∀ c pc, w.calls c = some pc → StageOk w.rewards pc
  unique : ∀ c d pc pd, w.calls c = some pc → w.calls d = some pd → Owns pc → Owns pd →
    key pc = key pd → c = d

theorem inv_call {w : World} (hw : Inv w) (c : Nat) (grant : RewardGrant) (now : Time) :
    Inv { w with calls := Function.update w.calls c (some (.start grant now)) } where
  agrees := hw.agrees
  stages d pd hd := by
    simp only [Function.update_apply] at hd
    split_ifs at hd
    · cases hd
      rfl
    · exact hw.stages d pd hd
  unique d e pd pe hd he hod hoe hkey := by
    simp only [Function.update_apply] at hd he
    split_ifs at hd he
    · cases hd
      exact hod.elim
    · cases hd
      exact hod.elim
    · cases he
      exact hoe.elim
    · exact hw.unique d e pd pe hd he hod hoe hkey

theorem other_same {w : World} (hw : Inv w) {c d : Nat} {pc pc' pd : GrantPC} {t' : Rewards}
    (hc : w.calls c = some pc) (hd : w.calls d = some pd) (hne : d ≠ c)
    (hok : StepOk w.rewards t' pc pc') (ho : Owns pd) : SameAt w.rewards t' (key pd) := by
  by_cases hkey : key pd = key pc
  · have hnot : ¬ Owns pc := fun hpc => hne (hw.unique d c pd pc hd hc ho hpc hkey)
    have hres := owns_reserved (hw.stages d pd hd) ho
    rw [hkey] at hres ⊢
    exact hok.unowned hnot hres
  · exact hok.other _ hkey

theorem inv_advance {w : World} (hw : Inv w) {c : Nat} {pc pc' : GrantPC} {t' : Rewards}
    (hc : w.calls c = some pc) (hok : StepOk w.rewards t' pc pc') :
    Inv ⟨t', Function.update w.calls c (some pc')⟩ where
  agrees k := by
    by_cases hk : k = key pc
    · rw [hk]
      exact hok.agrees
    · exact (hok.other k hk).agrees (hw.agrees k)
  stages d pd hd := by
    simp only [Function.update_apply] at hd
    split_ifs at hd with hdc
    · cases hd
      exact hok.stage
    · exact (hw.stages d pd hd).frame (other_same hw hc hd hdc hok)
  unique d e pd pe hd he hod hoe hkey := by
    -- a call that has just won its key cannot meet another owner: the key was not reserved before
    have winner {f : Nat} {pf : GrantPC} (hf : w.calls f = some pf) (hne : f ≠ c) (hof : Owns pf)
        (hpc' : Owns pc') (hkf : key pf = key pc') : False := by
      rw [hok.key_eq] at hkf
      rcases hok.gains hpc' with hpc | hnone
      · exact hne (hw.unique f c pf pc hf hc hof hpc hkf)
      · exact owns_reserved (hw.stages f pf hf) hof (hkf ▸ hnone)
    simp only [Function.update_apply] at hd he
    split_ifs at hd he with hdc hec hec
    · rw [hdc, hec]
    · cases hd
      exact (winner he hec hoe hod hkey.symm).elim
    · cases he
      exact (winner hd hdc hod hoe hkey).elim
    · exact hw.unique d e pd pe hd he hod hoe hkey

theorem inv_step {w w' : World} {l : Label} (hw : Inv w) (hl : ¬ LosesInsert w l)
    (h : step w l = some w') : Inv w' := by
  cases l with
  | call c grant now =>
    simp only [step] at h
    split at h
    · cases h
      exact inv_call hw c grant now
    · cases h
  | advance c serverNow outcome =>
    simp only [step, Option.bind_eq_bind, Option.bind_eq_some_iff] at h
    obtain ⟨pc, hc, ⟨t', pc'⟩, hpc, h⟩ := h
    cases h
    apply inv_advance hw hc
    apply pcStep_ok (hw.stages c pc hc) (hw.agrees _) ?_ hpc
    rintro grant now err rfl rfl
    exact hl ⟨grant, now, hc⟩

theorem inv_init : Inv init where
  agrees _ := rfl
  stages _ _ h := by cases h
  unique _ _ _ _ h := by cases h

theorem agreement_of_agrees {t : Rewards} (h : ∀ k, AgreesAt t k) : Agreement t := by
  have at_row {row : RewardLedgerRow} (hrow : row ∈ t.ledger.rows) :
      Agrees (some row) (t.backpack.find? row.grantKey) := by
    have ha := h row.grantKey
    rw [AgreesAt, Table.find?_eq_some.mpr ⟨hrow, rfl⟩] at ha
    exact ha
  refine ⟨fun row hrow hs => ?_, fun row hrow hs => ?_, fun held hheld => ?_⟩
  · have ha := at_row hrow
    simp only [Agrees, hs] at ha
    obtain ⟨b, hb⟩ := Option.ne_none_iff_exists'.mp ha.1
    exact ⟨⟨b, Table.find?_eq_some.mp hb⟩, ha.2⟩
  · have ha := at_row hrow
    simp only [Agrees, hs] at ha
    exact Table.find?_eq_none.mp ha
  · have ha := h held.grantKey
    rw [AgreesAt, Table.find?_eq_some.mpr ⟨hheld, rfl⟩] at ha
    cases hf : t.ledger.find? held.grantKey with
    | none =>
      rw [hf] at ha
      cases ha
    | some row =>
      rw [hf] at ha
      obtain ⟨hrow, hkey⟩ := Table.find?_eq_some.mp hf
      refine ⟨row, hrow, hkey, ?_⟩
      cases hs : row.status with
      | pending => exact Or.inl rfl
      | succeeded => exact Or.inr rfl
      | unset => simp only [Agrees, hs] at ha
      | failed => simp only [Agrees, hs] at ha; cases ha

theorem ledger_agrees (ls : List Label) (w : World)
    (hl : Guarded step (fun w l => ¬ LosesInsert w l) init ls) (h : run step init ls = some w) :
    Agreement w.rewards ∧
      ∀ grantKey c d, w.calls c = some (.returned grantKey (.ok true)) →
        w.calls d = some (.returned grantKey (.ok true)) → c = d := by
  have hw : Inv w := guarded_invariant (fun _ _ _ hs hok hstep => inv_step hs hok hstep) inv_init hl h
  refine ⟨agreement_of_agrees hw.agrees, fun grantKey c d hc hd => ?_⟩
  exact hw.unique c d _ _ hc hd rfl rfl rfl

def raceGrant : RewardGrant :=
  ⟨10001, 1, 10, 2, .empty, "10001:10:2", .succeeded, "", "", 0, 0⟩

def race : List Label :=
  [.call 0 raceGrant 5, .call 1 raceGrant 6, .advance 1 6 .ok, .advance 0 6 .ok, .advance 1 7 .ok,
    .advance 1 8 (.failed "timeout")]

theorem race_agrees :
    ∃ w, run step init race = some w ∧ Agreement w.rewards ∧
      ∀ grantKey c d, w.calls c = some (.returned grantKey (.ok true)) →
        w.calls d = some (.returned grantKey (.ok true)) → c = d := by
  have hrun : run step init race = some ((run step init race).get (by decide)) :=
    (Option.some_get _).symm
  refine ⟨_, hrun, ledger_agrees race _ (guarded_of_labels fun l hl w => ?_) hrun⟩
  simp only [race, List.mem_cons, List.not_mem_nil, or_false] at hl
  rcases hl with rfl | rfl | rfl | rfl | rfl | rfl <;> exact not_false

end GlobalMailSystem.Ledger
