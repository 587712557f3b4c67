import GlobalMailSystem.Login

namespace GlobalMailSystem.Login

open Transition MailCommands

def CallPC.token? : CallPC → Option String
  | .store value _ => some value.token
  | _ => none

def Fresh (w : World) : Label → Prop
  | .token _ (.ok token) _ =>
    (∀ call ∈ w.calls, call.pc.token? ≠ some token) ∧ ∀ i ∈ w.issued, i.value.token ≠ token
  | .restart _ => False
  | _ => True

instance Fresh.decidable (w : World) : ∀ l : Label, Decidable (Fresh w l)
  | .token _ (.ok token) _ =>
    inferInstanceAs (Decidable ((∀ call ∈ w.calls, call.pc.token? ≠ some token) ∧ ∀ i ∈ w.issued, i.value.token ≠ token))
  | .restart _ => isFalse id
  | .token _ (.error _) _ => isTrue trivial
  | .begin _ _ _ => isTrue trivial
  | .login _ _ => isTrue trivial
  | .store _ _ _ => isTrue trivial

section Invariant

variable (config : Nat → Config)

def Named (w : World) (account : Nat) (uid : Int) (value : LoginToken) : Prop :=
  value.uid = uid ∧ ∃ resp ∈ w.answers (config account).playerServer,
    resp.uid = uid ∧ resp.roleID = value.roleID ∧ resp.serverID = value.serverID

def Backs (w : World) (call : Call) : Prop :=
  match call.pc with
  | .token resp => resp.uid = call.uid ∧ resp ∈ w.answers (config call.account).playerServer
  | .store value _ => Named config w call.account call.uid value
  | _ => True

structure Issuing (w : World) : Prop where
  calls : ∀ call ∈ w.calls, Backs config w call
  fresh : ∀ call ∈ w.calls, ∀ token, call.pc.token? = some token → ∀ i ∈ w.issued, i.value.token ≠ token
  apart : ∀ (c c' : Nat) (call call' : Call) (token : String), w.calls[c]? = some call → w.calls[c']? = some call' →
    call.pc.token? = some token → call'.pc.token? = some token → c = c'
  issued : ∀ i ∈ w.issued, ∃ call, w.calls[i.call]? = some call ∧ call.account = i.account ∧
    Named config w i.account call.uid i.value
  keys : ∀ token stored, w.tokens token = some stored ↔
    ∃ i ∈ w.issued, i.value.token = token ∧ stored = ⟨i.value, i.storedAt + (config i.account).effectiveTTL⟩
  returned : ∀ (c : Nat) (call : Call) (value : LoginToken) (isNewUser : Bool), w.calls[c]? = some call →
    call.pc = .returned (.ok (value, isNewUser)) → ∃ i ∈ w.issued, i.call = c ∧ i.value = value

end Invariant

section Steps

variable {config : Nat → Config} {w w' : World} {c : Nat} {call : Call} {pc : CallPC}

theorem effectiveTTL_pos (config : Config) : 0 < config.effectiveTTL := by
  unfold Config.effectiveTTL
  split_ifs with h
  · decide
  · exact not_le.mp h

theorem set_cases {calls : List Call} {x y : Call} {c' : Nat} (h : (calls.set c x)[c']? = some y) :
    c' = c ∧ y = x ∨ c' ≠ c ∧ calls[c']? = some y := by
  rw [List.getElem?_set] at h
  split_ifs at h with hsame hlt
  · exact Or.inl ⟨hsame.symm, (Option.some.inj h).symm⟩
  · exact Or.inr ⟨Ne.symm hsame, h⟩

theorem Named.mono (hanswers : ∀ p, ∀ resp ∈ w.answers p, resp ∈ w'.answers p) {account : Nat} {uid : Int}
    {value : LoginToken} (h : Named config w account uid value) : Named config w' account uid value := by
  obtain ⟨huid, resp, hresp, hrest⟩ := h
  exact ⟨huid, resp, hanswers _ resp hresp, hrest⟩

theorem Backs.mono (hanswers : ∀ p, ∀ resp ∈ w.answers p, resp ∈ w'.answers p) (h : Backs config w call) :
    Backs config w' call := by
  unfold Backs at h ⊢
  split
  · rename_i resp hpc
    rw [hpc] at h
    exact ⟨h.1, hanswers _ resp h.2⟩
  · rename_i value isNewUser hpc
    rw [hpc] at h
    exact h.mono hanswers
  · trivial

theorem issued_move (hw : Issuing config w) (hc : w.calls[c]? = some call)
    (hanswers : ∀ p, ∀ resp ∈ w.answers p, resp ∈ w'.answers p) {i : Issue} (hi : i ∈ w.issued) :
    ∃ call', (w.calls.set c { call with pc })[i.call]? = some call' ∧ call'.account = i.account ∧
      Named config w' i.account call'.uid i.value := by
  obtain ⟨call', hcall', haccount, hnamed⟩ := hw.issued i hi
  by_cases hsame : i.call = c
  · rw [hsame, hc] at hcall'
    cases hcall'
    rw [hsame]
    exact ⟨{ call with pc }, List.getElem?_set_self (List.getElem?_eq_some_iff.mp hc).1, haccount, hnamed.mono hanswers⟩
  · exact ⟨call', by rw [List.getElem?_set_ne (Ne.symm hsame)]; exact hcall', haccount, hnamed.mono hanswers⟩

theorem Issuing.move (hw : Issuing config w) (hc : w.calls[c]? = some call)
    (hcalls : w'.calls = w.calls.set c { call with pc }) (htokens : w'.tokens = w.tokens) (hissued : w'.issued = w.issued)
    (hanswers : ∀ p, ∀ resp ∈ w.answers p, resp ∈ w'.answers p) (hback : Backs config w' { call with pc })
    (hfresh : ∀ token, pc.token? = some token → (∀ other ∈ w.calls, other.pc.token? ≠ some token) ∧
      ∀ i ∈ w.issued, i.value.token ≠ token)
    (hreturned : ∀ value isNewUser, pc ≠ .returned (.ok (value, isNewUser))) : Issuing config w' := by
  refine ⟨?_, ?_, ?_, ?_, ?_, ?_⟩
  · intro other hother
    rw [hcalls] at hother
    rcases List.mem_or_eq_of_mem_set hother with hother | rfl
    · exact (hw.calls other hother).mono hanswers
    · exact hback
  · intro other hother token htoken
    rw [hissued]
    rw [hcalls] at hother
    rcases List.mem_or_eq_of_mem_set hother with hother | rfl
    · exact hw.fresh other hother token htoken
    · exact (hfresh token htoken).2
  · intro c₁ c₂ call₁ call₂ token h₁ h₂ ht₁ ht₂
    rw [hcalls] at h₁ h₂
    rcases set_cases h₁ with ⟨he₁, rfl⟩ | ⟨_, h₁⟩ <;> rcases set_cases h₂ with ⟨he₂, rfl⟩ | ⟨_, h₂⟩
    · rw [he₁, he₂]
    · exact absurd ht₂ ((hfresh token ht₁).1 call₂ (List.mem_of_getElem? h₂))
    · exact absurd ht₁ ((hfresh token ht₂).1 call₁ (List.mem_of_getElem? h₁))
    · exact hw.apart c₁ c₂ call₁ call₂ token h₁ h₂ ht₁ ht₂
  · intro i hi
    rw [hissued] at hi
    rw [hcalls]
    exact issued_move hw hc hanswers hi
  · rw [htokens, hissued]
    exact hw.keys
  · intro c' call' value isNewUser hc' hpc'
    rw [hcalls] at hc'
    rw [hissued]
    rcases set_cases hc' with ⟨_, rfl⟩ | ⟨_, hc'⟩
    · exact absurd hpc' (hreturned value isNewUser)
    · exact hw.returned c' call' value isNewUser hc' hpc'

theorem Issuing.write (hw : Issuing config w) {account : Nat} {uid serverID : Int} {value : LoginToken} {isNewUser : Bool}
    (hc : w.calls[c]? = some ⟨account, uid, serverID, .store value isNewUser⟩) (redisNow : Time)
    {result : Except String (LoginToken × Bool)} (hresult : ∀ v b, result = .ok (v, b) → v = value) :
    Issuing config ((w.issue c account value (config account).effectiveTTL redisNow).setPC c
      ⟨account, uid, serverID, .store value isNewUser⟩ (.returned result)) := by
  have hmem : (⟨account, uid, serverID, .store value isNewUser⟩ : Call) ∈ w.calls := List.mem_of_getElem? hc
  have hnamed : Named config w account uid value := hw.calls _ hmem
  have hlt : c < w.calls.length := (List.getElem?_eq_some_iff.mp hc).1
  have hnew : ∀ i ∈ w.issued, i.value.token ≠ value.token := hw.fresh _ hmem value.token rfl
  refine ⟨?_, ?_, ?_, ?_, ?_, ?_⟩
  · intro other hother
    rcases List.mem_or_eq_of_mem_set hother with hother | rfl
    · have hold := hw.calls other hother
      exact hold
    · trivial
  · intro other hother token htoken i hi
    obtain ⟨c', hc'⟩ := List.getElem?_of_mem hother
    rcases set_cases hc' with ⟨_, rfl⟩ | ⟨hne, hc'⟩
    · cases htoken
    · rcases List.mem_append.mp hi with hi | hi
      · exact hw.fresh other (List.mem_of_getElem? hc') token htoken i hi
      · rw [List.mem_singleton.mp hi]
        rintro rfl
        exact hne (hw.apart c' c other _ value.token hc' hc htoken rfl)
  · intro c₁ c₂ call₁ call₂ token h₁ h₂ ht₁ ht₂
    rcases set_cases h₁ with ⟨_, rfl⟩ | ⟨_, h₁⟩
    · cases ht₁
    · rcases set_cases h₂ with ⟨_, rfl⟩ | ⟨_, h₂⟩
      · cases ht₂
      · exact hw.apart c₁ c₂ call₁ call₂ token h₁ h₂ ht₁ ht₂
  · intro i hi
    rcases List.mem_append.mp hi with hi | hi
    · have hold := @issued_move config w w c _ (.returned result) hw hc (fun _ _ h => h) i hi
      exact hold
    · rw [List.mem_singleton.mp hi]
      exact ⟨_, List.getElem?_set_self hlt, rfl, hnamed⟩
  · intro token stored
    have hkey : (w.issue c account value (config account).effectiveTTL redisNow).tokens token =
        if token = value.token then some ⟨value, redisNow + (config account).effectiveTTL⟩ else w.tokens token := by
      simp only [World.issue, setLoginToken, RoutingKeys.keyTTL_of_pos (effectiveTTL_pos _), Function.update_apply]
    change (w.issue c account value (config account).effectiveTTL redisNow).tokens token = some stored ↔ _
    rw [hkey]
    simp only [World.issue, World.setPC, List.mem_append, List.mem_singleton, or_and_right, exists_or, exists_eq_left]
    split_ifs with htoken
    · subst htoken
      constructor
      · intro h
        exact Or.inr ⟨rfl, (Option.some.inj h).symm⟩
      · rintro (⟨i, hi, hsame, _⟩ | ⟨_, rfl⟩)
        · exact absurd hsame (hnew i hi)
        · rfl
    · rw [hw.keys]
      constructor
      · exact Or.inl
      · rintro (h | ⟨hsame, _⟩)
        · exact h
        · exact absurd hsame.symm htoken
  · intro c' call' v b hc' hpc'
    rcases set_cases hc' with ⟨hsame, rfl⟩ | ⟨_, hc'⟩
    · refine ⟨_, List.mem_append_right _ List.mem_cons_self, hsame.symm, ?_⟩
      exact (hresult v b (CallPC.returned.inj hpc')).symm
    · obtain ⟨i, hi, hcall, hvalue⟩ := hw.returned c' call' v b hc' hpc'
      exact ⟨i, List.mem_append_left _ hi, hcall, hvalue⟩

theorem returned_error_fresh {err : String} {P : Prop} (token : String)
    (h : (CallPC.returned (.error err)).token? = some token) : P := by
  cases h

theorem issuing_loggedIn (ht : ∀ p, Tallied (w.repos p) (w.answers p)) (hw : Issuing config w)
    (hc : w.calls[c]? = some call) (lost : Option String) :
    Issuing config (loggedIn w c call (config call.account).playerServer lost) := by
  unfold loggedIn
  split
  · exact hw.move hc rfl rfl rfl (fun _ _ h => h) trivial (fun token h => returned_error_fresh token h)
      fun _ _ h => by cases h
  · rename_i r resp hlogin
    obtain ⟨_, huid⟩ := tallied_accountLogin (ht _) hlogin
    have hanswers : ∀ p, ∀ old ∈ w.answers p,
        old ∈ (w.answer (config call.account).playerServer r resp).answers p := by
      intro p old hold
      simp only [World.answer, Function.update_apply]
      split_ifs with hp
      · exact List.mem_append_left _ (hp ▸ hold)
      · exact hold
    cases lost with
    | some err =>
      exact hw.move hc rfl rfl rfl hanswers trivial (fun token h => returned_error_fresh token h) fun _ _ h => by cases h
    | none =>
      refine hw.move hc rfl rfl rfl hanswers ⟨huid, ?_⟩ (fun token h => by cases h) fun _ _ h => by cases h
      simp [World.setPC, World.answer]

theorem issuing_step {l : Label} (ht : ∀ p, Tallied (w.repos p) (w.answers p)) (hw : Issuing config w)
    (hok : Fresh w l) (h : step config w l = some w') : Issuing config w' := by
  cases l with
  | restart p => exact hok.elim
  | begin account uid serverID =>
    cases h
    have hcases {c : Nat} {call : Call} (hc : (w.calls ++ [⟨account, uid, serverID, .login⟩])[c]? = some call) :
        w.calls[c]? = some call ∨ call.pc = .login := by
      rw [List.getElem?_append] at hc
      split_ifs at hc
      · exact Or.inl hc
      · rw [List.getElem?_singleton] at hc
        split_ifs at hc
        exact Or.inr (Option.some.inj hc ▸ rfl)
    refine ⟨?_, ?_, ?_, ?_, hw.keys, ?_⟩
    · intro call hcall
      rcases List.mem_append.mp hcall with hcall | hcall
      · exact hw.calls call hcall
      · rw [List.mem_singleton.mp hcall]
        trivial
    · intro call hcall token htoken
      rcases List.mem_append.mp hcall with hcall | hcall
      · exact hw.fresh call hcall token htoken
      · rw [List.mem_singleton.mp hcall] at htoken
        cases htoken
    · intro c₁ c₂ call₁ call₂ token h₁ h₂ ht₁ ht₂
      rcases hcases h₁ with h₁ | hlogin
      · rcases hcases h₂ with h₂ | hlogin
        · exact hw.apart c₁ c₂ call₁ call₂ token h₁ h₂ ht₁ ht₂
        · rw [hlogin] at ht₂
          cases ht₂
      · rw [hlogin] at ht₁
        cases ht₁
    · intro i hi
      obtain ⟨call, hcall, hrest⟩ := hw.issued i hi
      exact ⟨call, (List.getElem?_append_left (List.getElem?_eq_some_iff.mp hcall).1).trans hcall, hrest⟩
    · intro c call value isNewUser hc hpc
      rcases hcases hc with hc | hlogin
      · exact hw.returned c call value isNewUser hc hpc
      · rw [hlogin] at hpc
        cases hpc
  | login c outcome =>
    simp only [step] at h
    split at h
    · rename_i hc
      cases h
      cases outcome with
      | ok => exact issuing_loggedIn ht hw hc none
      | lost err => exact issuing_loggedIn ht hw hc (some err)
      | failed err =>
        exact hw.move hc rfl rfl rfl (fun _ _ h => h) trivial (fun token h => returned_error_fresh token h)
          fun _ _ h => by cases h
    · cases h
  | token c random now =>
    simp only [step] at h
    split at h
    · rename_i account uid serverID resp hc
      cases h
      cases random with
      | error err =>
        exact hw.move hc rfl rfl rfl (fun _ _ h => h) trivial (fun token h => returned_error_fresh token h)
          fun _ _ h => by cases h
      | ok token =>
        obtain ⟨huid, hresp⟩ := hw.calls _ (List.mem_of_getElem? hc)
        refine hw.move hc rfl rfl rfl (fun _ _ h => h) ⟨huid, resp, hresp, huid, rfl, rfl⟩ ?_ fun _ _ h => by cases h
        intro drawn hdrawn
        cases hdrawn
        exact hok
    · cases h
  | store c redisNow outcome =>
    simp only [step] at h
    split at h
    · rename_i account uid serverID value isNewUser hc
      cases h
      cases outcome with
      | failed err =>
        exact hw.move hc rfl rfl rfl (fun _ _ h => h) trivial (fun token h => returned_error_fresh token h)
          fun _ _ h => by cases h
      | ok => exact hw.write hc redisNow fun v b h => by cases h; rfl
      | lost err => exact hw.write hc redisNow fun v b h => by cases h
    · cases h

theorem issuing_init : Issuing config init where
  calls _ h := absurd h List.not_mem_nil
  fresh _ h := absurd h List.not_mem_nil
  apart _ _ _ _ _ h := by cases h
  issued _ h := absurd h List.not_mem_nil
  keys token stored := by
    constructor
    · intro h
      cases h
    · rintro ⟨_, h, _⟩
      exact absurd h List.not_mem_nil
  returned _ _ _ _ h := by cases h

end Steps

theorem tokens_identify (config : Nat → Config) (ls : List Label) (w : World) (h : run (step config) init ls = some w)
    (hfresh : Guarded (step config) Fresh init ls) :
    (∀ token redisNow value, getLoginToken w.tokens token redisNow = some value ↔
        ∃ i ∈ w.issued, i.value = value ∧ value.token = token ∧
          redisNow < i.storedAt + (config i.account).effectiveTTL) ∧
      (∀ i ∈ w.issued, ∃ call user, w.calls[i.call]? = some call ∧ call.account = i.account ∧ i.value.uid = call.uid ∧
        (w.repos (config i.account).playerServer).users call.uid = some user ∧ user.roleID = i.value.roleID ∧
        int32 user.serverID = i.value.serverID) ∧
      (∀ i ∈ w.issued, ∀ j ∈ w.issued, (config i.account).playerServer = (config j.account).playerServer →
        (i.value.roleID = j.value.roleID ↔ i.value.uid = j.value.uid)) ∧
      ∀ (c : Nat) (call : Call) (value : LoginToken) (isNewUser : Bool), w.calls[c]? = some call →
        call.pc = .returned (.ok (value, isNewUser)) → ∃ i ∈ w.issued, i.call = c ∧ i.value = value := by
  obtain ⟨ht, hw⟩ : (∀ p, Tallied (w.repos p) (w.answers p)) ∧ Issuing config w :=
    guarded_invariant (I := fun w => (∀ p, Tallied (w.repos p) (w.answers p)) ∧ Issuing config w)
      (fun _ _ _ hw hok hl => ⟨fun p => tallied_served hw.1 (served_step hl) p, issuing_step hw.1 hw.2 hok hl⟩)
      ⟨fun _ => tallied_new, issuing_init⟩ hfresh h
  refine ⟨fun token redisNow value => ?_, fun i hi => ?_, fun i hi j hj hserver => ?_, hw.returned⟩
  · unfold getLoginToken
    constructor
    · intro hget
      split at hget
      · cases hget
      · rename_i stored hstored
        obtain ⟨i, hi, htoken, rfl⟩ := (hw.keys token stored).mp hstored
        split_ifs at hget with hlive
        cases hget
        exact ⟨i, hi, rfl, htoken, hlive⟩
    · rintro ⟨i, hi, rfl, htoken, hlive⟩
      rw [(hw.keys token _).mpr ⟨i, hi, htoken, rfl⟩]
      exact if_pos hlive
  · obtain ⟨call, hcall, haccount, huid, resp, hresp, hsame, hrole, hserver⟩ := hw.issued i hi
    obtain ⟨user, huser, hrole', hserver'⟩ := (ht _).answered resp hresp
    rw [hsame] at huser
    exact ⟨call, user, hcall, haccount, huid, huser, hrole'.trans hrole, hserver'.trans hserver⟩
  · obtain ⟨_, _, _, huid, a, ha, hua, hra, _⟩ := hw.issued i hi
    obtain ⟨_, _, _, huid', b, hb, hub, hrb, _⟩ := hw.issued j hj
    rw [← hserver] at hb
    rw [← hra, ← hrb, huid, huid', ← hua, ← hub]
    exact (ht _).role_iff ha hb

section TwoLogins

def twoLogins : List Label :=
  [.begin 0 7 1, .begin 1 9 1, .login 0 .ok, .login 1 .ok, .token 1 (.ok "b2") 10, .token 0 (.ok "a1") 10,
    .store 0 11 .ok, .store 1 12 .ok]

theorem twoLogins_identified :
    ∃ w, run (step fun _ => ⟨0, minute⟩) init twoLogins = some w ∧
      (∃ value, getLoginToken w.tokens "b2" 13 = some value ∧ value.uid = 9 ∧ value.roleID = 100002) ∧
      ∀ i ∈ w.issued, ∀ j ∈ w.issued, i.value.roleID = j.value.roleID ↔ i.value.uid = j.value.uid := by
  have hrun : run (step fun _ => ⟨0, minute⟩) init twoLogins =
      some ((run (step fun _ => ⟨0, minute⟩) init twoLogins).get (by decide)) := (Option.some_get _).symm
  obtain ⟨_, _, hroles, _⟩ := tokens_identify (fun _ => ⟨0, minute⟩) twoLogins _ hrun (by decide)
  exact ⟨_, hrun, ⟨⟨"b2", 9, 100002, 1, 10 + minute⟩, by decide, rfl, rfl⟩, fun i hi j hj => hroles i hi j hj rfl⟩

end TwoLogins

end GlobalMailSystem.Login
