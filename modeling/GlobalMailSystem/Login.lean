import GlobalMailSystem.MailCommands
import GlobalMailSystem.RoutingStore

/-!
`Service.Login` on any number of account servers, each with the player server it dials. A label is one
call to the player server, to the random source or to Redis.
-/

namespace GlobalMailSystem.Login

open Transition MailCommands

structure UserIdentity where
  uid : Int
  roleID : Int
  serverID : Int

structure LoginResponse where
  uid : Int
  roleID : Int
  serverID : Int
  isNewUser : Bool
  deriving DecidableEq

structure MemoryUserRepository where
  nextID : Int
  users : Int → Option UserIdentity

def MemoryUserRepository.new : MemoryUserRepository := ⟨100000, fun _ => none⟩

def MemoryUserRepository.getOrCreateUser (r : MemoryUserRepository) (uid serverID : Int) :
    MemoryUserRepository × UserIdentity × Bool :=
  match r.users uid with
  | some user => (r, user, false)
  | none =>
    let user : UserIdentity := ⟨uid, r.nextID + 1, serverID⟩
    (⟨r.nextID + 1, Function.update r.users uid (some user)⟩, user, true)

def errInvalidLoginRequest : String := "invalid login request"

def accountLogin (r : MemoryUserRepository) (uid serverID : Int) :
    MemoryUserRepository × Except String LoginResponse :=
  if uid ≤ 0 ∨ serverID ≤ 0 then (r, .error errInvalidLoginRequest)
  else
    let created := r.getOrCreateUser uid serverID
    let identity := created.2.1
    (created.1, .ok ⟨identity.uid, identity.roleID, int32 identity.serverID, created.2.2⟩)

structure LoginToken where
  token : String
  uid : Int
  roleID : Int
  serverID : Int
  expireAt : Time
  deriving DecidableEq

abbrev TokenKeys := String → Option (Stored LoginToken)

def getLoginToken (keys : TokenKeys) (token : String) (redisNow : Time) : Option LoginToken :=
  match keys token with
  | none => none
  | some stored => if redisNow < stored.keyExpireAt then some stored.value else none

def setLoginToken (keys : TokenKeys) (value : LoginToken) (ttl redisNow : Time) : TokenKeys :=
  Function.update keys value.token
    (some ⟨value, redisNow + RoutingKeys.keyTTL ttl value.expireAt redisNow⟩)

structure Config where
  playerServer : Nat
  ttl : Time

def Config.effectiveTTL (config : Config) : Time := if config.ttl ≤ 0 then 2 * minute else config.ttl

inductive CallPC
  | login
  | token (resp : LoginResponse)
  | store (value : LoginToken) (isNewUser : Bool)
  | returned (result : Except String (LoginToken × Bool))

structure Call where
  account : Nat
  uid : Int
  serverID : Int
  pc : CallPC

structure Issue where
  call : Nat
  account : Nat
  value : LoginToken
  storedAt : Time

/-- `answers` is the history of what each player server has answered since it was started, `issued` that
of the tokens. -/
structure World where
  repos : Nat → MemoryUserRepository
  answers : Nat → List LoginResponse
  tokens : TokenKeys
  issued : List Issue
  calls : List Call

inductive Label
  | begin (account : Nat) (uid serverID : Int)
  | login (c : Nat) (outcome : Outcome)
  | token (c : Nat) (random : Except String String) (now : Time)
  | store (c : Nat) (redisNow : Time) (outcome : Outcome)
  | restart (playerServer : Nat)

def World.setPC (w : World) (c : Nat) (call : Call) (pc : CallPC) : World :=
  { w with calls := w.calls.set c { call with pc } }

def World.answer (w : World) (p : Nat) (r : MemoryUserRepository) (resp : LoginResponse) : World :=
  { w with
    repos := Function.update w.repos p r
    answers := Function.update w.answers p (w.answers p ++ [resp]) }

def loggedIn (w : World) (c : Nat) (call : Call) (p : Nat) (lost : Option String) : World :=
  match accountLogin (w.repos p) call.uid (int32 call.serverID) with
  | (_, .error err) => w.setPC c call (.returned (.error (lost.getD err)))
  | (r, .ok resp) =>
    match lost with
    | none => (w.answer p r resp).setPC c call (.token resp)
    | some err => (w.answer p r resp).setPC c call (.returned (.error err))

def World.issue (w : World) (c : Nat) (account : Nat) (value : LoginToken) (ttl redisNow : Time) : World :=
  { w with
    tokens := setLoginToken w.tokens value ttl redisNow
    issued := w.issued ++ [⟨c, account, value, redisNow⟩] }

section Step

variable (config : Nat → Config)

def loginStep (w : World) (c : Nat) (call : Call) : Outcome → World
  | .ok => loggedIn w c call (config call.account).playerServer none
  | .failed err => w.setPC c call (.returned (.error err))
  | .lost err => loggedIn w c call (config call.account).playerServer (some err)

def tokenStep (w : World) (c : Nat) (call : Call) (resp : LoginResponse) (now : Time) : Except String String → World
  | .error err => w.setPC c call (.returned (.error err))
  | .ok token =>
    let value : LoginToken :=
      ⟨token, resp.uid, resp.roleID, resp.serverID, now + (config call.account).effectiveTTL⟩
    w.setPC c call (.store value resp.isNewUser)

def storeStep (w : World) (c : Nat) (call : Call) (value : LoginToken) (isNewUser : Bool) (redisNow : Time) :
    Outcome → World
  | .ok => (w.issue c call.account value (config call.account).effectiveTTL redisNow).setPC c call
      (.returned (.ok (value, isNewUser)))
  | .failed err => w.setPC c call (.returned (.error err))
  | .lost err => (w.issue c call.account value (config call.account).effectiveTTL redisNow).setPC c call
      (.returned (.error err))

def step (w : World) : Label → Option World
  | .begin account uid serverID => some { w with calls := w.calls ++ [⟨account, uid, serverID, .login⟩] }
  | .login c outcome =>
    match w.calls[c]? with
    | some ⟨account, uid, serverID, .login⟩ => some (loginStep config w c ⟨account, uid, serverID, .login⟩ outcome)
    | _ => none
  | .token c random now =>
    match w.calls[c]? with
    | some ⟨account, uid, serverID, .token resp⟩ =>
      some (tokenStep config w c ⟨account, uid, serverID, .token resp⟩ resp now random)
    | _ => none
  | .store c redisNow outcome =>
    match w.calls[c]? with
    | some ⟨account, uid, serverID, .store value isNewUser⟩ =>
      some (storeStep config w c ⟨account, uid, serverID, .store value isNewUser⟩ value isNewUser redisNow outcome)
    | _ => none
  | .restart p =>
    some { w with repos := Function.update w.repos p .new, answers := Function.update w.answers p [] }

def init : World := ⟨fun _ => .new, fun _ => [], fun _ => none, [], []⟩

end Step

section Repository

def roleAt (i : Nat) : Int := 100001 + i

structure Tallied (r : MemoryUserRepository) (answers : List LoginResponse) : Prop where
  next : r.nextID = 100000 + (answers.countP (·.isNewUser) : Int)
  roles : (answers.filter (·.isNewUser)).map (·.roleID) =
    (List.range (answers.countP (·.isNewUser))).map roleAt
  answered : ∀ resp ∈ answers, ∃ user, r.users resp.uid = some user ∧ user.roleID = resp.roleID ∧
    int32 user.serverID = resp.serverID
  known : ∀ uid user, r.users uid = some user → user.uid = uid ∧ user.roleID ≤ r.nextID ∧
    ∃ resp ∈ answers, resp.uid = uid
  distinct : ∀ uid uid' user user', r.users uid = some user → r.users uid' = some user' →
    user.roleID = user'.roleID → uid = uid'
  first : ∀ before resp after, answers = before ++ resp :: after →
    (resp.isNewUser = true ↔ ∀ old ∈ before, old.uid ≠ resp.uid)

theorem tallied_new : Tallied .new [] where
  next := rfl
  roles := rfl
  answered _ h := absurd h List.not_mem_nil
  known uid user h := by cases h
  distinct uid uid' user user' h := by cases h
  first before resp after h := by
    cases before <;> cases h

theorem append_singleton_eq {before after answers : List LoginResponse} {resp last : LoginResponse}
    (h : answers ++ [last] = before ++ resp :: after) :
    (∃ rest, after = rest ++ [last] ∧ answers = before ++ resp :: rest) ∨ after = [] ∧ before = answers ∧ resp = last := by
  rcases List.eq_nil_or_concat' after with rfl | ⟨rest, x, rfl⟩
  · obtain ⟨hbefore, hlast⟩ := List.append_inj' h rfl
    exact Or.inr ⟨rfl, hbefore.symm, (List.singleton_inj.mp hlast).symm⟩
  · rw [← List.cons_append, ← List.append_assoc] at h
    obtain ⟨hanswers, hlast⟩ := List.append_inj' h rfl
    exact Or.inl ⟨rest, by rw [List.singleton_inj.mp hlast], hanswers⟩

theorem Tallied.known_user {r : MemoryUserRepository} {answers : List LoginResponse} (h : Tallied r answers)
    {uid : Int} {user : UserIdentity} (huser : r.users uid = some user) :
    Tallied r (answers ++ [⟨user.uid, user.roleID, int32 user.serverID, false⟩]) := by
  obtain ⟨huid, hle, resp, hresp, hsame⟩ := h.known uid user huser
  refine ⟨?_, ?_, ?_, ?_, h.distinct, ?_⟩
  · simpa [List.countP_append] using h.next
  · simpa [List.filter_append, List.countP_append] using h.roles
  · intro other hother
    rcases List.mem_append.mp hother with hother | hother
    · exact h.answered other hother
    · rw [List.mem_singleton.mp hother]
      exact ⟨user, by rw [huid]; exact huser, rfl, rfl⟩
  · intro uid' user' huser'
    obtain ⟨huid', hle', resp', hresp', hsame'⟩ := h.known uid' user' huser'
    exact ⟨huid', hle', resp', List.mem_append_left _ hresp', hsame'⟩
  · intro before other after heq
    rcases append_singleton_eq heq with ⟨rest, _, hanswers⟩ | ⟨_, rfl, rfl⟩
    · exact h.first before other rest hanswers
    · refine ⟨Bool.noConfusion, fun hnone => ?_⟩
      exact absurd (hsame.trans huid.symm) (hnone resp hresp)

theorem Tallied.new_user {r : MemoryUserRepository} {answers : List LoginResponse} (h : Tallied r answers)
    {uid : Int} (hnone : r.users uid = none) (serverID : Int) :
    Tallied ⟨r.nextID + 1, Function.update r.users uid (some ⟨uid, r.nextID + 1, serverID⟩)⟩
      (answers ++ [⟨uid, r.nextID + 1, int32 serverID, true⟩]) := by
  have hfresh : ∀ resp ∈ answers, resp.uid ≠ uid := by
    intro resp hresp huid
    obtain ⟨user, huser, _⟩ := h.answered resp hresp
    rw [huid, hnone] at huser
    cases huser
  have hcount : (answers ++ [(⟨uid, r.nextID + 1, int32 serverID, true⟩ : LoginResponse)]).countP (·.isNewUser) =
      answers.countP (·.isNewUser) + 1 := by
    simp [List.countP_append]
  refine ⟨?_, ?_, ?_, ?_, ?_, ?_⟩
  · rw [hcount, h.next]
    push_cast
    ring
  · rw [hcount, List.range_succ, List.map_append, ← h.roles, List.filter_append, List.map_append]
    have hrole : r.nextID + 1 = roleAt (answers.countP (·.isNewUser)) := by
      rw [h.next, roleAt]
      omega
    simp [hrole]
  · intro resp hresp
    rcases List.mem_append.mp hresp with hresp | hresp
    · dsimp only
      rw [Function.update_of_ne (hfresh resp hresp)]
      exact h.answered resp hresp
    · rw [List.mem_singleton.mp hresp]
      exact ⟨_, Function.update_self _ _ _, rfl, rfl⟩
  · intro uid' user' huser'
    simp only [Function.update_apply] at huser'
    split_ifs at huser' with huid
    · cases huser'
      exact ⟨huid.symm, le_refl _, _, List.mem_append_right _ List.mem_cons_self, huid.symm⟩
    · obtain ⟨huid', hle, resp, hresp, hsame⟩ := h.known uid' user' huser'
      have hnext : user'.roleID ≤ r.nextID + 1 := by omega
      exact ⟨huid', hnext, resp, List.mem_append_left _ hresp, hsame⟩
  · intro u u' user user' hu hu' hrole
    simp only [Function.update_apply] at hu hu'
    split_ifs at hu hu' with huid huid' huid'
    · rw [huid, huid']
    · cases hu
      have hle := (h.known u' user' hu').2.1
      simp only at hrole
      omega
    · cases hu'
      have hle := (h.known u user hu).2.1
      simp only at hrole
      omega
    · exact h.distinct u u' user user' hu hu' hrole
  · intro before resp after heq
    rcases append_singleton_eq heq with ⟨rest, _, hanswers⟩ | ⟨_, rfl, rfl⟩
    · exact h.first before resp rest hanswers
    · exact ⟨fun _ => hfresh, fun _ => rfl⟩

theorem tallied_accountLogin {r r' : MemoryUserRepository} {answers : List LoginResponse} (h : Tallied r answers)
    {uid serverID : Int} {resp : LoginResponse} (hlogin : accountLogin r uid serverID = (r', .ok resp)) :
    Tallied r' (answers ++ [resp]) ∧ resp.uid = uid := by
  unfold accountLogin at hlogin
  split_ifs at hlogin
  · cases hlogin
  · obtain ⟨rfl, hresp⟩ := Prod.mk.inj hlogin
    obtain rfl := Except.ok.inj hresp
    unfold MemoryUserRepository.getOrCreateUser
    cases huser : r.users uid with
    | some user => exact ⟨h.known_user huser, (h.known uid user huser).1⟩
    | none => exact ⟨h.new_user huser serverID, rfl⟩

end Repository

section Roles

variable {config : Nat → Config} {w w' : World} {c : Nat} {call : Call}

inductive Served (w w' : World) : Prop
  | same (hrepos : w'.repos = w.repos) (hanswers : w'.answers = w.answers)
  | answered {p : Nat} {uid serverID : Int} {r : MemoryUserRepository} {resp : LoginResponse}
      (hlogin : accountLogin (w.repos p) uid serverID = (r, .ok resp))
      (hrepos : w'.repos = Function.update w.repos p r)
      (hanswers : w'.answers = Function.update w.answers p (w.answers p ++ [resp]))
  | restarted {p : Nat} (hrepos : w'.repos = Function.update w.repos p .new)
      (hanswers : w'.answers = Function.update w.answers p [])

theorem served_loggedIn (w : World) (c : Nat) (call : Call) (p : Nat) (lost : Option String) :
    Served w (loggedIn w c call p lost) := by
  unfold loggedIn
  split
  · exact .same rfl rfl
  · rename_i r resp hlogin
    cases lost with
    | none => exact .answered hlogin rfl rfl
    | some err => exact .answered hlogin rfl rfl

theorem served_step {l : Label} (h : step config w l = some w') : Served w w' := by
  cases l with
  | begin account uid serverID =>
    cases h
    exact .same rfl rfl
  | restart p =>
    cases h
    exact .restarted rfl rfl
  | login c outcome =>
    simp only [step] at h
    split at h
    · cases h
      cases outcome with
      | ok => exact served_loggedIn w c _ _ none
      | failed err => exact .same rfl rfl
      | lost err => exact served_loggedIn w c _ _ (some err)
    · cases h
  | token c random now =>
    simp only [step] at h
    split at h
    · cases h
      cases random <;> exact .same rfl rfl
    · cases h
  | store c redisNow outcome =>
    simp only [step] at h
    split at h
    · cases h
      cases outcome <;> exact .same rfl rfl
    · cases h

theorem tallied_served (hw : ∀ p, Tallied (w.repos p) (w.answers p)) (h : Served w w') (p : Nat) :
    Tallied (w'.repos p) (w'.answers p) := by
  cases h with
  | same hrepos hanswers =>
    rw [hrepos, hanswers]
    exact hw p
  | @answered q uid serverID r resp hlogin hrepos hanswers =>
    rw [hrepos, hanswers, Function.update_apply, Function.update_apply]
    split_ifs
    · exact (tallied_accountLogin (hw q) hlogin).1
    · exact hw p
  | @restarted q hrepos hanswers =>
    rw [hrepos, hanswers, Function.update_apply, Function.update_apply]
    split_ifs
    · exact tallied_new
    · exact hw p

theorem tallied_run {ls : List Label} (h : run (step config) init ls = some w) (p : Nat) :
    Tallied (w.repos p) (w.answers p) :=
  run_invariant (I := fun w => ∀ p, Tallied (w.repos p) (w.answers p))
    (fun _ _ _ hw hl => tallied_served hw (served_step hl)) (fun _ => tallied_new) h p

theorem Tallied.role_iff {r : MemoryUserRepository} {answers : List LoginResponse} (h : Tallied r answers)
    {a b : LoginResponse} (ha : a ∈ answers) (hb : b ∈ answers) : a.roleID = b.roleID ↔ a.uid = b.uid := by
  obtain ⟨user, huser, hrole, _⟩ := h.answered a ha
  obtain ⟨user', huser', hrole', _⟩ := h.answered b hb
  constructor
  · intro hsame
    exact h.distinct a.uid b.uid user user' huser huser' (by rw [hrole, hrole', hsame])
  · intro hsame
    rw [hsame, huser'] at huser
    cases huser
    rw [← hrole, ← hrole']

theorem roles_by_first_login (config : Nat → Config) (ls : List Label) (w : World)
    (h : run (step config) init ls = some w) (p : Nat) :
    (∀ a ∈ w.answers p, ∀ b ∈ w.answers p, a.roleID = b.roleID ↔ a.uid = b.uid) ∧
      (∀ a ∈ w.answers p, ∀ b ∈ w.answers p, a.uid = b.uid → a.serverID = b.serverID) ∧
      (∀ before a after, w.answers p = before ++ a :: after →
        (a.isNewUser = true ↔ ∀ old ∈ before, old.uid ≠ a.uid)) ∧
      ((w.answers p).filter (·.isNewUser)).map (·.roleID) =
        (List.range ((w.answers p).countP (·.isNewUser))).map roleAt := by
  have ht := tallied_run h p
  refine ⟨fun a ha b hb => ht.role_iff ha hb, fun a ha b hb hsame => ?_, ht.first, ht.roles⟩
  obtain ⟨user, huser, _, hserver⟩ := ht.answered a ha
  obtain ⟨user', huser', _, hserver'⟩ := ht.answered b hb
  rw [hsame, huser'] at huser
  cases huser
  rw [← hserver, ← hserver']

end Roles

section Relogin

def relogin : List Label :=
  [.begin 0 7 1, .begin 1 9 2, .login 1 .ok, .login 0 (.lost "timeout"), .begin 0 7 3, .login 2 .ok]

theorem relogin_same_role :
    ∃ w, run (step fun _ => ⟨0, minute⟩) init relogin = some w ∧
      w.answers 0 = [⟨9, 100001, 2, true⟩, ⟨7, 100002, 1, true⟩, ⟨7, 100002, 1, false⟩] ∧
      ∀ a ∈ w.answers 0, ∀ b ∈ w.answers 0, a.roleID = b.roleID ↔ a.uid = b.uid := by
  have hrun : run (step fun _ => ⟨0, minute⟩) init relogin =
      some ((run (step fun _ => ⟨0, minute⟩) init relogin).get (by decide)) := (Option.some_get _).symm
  exact ⟨_, hrun, by decide, (roles_by_first_login (fun _ => ⟨0, minute⟩) relogin _ hrun 0).1⟩

end Relogin

end GlobalMailSystem.Login
