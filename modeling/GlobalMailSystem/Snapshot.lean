import GlobalMailSystem.Conditions

namespace GlobalMailSystem

def GlobalMail.Eligible (mail : GlobalMail) (profile : UserProfile) (now : Time) : Prop :=
  mail.status = .published ∧ mail.inWindow now ∧
    conditionsMatch (compileConditions mail.conditions) profile = true

structure CacheSnapshot where
  version : Int
  maxGlobalMailID : Int
  mailsByID : Int → Option GlobalMail
  activeMailIDs : List Int
  mailIDsByServer : Int → List Int
  compiledConditions : Int → List CompiledCondition
  lastRefreshTime : Time

namespace CacheSnapshot

def new (version : Int) (now : Time) : CacheSnapshot :=
  ⟨version, 0, fun _ => none, [], fun _ => [], fun _ => [], now⟩

def addToServer (mailID : Int) (index : Int → List Int) (serverID : Int) : Int → List Int :=
  Function.update index serverID (index serverID ++ [mailID])

def addMail (next : CacheSnapshot) (mail : GlobalMail) : CacheSnapshot :=
  { next with
    mailsByID := Function.update next.mailsByID mail.id (some mail)
    activeMailIDs := next.activeMailIDs ++ [mail.id]
    maxGlobalMailID := if mail.id > next.maxGlobalMailID then mail.id else next.maxGlobalMailID
    compiledConditions :=
      Function.update next.compiledConditions mail.id (compileConditions mail.conditions)
    mailIDsByServer :=
      (serverIDsFromConditions mail.conditions).foldl (addToServer mail.id) next.mailIDsByServer }

def build (version : Int) (mails : List GlobalMail) (now : Time) : CacheSnapshot :=
  mails.foldl addMail (new version now)

def candidateIDs (snapshot : CacheSnapshot) (profile : UserProfile) : List Int :=
  if (snapshot.mailIDsByServer profile.serverID).length = 0 then snapshot.activeMailIDs
  else snapshot.mailIDsByServer profile.serverID

def visible? (snapshot : CacheSnapshot) (profile : UserProfile) (now : Time) (mailID : Int) :
    Option GlobalMail :=
  match snapshot.mailsByID mailID with
  | none => none
  | some mail =>
    if mail.status ≠ .published then none
    else if now < mail.startTime ∨ ¬ now < mail.expireTime then none
    else if conditionsMatch (snapshot.compiledConditions mailID) profile then some mail
    else none

def visibleMails (snapshot : CacheSnapshot) (profile : UserProfile) (now : Time) : List GlobalMail :=
  (snapshot.candidateIDs profile).filterMap (snapshot.visible? profile now)

theorem build_append (version : Int) (mails : List GlobalMail) (mail : GlobalMail) (now : Time) :
    build version (mails ++ [mail]) now = (build version mails now).addMail mail := by
  simp [build]

theorem build_lastRefreshTime (version : Int) (mails : List GlobalMail) (now : Time) :
    (build version mails now).lastRefreshTime = now := by
  induction mails using List.reverseRecOn with
  | nil => rfl
  | append_singleton mails mail ih => rw [build_append]; exact ih

theorem build_version (version : Int) (mails : List GlobalMail) (now : Time) :
    (build version mails now).version = version := by
  induction mails using List.reverseRecOn with
  | nil => rfl
  | append_singleton mails mail ih => rw [build_append]; exact ih

theorem build_activeMailIDs (version : Int) (mails : List GlobalMail) (now : Time) :
    (build version mails now).activeMailIDs = mails.map (·.id) := by
  induction mails using List.reverseRecOn with
  | nil => rfl
  | append_singleton mails mail ih =>
    rw [build_append, List.map_append, ← ih]
    rfl

theorem build_mailsByID_mem {version : Int} {mails : List GlobalMail} {now : Time} {id : Int}
    {mail : GlobalMail} (h : (build version mails now).mailsByID id = some mail) :
    mail ∈ mails ∧ mail.id = id := by
  induction mails using List.reverseRecOn with
  | nil => simp [build, new] at h
  | append_singleton mails last ih =>
    rw [build_append] at h
    simp only [addMail, Function.update_apply] at h
    split_ifs at h with hid
    · simp only [Option.some.injEq] at h
      subst h
      exact ⟨by simp, hid.symm⟩
    · obtain ⟨hm, he⟩ := ih h
      exact ⟨List.mem_append_left _ hm, he⟩

theorem build_mailsByID_isSome (version : Int) {mails : List GlobalMail} (now : Time)
    {mail : GlobalMail} (h : mail ∈ mails) :
    ∃ m, (build version mails now).mailsByID mail.id = some m := by
  induction mails using List.reverseRecOn with
  | nil => simp at h
  | append_singleton mails last ih =>
    rw [build_append]
    simp only [addMail, Function.update_apply]
    by_cases hid : mail.id = last.id
    · exact ⟨last, by rw [if_pos hid]⟩
    · rw [if_neg hid]
      rcases List.mem_append.mp h with h | h
      · exact ih h
      · simp only [List.mem_singleton] at h
        exact absurd (h ▸ rfl) hid

theorem build_mailsByID {version : Int} {mails : List GlobalMail} {now : Time}
    (hids : (mails.map (·.id)).Nodup) {id : Int} {mail : GlobalMail} :
    (build version mails now).mailsByID id = some mail ↔ mail ∈ mails ∧ mail.id = id := by
  constructor
  · exact build_mailsByID_mem
  · rintro ⟨hm, rfl⟩
    obtain ⟨m, h⟩ := build_mailsByID_isSome version now hm
    obtain ⟨hm', hid⟩ := build_mailsByID_mem h
    rw [h, List.inj_on_of_nodup_map hids hm' hm hid]

theorem build_compiledConditions {version : Int} {mails : List GlobalMail} {now : Time} {id : Int}
    {mail : GlobalMail} (h : (build version mails now).mailsByID id = some mail) :
    (build version mails now).compiledConditions id = compileConditions mail.conditions := by
  induction mails using List.reverseRecOn with
  | nil => simp [build, new] at h
  | append_singleton mails last ih =>
    rw [build_append] at h ⊢
    simp only [addMail, Function.update_apply] at h ⊢
    split_ifs at h ⊢ with hid
    · simp only [Option.some.injEq] at h
      rw [h]
    · exact ih h

theorem build_maxGlobalMailID {version : Int} {mails : List GlobalMail} {now : Time} {mail : GlobalMail}
    (h : mail ∈ mails) : mail.id ≤ (build version mails now).maxGlobalMailID := by
  induction mails using List.reverseRecOn with
  | nil => exact absurd h List.not_mem_nil
  | append_singleton mails last ih =>
    rw [build_append]
    simp only [addMail]
    rcases List.mem_append.mp h with h | h
    · have hle := ih h
      split_ifs <;> omega
    · rw [List.mem_singleton.mp h]
      split_ifs <;> omega

theorem mem_foldl_index {add : (Int → List Int) → Int → Int → List Int} {mailID : Int}
    (hadd : ∀ index key other id, id ∈ add index key other ↔ id ∈ index other ∨ (id = mailID ∧ other = key))
    (keys : List Int) (index : Int → List Int) (key id : Int) :
    id ∈ keys.foldl add index key ↔ id ∈ index key ∨ (id = mailID ∧ key ∈ keys) := by
  induction keys generalizing index with
  | nil => simp
  | cons k rest ih =>
    rw [List.foldl_cons, ih, hadd, List.mem_cons]
    tauto

theorem mem_addToServer (mailID : Int) (index : Int → List Int) (serverID other id : Int) :
    id ∈ addToServer mailID index serverID other ↔
      id ∈ index other ∨ (id = mailID ∧ other = serverID) := by
  simp only [addToServer, Function.update_apply]
  split_ifs with hs <;> simp [hs]

theorem mem_mailIDsByServer {version : Int} {mails : List GlobalMail} {now : Time}
    {serverID id : Int} :
    id ∈ (build version mails now).mailIDsByServer serverID ↔
      ∃ mail ∈ mails, mail.id = id ∧ serverID ∈ serverIDsFromConditions mail.conditions := by
  induction mails using List.reverseRecOn with
  | nil => simp [build, new]
  | append_singleton mails last ih =>
    rw [build_append]
    simp only [addMail, mem_foldl_index (mem_addToServer last.id), ih, List.mem_append,
      List.mem_singleton]
    constructor
    · rintro (⟨mail, hm, h⟩ | ⟨rfl, hs⟩)
      · exact ⟨mail, Or.inl hm, h⟩
      · exact ⟨last, Or.inr rfl, rfl, hs⟩
    · rintro ⟨mail, hm | rfl, h⟩
      · exact Or.inl ⟨mail, hm, h⟩
      · exact Or.inr ⟨h.1.symm, h.2⟩

theorem visible?_eq_some {snapshot : CacheSnapshot} {profile : UserProfile} {now : Time} {id : Int}
    {mail : GlobalMail} :
    snapshot.visible? profile now id = some mail ↔
      snapshot.mailsByID id = some mail ∧ mail.status = .published ∧ mail.inWindow now ∧
        conditionsMatch (snapshot.compiledConditions id) profile = true := by
  unfold visible? GlobalMail.inWindow
  cases snapshot.mailsByID id with
  | none => simp
  | some m =>
    simp only [Option.some.injEq]
    split_ifs with hs hw hc
    · simp only [false_iff]
      rintro ⟨rfl, hp, -⟩
      exact hs hp
    · simp only [false_iff]
      rintro ⟨rfl, -, ⟨hstart, hexpire⟩, -⟩
      rcases hw with hw | hw
      · exact absurd hw (not_lt.mpr hstart)
      · exact hw hexpire
    · simp only [Option.some.injEq]
      constructor
      · rintro rfl
        rw [not_or, not_lt, not_not] at hw
        exact ⟨rfl, not_not.mp hs, hw, hc⟩
      · exact fun h => h.1
    · simp only [false_iff]
      rintro ⟨rfl, -, -, h⟩
      exact hc h

theorem visible?_build {version : Int} {mails : List GlobalMail} {builtAt : Time}
    {profile : UserProfile} {now : Time} {id : Int} {mail : GlobalMail} :
    (build version mails builtAt).visible? profile now id = some mail ↔
      (build version mails builtAt).mailsByID id = some mail ∧ mail.Eligible profile now := by
  rw [visible?_eq_some]
  constructor
  · rintro ⟨hm, hs, hw, hc⟩
    rw [build_compiledConditions hm] at hc
    exact ⟨hm, hs, hw, hc⟩
  · rintro ⟨hm, hs, hw, hc⟩
    rw [← build_compiledConditions hm] at hc
    exact ⟨hm, hs, hw, hc⟩

end CacheSnapshot

end GlobalMailSystem
