import GlobalMailSystem.Snapshot

namespace GlobalMailSystem.ServerIndex

open CacheSnapshot

def fullScan (snapshot : CacheSnapshot) (profile : UserProfile) (now : Time) : List GlobalMail :=
  snapshot.activeMailIDs.filterMap (snapshot.visible? profile now)

def Agrees (snapshot : CacheSnapshot) (profile : UserProfile) (now : Time) : Prop :=
  (∀ mail, mail ∈ snapshot.visibleMails profile now ↔
    (∃ id, snapshot.mailsByID id = some mail) ∧ mail.Eligible profile now) ∧
  ∀ mail ∈ fullScan snapshot profile now, mail ∈ snapshot.visibleMails profile now

section Built

variable {version : Int} {mails : List GlobalMail} {builtAt : Time}
  {profile : UserProfile} {now : Time} {mail : GlobalMail}

theorem mem_visibleMails (hids : (mails.map (·.id)).Nodup) :
    mail ∈ (build version mails builtAt).visibleMails profile now ↔
      mail ∈ mails ∧ mail.id ∈ (build version mails builtAt).candidateIDs profile ∧
        mail.Eligible profile now := by
  simp only [visibleMails, List.mem_filterMap, visible?_build, build_mailsByID hids]
  constructor
  · rintro ⟨id, hid, ⟨hm, rfl⟩, he⟩
    exact ⟨hm, hid, he⟩
  · rintro ⟨hm, hid, he⟩
    exact ⟨mail.id, hid, ⟨hm, rfl⟩, he⟩

theorem mem_fullScan (hids : (mails.map (·.id)).Nodup) :
    mail ∈ fullScan (build version mails builtAt) profile now ↔
      mail ∈ mails ∧ mail.Eligible profile now := by
  simp only [fullScan, List.mem_filterMap, visible?_build, build_mailsByID hids, build_activeMailIDs]
  constructor
  · rintro ⟨id, _, ⟨hm, _⟩, he⟩
    exact ⟨hm, he⟩
  · rintro ⟨hm, he⟩
    exact ⟨mail.id, List.mem_map_of_mem hm, ⟨hm, rfl⟩, he⟩

theorem candidateIDs_unindexed
    (h : ∀ m ∈ mails, profile.serverID ∉ serverIDsFromConditions m.conditions) :
    (build version mails builtAt).candidateIDs profile = mails.map (·.id) := by
  have hempty : (build version mails builtAt).mailIDsByServer profile.serverID = [] := by
    apply List.eq_nil_iff_forall_not_mem.mpr
    intro id hid
    obtain ⟨m, hm, _, hs⟩ := mem_mailIDsByServer.mp hid
    exact h m hm hs
  simp [candidateIDs, hempty, build_activeMailIDs]

theorem mem_candidateIDs_indexed (hids : (mails.map (·.id)).Nodup) {listed : GlobalMail}
    (hlisted : listed ∈ mails)
    (hserver : profile.serverID ∈ serverIDsFromConditions listed.conditions) (hm : mail ∈ mails) :
    mail.id ∈ (build version mails builtAt).candidateIDs profile ↔
      profile.serverID ∈ serverIDsFromConditions mail.conditions := by
  have hne : (build version mails builtAt).mailIDsByServer profile.serverID ≠ [] :=
    List.ne_nil_of_mem (mem_mailIDsByServer.mpr ⟨listed, hlisted, rfl, hserver⟩)
  rw [candidateIDs, if_neg (by simpa using hne), mem_mailIDsByServer]
  constructor
  · rintro ⟨m, hm', hid, hs⟩
    rwa [List.inj_on_of_nodup_map hids hm' hm hid] at hs
  · intro hs
    exact ⟨mail, hm, rfl, hs⟩

theorem agrees_iff_visible (hids : (mails.map (·.id)).Nodup) :
    Agrees (build version mails builtAt) profile now ↔
      ∀ m ∈ mails, m.Eligible profile now →
        m.id ∈ (build version mails builtAt).candidateIDs profile := by
  constructor
  · rintro ⟨hset, _⟩ m hm he
    have hv := (hset m).mpr ⟨⟨m.id, (build_mailsByID hids).mpr ⟨hm, rfl⟩⟩, he⟩
    exact ((mem_visibleMails hids).mp hv).2.1
  · intro h
    refine ⟨fun m => ?_, fun m hm => ?_⟩
    · rw [mem_visibleMails hids]
      constructor
      · rintro ⟨hm, _, he⟩
        exact ⟨⟨m.id, (build_mailsByID hids).mpr ⟨hm, rfl⟩⟩, he⟩
      · rintro ⟨⟨id, hid⟩, he⟩
        have hm := (build_mailsByID_mem hid).1
        exact ⟨hm, h m hm he, he⟩
    · obtain ⟨hm, he⟩ := (mem_fullScan hids).mp hm
      exact (mem_visibleMails hids).mpr ⟨hm, h m hm he, he⟩

end Built

theorem serverIndex_agrees_iff (version : Int) (mails : List GlobalMail) (builtAt : Time)
    (profile : UserProfile) (now : Time) (hids : (mails.map (·.id)).Nodup) :
    Agrees (build version mails builtAt) profile now ↔
      (∀ m ∈ mails, profile.serverID ∉ serverIDsFromConditions m.conditions) ∨
      ∀ m ∈ mails, m.Eligible profile now →
        profile.serverID ∈ serverIDsFromConditions m.conditions := by
  rw [agrees_iff_visible hids]
  by_cases hnone : ∀ m ∈ mails, profile.serverID ∉ serverIDsFromConditions m.conditions
  · rw [candidateIDs_unindexed hnone]
    constructor
    · intro _
      exact Or.inl hnone
    · intro _ m hm _
      exact List.mem_map_of_mem hm
  · have hsome := hnone
    push Not at hsome
    obtain ⟨listed, hlisted, hserver⟩ := hsome
    constructor
    · intro h
      refine Or.inr fun m hm he => ?_
      exact (mem_candidateIDs_indexed hids hlisted hserver hm).mp (h m hm he)
    · rintro (h | h) m hm he
      · exact absurd h hnone
      · exact (mem_candidateIDs_indexed hids hlisted hserver hm).mpr (h m hm he)

def serverMail : GlobalMail :=
  { (default : GlobalMail) with
    id := 100, status := .published, startTime := 0, expireTime := 10
    conditions := [⟨1, 100, "server", "in", .value (.arr [.int 1, .int 2])⟩] }

def everyoneMail : GlobalMail :=
  { (default : GlobalMail) with id := 101, status := .published, startTime := 0, expireTime := 10 }

def serverOneProfile : UserProfile := { (default : UserProfile) with roleID := 7, serverID := 1 }

def otherServerMail : GlobalMail :=
  { serverMail with id := 102, conditions := [⟨2, 102, "server", "in", .value (.arr [.int 3])⟩] }

theorem serverMail_agrees : Agrees (build 1 [serverMail, otherServerMail] 5) serverOneProfile 5 := by
  apply (serverIndex_agrees_iff 1 [serverMail, otherServerMail] 5 serverOneProfile 5 (by decide)).mpr
  refine Or.inr fun m hm he => ?_
  rcases List.mem_pair.mp hm with rfl | rfl
  · decide
  · exact absurd he.2.2 (by decide)

/-- A mail without server condition disappears for server 1 as soon as another mail names it. -/
theorem everyoneMail_hidden :
    ([serverMail, everyoneMail].map (·.id)).Nodup ∧ everyoneMail.Eligible serverOneProfile 5 ∧
      ¬ Agrees (build 1 [serverMail, everyoneMail] 5) serverOneProfile 5 := by
  have he : everyoneMail.Eligible serverOneProfile 5 := ⟨rfl, by decide, by decide⟩
  have hids : ([serverMail, everyoneMail].map (·.id)).Nodup := by decide
  refine ⟨hids, he, fun h => ?_⟩
  have hmem := (agrees_iff_visible hids).mp h everyoneMail (by simp) he
  exact absurd hmem (by decide)

end GlobalMailSystem.ServerIndex
