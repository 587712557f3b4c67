import GlobalMailSystem.MailListOrder
import GlobalMailSystem.RefreshedSnapshot

namespace GlobalMailSystem

namespace CacheSnapshot

structure SameView (s t : CacheSnapshot) : Prop where
  mailsByID : s.mailsByID = t.mailsByID
  compiledConditions : s.compiledConditions = t.compiledConditions
  maxGlobalMailID : s.maxGlobalMailID = t.maxGlobalMailID
  visibleMails : ∀ profile now, (s.visibleMails profile now).Perm (t.visibleMails profile now)

theorem compiledConditions_of_none {version : Int} {mails : List GlobalMail} {builtAt : Time} {id : Int}
    (h : (build version mails builtAt).mailsByID id = none) :
    (build version mails builtAt).compiledConditions id = [] := by
  induction mails using List.reverseRecOn with
  | nil => rfl
  | append_singleton mails last ih =>
    rw [build_append] at h ⊢
    simp only [addMail, Function.update_apply] at h ⊢
    split_ifs at h ⊢
    exact ih h

theorem maxGlobalMailID_eq_foldl (version : Int) (mails : List GlobalMail) (builtAt : Time) :
    (build version mails builtAt).maxGlobalMailID = (mails.map (·.id)).foldl max 0 := by
  induction mails using List.reverseRecOn with
  | nil => rfl
  | append_singleton mails last ih =>
    rw [build_append, List.map_append, List.foldl_append, ← ih]
    simp only [addMail, List.map_cons, List.map_nil, List.foldl_cons, List.foldl_nil]
    split_ifs <;> omega

theorem candidacies_perm {mails mails' : List GlobalMail} (h : mails.Perm mails') (serverID : Int) :
    candidacies mails serverID = candidacies mails' serverID := by
  funext mail
  simp only [candidacies, h.all_eq]

theorem visible?_congr {s t : CacheSnapshot} (hmails : s.mailsByID = t.mailsByID)
    (hconditions : s.compiledConditions = t.compiledConditions) (profile : UserProfile) (now : Time) :
    s.visible? profile now = t.visible? profile now := by
  funext id
  simp only [visible?, hmails, hconditions]

theorem sameView_build {mails mails' : List GlobalMail} (h : mails.Perm mails')
    (hids : (mails.map (·.id)).Nodup) (version version' : Int) (builtAt builtAt' : Time) :
    SameView (build version mails builtAt) (build version' mails' builtAt') := by
  have hids' : (mails'.map (·.id)).Nodup := (h.map _).nodup_iff.mp hids
  have hmails : (build version mails builtAt).mailsByID = (build version' mails' builtAt').mailsByID := by
    funext id
    apply Option.ext
    intro mail
    rw [build_mailsByID hids, build_mailsByID hids', h.mem_iff]
  have hconditions : (build version mails builtAt).compiledConditions =
      (build version' mails' builtAt').compiledConditions := by
    funext id
    cases hid : (build version mails builtAt).mailsByID id with
    | none => rw [compiledConditions_of_none hid, compiledConditions_of_none (hmails ▸ hid)]
    | some mail => rw [build_compiledConditions hid, build_compiledConditions (hmails ▸ hid)]
  refine ⟨hmails, hconditions, ?_, fun profile now => ?_⟩
  · rw [maxGlobalMailID_eq_foldl, maxGlobalMailID_eq_foldl]
    exact (h.map _).foldl_eq' (fun a _ b _ c => by omega) 0
  · unfold visibleMails
    rw [visible?_congr hmails hconditions, candidateIDs_build, candidateIDs_build, candidacies_perm h]
    exact (h.flatMap_right _).filterMap _

end CacheSnapshot

namespace LocalCache

open SharedCache

section Clocks

def refillAt (setAt : Int → Time) (cache : SharedCache) (mail : GlobalMail) : SharedCache :=
  refillMail (setAt mail.id) cache mail

def loadAt (cache : SharedCache) (now : Time) (readAt : Int → Time) : Option (List GlobalMail) :=
  match cache.getActiveGlobalMailIDs now with
  | [] => none
  | mailIDs => mailIDs.mapM fun mailID => cache.getGlobalMail mailID (readAt mailID)

variable {cache : SharedCache} {found : List GlobalMail} {mail : GlobalMail} {now : Time} {setAt readAt : Int → Time}

theorem refill_details_of_not_mem {id : Int} (hid : id ∉ found.map (·.id)) :
    (found.foldl (refillAt setAt) cache).details id = cache.details id := by
  induction found generalizing cache with
  | nil => rfl
  | cons head rest ih =>
    rw [List.map_cons, List.mem_cons, not_or] at hid
    rw [List.foldl_cons, ih hid.2]
    exact Function.update_of_ne hid.1 ..

theorem refill_details (hids : (found.map (·.id)).Nodup) (hm : mail ∈ found) :
    (found.foldl (refillAt setAt) cache).details mail.id =
      some ⟨mail, (mailTTL mail (setAt mail.id)).map (setAt mail.id + ·)⟩ := by
  induction found generalizing cache with
  | nil => cases hm
  | cons head rest ih =>
    rw [List.map_cons, List.nodup_cons] at hids
    rcases List.mem_cons.mp hm with rfl | hrest
    · rw [List.foldl_cons, refill_details_of_not_mem hids.1]
      exact Function.update_self ..
    · exact ih hids.2 hrest

theorem mem_refill_index {e : IndexEntry} (hids : (found.map (·.id)).Nodup) :
    e ∈ (found.foldl (refillAt setAt) cache).activeIndex.rows ↔
      (∃ mail ∈ found, indexEntry mail = e) ∨ (e ∈ cache.activeIndex.rows ∧ e.member ∉ found.map (·.id)) := by
  induction found generalizing cache with
  | nil => simp
  | cons head rest ih =>
    rw [List.map_cons, List.nodup_cons] at hids
    have hhead : e ∈ (refillAt setAt cache head).activeIndex.rows ↔
        e = indexEntry head ∨ (e ∈ cache.activeIndex.rows ∧ e.member ≠ head.id) := Table.mem_upsert
    rw [List.foldl_cons, ih hids.2, hhead, List.exists_mem_cons_iff, List.map_cons, List.mem_cons, not_or]
    constructor
    · rintro (hrest | ⟨rfl | ⟨hold, hne⟩, hnot⟩)
      · exact .inl (.inr hrest)
      · exact .inl (.inl rfl)
      · exact .inr ⟨hold, hne, hnot⟩
    · rintro ((rfl | hrest) | ⟨hold, hne, hnot⟩)
      · exact .inr ⟨.inl rfl, hids.1⟩
      · exact .inl hrest
      · exact .inr ⟨.inr ⟨hold, hne⟩, hnot⟩

theorem mapM_map_eq {α β : Type} {f : α → Option β} {g : β → α} {as : List α} {bs : List β}
    (hg : ∀ a ∈ as, ∀ b, f a = some b → g b = a) (h : as.mapM f = some bs) : bs.map g = as := by
  induction as generalizing bs with
  | nil => cases h; rfl
  | cons a as ih =>
    rw [List.mapM_cons] at h
    obtain ⟨b, hb, h⟩ := Option.bind_eq_some_iff.mp h
    obtain ⟨bs', hbs, h⟩ := Option.bind_eq_some_iff.mp h
    cases h
    rw [List.map_cons, hg a List.mem_cons_self b hb, ih (fun x hx => hg x (List.mem_cons_of_mem _ hx)) hbs]

theorem mapM_perm {α β : Type} {f : α → Option β} {g : β → α} {as : List α} {found : List β} (has : as.Nodup)
    (hfound : found.Nodup) (hmem : ∀ a, a ∈ as ↔ ∃ b ∈ found, g b = a) (hf : ∀ b ∈ found, f (g b) = some b) :
    ∃ bs, as.mapM f = some bs ∧ bs.Perm found := by
  have hlisted (a : α) (ha : a ∈ as) : ∃ b ∈ found, g b = a ∧ f a = some b := by
    obtain ⟨b, hb, rfl⟩ := (hmem a).mp ha
    exact ⟨b, hb, rfl, hf b hb⟩
  obtain ⟨bs, hbs⟩ := mapM_isSome fun a ha => (hlisted a ha).imp fun _ h => h.2.2
  have hordered : bs.map g = as := by
    refine mapM_map_eq (fun a ha b hb => ?_) hbs
    obtain ⟨b', -, hkey, hb'⟩ := hlisted a ha
    cases hb'.symm.trans hb
    exact hkey
  refine ⟨bs, hbs, (List.perm_ext_iff_of_nodup (.of_map g (hordered ▸ has)) hfound).mpr fun b => ?_⟩
  rw [mem_mapM hbs]
  constructor
  · rintro ⟨a, ha, hb⟩
    obtain ⟨b', hb', -, hfound⟩ := hlisted a ha
    cases hfound.symm.trans hb
    exact hb'
  · exact fun hb => ⟨g b, (hmem _).mpr ⟨b, hb, rfl⟩, hf b hb⟩

theorem nodup_getActiveGlobalMailIDs (cache : SharedCache) (now : Time) :
    (cache.getActiveGlobalMailIDs now).Nodup := by
  have hperm := List.perm_insertionSort (fun a b => rankedBefore a b = true)
    (cache.activeIndex.rows.filter fun e => unix now ≤ e.score)
  refine ((hperm.map IndexEntry.member).nodup_iff).mpr ?_
  exact (List.filter_sublist.map _).nodup cache.activeIndex.unique

theorem loadAt_refill (setAt : Int → Time) (hempty : cache.activeIndex.rows = []) (hne : found ≠ [])
    (hids : (found.map (·.id)).Nodup) (hopen : ∀ mail ∈ found, now < mail.expireTime)
    (hread : ∀ mail ∈ found, readAt mail.id < mail.expireTime + 10 * minute) :
    ∃ loaded, loadAt (found.foldl (refillAt setAt) cache) now readAt = some loaded ∧ loaded.Perm found := by
  set filled := found.foldl (refillAt setAt) cache
  have hactive (id : Int) : id ∈ filled.getActiveGlobalMailIDs now ↔ ∃ mail ∈ found, mail.id = id := by
    rw [mem_getActiveGlobalMailIDs]
    constructor
    · rintro ⟨e, he, rfl, -⟩
      rcases (mem_refill_index hids).mp he with ⟨mail, hm, rfl⟩ | ⟨hold, -⟩
      · exact ⟨mail, hm, rfl⟩
      · rw [hempty] at hold
        cases hold
    · rintro ⟨mail, hm, rfl⟩
      exact ⟨indexEntry mail, (mem_refill_index hids).mpr (.inl ⟨mail, hm, rfl⟩), rfl,
        unix_mono (le_of_lt (hopen mail hm))⟩
  have hget (mail : GlobalMail) (hm : mail ∈ found) :
      filled.getGlobalMail mail.id (readAt mail.id) = some mail :=
    getGlobalMail_of_live (refill_details hids hm) fun t ht => lt_of_lt_of_le (hread mail hm) (le_expireAt ht)
  obtain ⟨loaded, hloaded, hperm⟩ := mapM_perm (f := fun id => filled.getGlobalMail id (readAt id))
    (nodup_getActiveGlobalMailIDs filled now) hids.of_map hactive hget
  refine ⟨loaded, ?_, hperm⟩
  unfold loadAt
  split
  · rename_i hnone
    obtain ⟨mail, hm⟩ := List.exists_mem_of_ne_nil found hne
    have hid := (hactive mail.id).mpr ⟨mail, hm, rfl⟩
    rw [hnone] at hid
    cases hid
  · exact hloaded

end Clocks

def LoadRefines (load : Option (List GlobalMail)) (found : List GlobalMail) : Prop :=
  ∃ loaded, load = some loaded ∧ loaded.Perm found ∧
    ∀ version version' builtAt builtAt',
      CacheSnapshot.SameView (.build version loaded builtAt) (.build version' found builtAt')

theorem sharedPath_refines {mails : Table GlobalMail.id} {cache : SharedCache} {now : Time}
    (hempty : cache.activeIndex.rows = []) (hne : getPublishedGlobalMails mails now ≠ []) :
    LoadRefines (loadFromSharedCache (loadPublishedFromMySQLAndRefill mails cache now).1 now)
      (loadPublishedFromMySQLAndRefill mails cache now).2 ∧
    ∀ setAt readAt : Int → Time,
      (∀ mail ∈ getPublishedGlobalMails mails now, readAt mail.id < mail.expireTime + 10 * minute) →
      LoadRefines (loadAt ((getPublishedGlobalMails mails now).foldl (refillAt setAt) cache) now readAt)
        (getPublishedGlobalMails mails now) := by
  have hids : ((getPublishedGlobalMails mails now).map (·.id)).Nodup :=
    (List.filter_sublist.map _).nodup mails.unique
  have hopen (mail : GlobalMail) (hm : mail ∈ getPublishedGlobalMails mails now) : now < mail.expireTime :=
    (mem_getPublishedGlobalMails.mp hm).2.2.2
  have hclocks (setAt readAt : Int → Time)
      (hread : ∀ mail ∈ getPublishedGlobalMails mails now, readAt mail.id < mail.expireTime + 10 * minute) :
      LoadRefines (loadAt ((getPublishedGlobalMails mails now).foldl (refillAt setAt) cache) now readAt)
        (getPublishedGlobalMails mails now) := by
    obtain ⟨loaded, hloaded, hperm⟩ := loadAt_refill setAt hempty hne hids hopen hread
    exact ⟨loaded, hloaded, hperm, CacheSnapshot.sameView_build hperm ((hperm.map _).nodup_iff.mpr hids)⟩
  refine ⟨hclocks (fun _ => now) (fun _ => now) fun mail hm => ?_, hclocks⟩
  have hgrace : (0 : Time) < 10 * minute := by decide
  have := hopen mail hm
  linarith

def twoExpiries : Table GlobalMail.id :=
  ⟨[{ (default : GlobalMail) with id := 1, status := .published, expireTime := 300 * second },
    { (default : GlobalMail) with id := 2, status := .published, expireTime := 100 * second }], by decide⟩

theorem twoExpiries_refines :
    ((getPublishedGlobalMails twoExpiries 0).map (·.id) = [1, 2] ∧
      (loadPublishedFromMySQLAndRefill twoExpiries .empty 0).1.getActiveGlobalMailIDs 0 = [2, 1]) ∧
    LoadRefines (loadFromSharedCache (loadPublishedFromMySQLAndRefill twoExpiries .empty 0).1 0)
      (getPublishedGlobalMails twoExpiries 0) := by
  have hne : getPublishedGlobalMails twoExpiries 0 ≠ [] := List.ne_nil_of_length_pos (by decide)
  exact ⟨by decide, (sharedPath_refines rfl hne).1⟩

end LocalCache

end GlobalMailSystem
