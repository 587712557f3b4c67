import GlobalMailSystem.RefreshedSnapshot

/-!
Relays and refills write mails to Redis on one clock, each worker `SetGlobalMail` first and then, once that has
succeeded, `AddGlobalMailToIndexes`. Redis drops a detail key at some time after its TTL has run out.
-/

namespace GlobalMailSystem.DetailTTL

open Transition

/-- `pending k` is the mail worker `k` has set and not yet added to the indexes. -/
structure World where
  now : Time
  cache : SharedCache
  pending : Nat → Option GlobalMail

inductive Label
  | pass (now : Time)
  | setGlobalMail (k : Nat) (mail : GlobalMail) (outcome : Outcome)
  | addGlobalMailToIndexes (k : Nat) (outcome : Outcome)
  | drop (mailID : Int)

def init (cache : SharedCache) (now : Time) : World := ⟨now, cache, fun _ => none⟩

def step (w : World) : Label → Option World
  | .pass now => if w.now ≤ now then some { w with now } else none
  | .setGlobalMail k mail outcome =>
    let cache := if outcome.executed then w.cache.setGlobalMail mail w.now else w.cache
    let pending := match outcome with
      | .ok => some mail
      | _ => none
    some { w with cache, pending := Function.update w.pending k pending }
  | .addGlobalMailToIndexes k outcome =>
    (w.pending k).map fun mail =>
      { w with
        cache := if outcome.executed then w.cache.addGlobalMailToIndexes mail else w.cache
        pending := Function.update w.pending k none }
  | .drop mailID =>
    match w.cache.details mailID with
    | some ⟨_, some expireAt⟩ =>
      if expireAt ≤ w.now then
        some { w with cache.details := Function.update w.cache.details mailID none }
      else none
    | _ => none

def FixedExpire (expireOf : Int → Time) (_ : World) : Label → Prop
  | .setGlobalMail _ mail _ => mail.expireTime = expireOf mail.id
  | _ => True

instance (expireOf : Int → Time) (w : World) : (l : Label) → Decidable (FixedExpire expireOf w l)
  | .setGlobalMail _ mail _ => inferInstanceAs (Decidable (mail.expireTime = expireOf mail.id))
  | .pass _ | .addGlobalMailToIndexes .. | .drop _ => isTrue trivial

def Kept (w : World) (id : Int) (expire : Time) : Prop :=
  (∃ cached, w.cache.details id = some cached ∧ ∀ t ∈ cached.expireAt, expire + 10 * minute ≤ t) ∨
    expire + 10 * minute ≤ w.now

structure Inv (expireOf : Int → Time) (w : World) : Prop where
  indexed : ∀ e ∈ w.cache.activeIndex.rows, e.score = unix (expireOf e.member) ∧ Kept w e.member (expireOf e.member)
  pending : ∀ k mail, w.pending k = some mail →
    mail.expireTime = expireOf mail.id ∧ Kept w mail.id (expireOf mail.id)

variable {expireOf : Int → Time} {w w' : World} {id : Int} {expire : Time} {mail : GlobalMail}

theorem kept_set (cache : SharedCache) (mail : GlobalMail) (now : Time) (pending : Nat → Option GlobalMail) :
    Kept ⟨now, cache.setGlobalMail mail now, pending⟩ mail.id mail.expireTime :=
  .inl ⟨_, Function.update_self .., fun _ ht => LocalCache.le_expireAt ht⟩

theorem Kept.setGlobalMail (h : Kept w id (expireOf id)) (hexpire : mail.expireTime = expireOf mail.id)
    (pending : Nat → Option GlobalMail) :
    Kept ⟨w.now, w.cache.setGlobalMail mail w.now, pending⟩ id (expireOf id) := by
  by_cases hid : id = mail.id
  · subst hid
    exact hexpire ▸ kept_set w.cache mail w.now pending
  · rcases h with ⟨cached, hcached, hlong⟩ | hover
    · exact .inl ⟨cached, (Function.update_of_ne hid ..).trans hcached, hlong⟩
    · exact .inr hover

theorem Kept.pass (h : Kept w id expire) {now : Time} (hnow : w.now ≤ now) : Kept { w with now } id expire :=
  h.imp_right fun hover => hover.trans hnow

theorem Kept.drop (h : Kept w id expire) {mailID : Int} {dropped : GlobalMail} {expireAt : Time}
    (hcached : w.cache.details mailID = some ⟨dropped, some expireAt⟩) (hover : expireAt ≤ w.now) :
    Kept { w with cache.details := Function.update w.cache.details mailID none } id expire := by
  rcases h with ⟨cached, hdetail, hlong⟩ | hold
  · by_cases hid : id = mailID
    · subst hid
      cases hdetail.symm.trans hcached
      exact .inr ((hlong expireAt rfl).trans hover)
    · exact .inl ⟨cached, (Function.update_of_ne hid ..).trans hdetail, hlong⟩
  · exact .inr hold

theorem Inv.of_kept (hw : Inv expireOf w) (hkept : ∀ id, Kept w id (expireOf id) → Kept w' id (expireOf id))
    (hindex : w'.cache.activeIndex = w.cache.activeIndex)
    (hpending : ∀ k mail, w'.pending k = some mail → w.pending k = some mail ∨
      (mail.expireTime = expireOf mail.id ∧ Kept w' mail.id (expireOf mail.id))) : Inv expireOf w' := by
  refine ⟨fun e he => ?_, fun k mail hk => ?_⟩
  · obtain ⟨hscore, hold⟩ := hw.indexed e (hindex ▸ he)
    exact ⟨hscore, hkept _ hold⟩
  · rcases hpending k mail hk with hold | hnew
    · obtain ⟨hexpire, hold⟩ := hw.pending k mail hold
      exact ⟨hexpire, hkept _ hold⟩
    · exact hnew

theorem pending_update {pending : Nat → Option GlobalMail} {k j : Nat} {next : Option GlobalMail}
    (h : Function.update pending k next j = some mail) : pending j = some mail ∨ next = some mail := by
  by_cases hj : j = k
  · subst hj
    rw [Function.update_self] at h
    exact .inr h
  · exact .inl ((Function.update_of_ne hj ..).symm.trans h)

theorem Inv.setGlobalMail (hw : Inv expireOf w) (hexpire : mail.expireTime = expireOf mail.id) (k : Nat)
    (next : Option GlobalMail) (hnext : ∀ m, next = some m → m = mail) :
    Inv expireOf ⟨w.now, w.cache.setGlobalMail mail w.now, Function.update w.pending k next⟩ := by
  refine hw.of_kept (fun id hold => hold.setGlobalMail hexpire _) rfl fun j m hm => ?_
  refine (pending_update hm).imp_right fun hm => ?_
  obtain rfl := hnext m hm
  exact ⟨hexpire, hexpire ▸ kept_set w.cache m w.now _⟩

theorem Inv.addGlobalMailToIndexes (hw : Inv expireOf w) {k : Nat} (hk : w.pending k = some mail) :
    Inv expireOf { w with cache := w.cache.addGlobalMailToIndexes mail } := by
  refine ⟨fun e he => ?_, hw.pending⟩
  rcases Table.mem_upsert.mp he with rfl | ⟨hold, -⟩
  · obtain ⟨hexpire, hkept⟩ := hw.pending k mail hk
    exact ⟨congrArg unix hexpire, hkept⟩
  · exact hw.indexed e hold

theorem Inv.done (hw : Inv expireOf w) (k : Nat) :
    Inv expireOf { w with pending := Function.update w.pending k none } :=
  hw.of_kept (fun _ hold => hold) rfl fun _ _ hm => .inl ((pending_update hm).resolve_right (by simp))

theorem inv_step {l : Label} (hw : Inv expireOf w) (hfixed : FixedExpire expireOf w l) (h : step w l = some w') :
    Inv expireOf w' := by
  cases l with
  | pass now =>
    simp only [step, Option.ite_none_right_eq_some, Option.some.injEq] at h
    obtain ⟨hnow, rfl⟩ := h
    exact hw.of_kept (fun _ hold => hold.pass hnow) rfl fun _ _ hm => .inl hm
  | setGlobalMail k mail outcome =>
    cases outcome with
    | ok => cases h; exact hw.setGlobalMail hfixed k (some mail) fun m hm => (Option.some.inj hm).symm
    | lost err => cases h; exact hw.setGlobalMail hfixed k none (by simp)
    | failed err => cases h; exact hw.done k
  | addGlobalMailToIndexes k outcome =>
    obtain ⟨mail, hk, rfl⟩ := Option.map_eq_some_iff.mp h
    split_ifs
    · exact (hw.addGlobalMailToIndexes hk).done k
    · exact hw.done k
  | drop mailID =>
    simp only [step] at h
    split at h
    · rename_i mail expireAt hcached
      split_ifs at h with hover
      cases h
      exact hw.of_kept (fun _ hold => hold.drop hcached hover) rfl fun _ _ hm => .inl hm
    · cases h

theorem inv_init {cache : SharedCache} (hempty : cache.activeIndex.rows = []) (now : Time) :
    Inv expireOf (init cache now) := by
  refine ⟨fun e he => ?_, fun k mail hk => ?_⟩
  · rw [init, hempty] at he
    cases he
  · cases hk

theorem Inv.live (hw : Inv expireOf w) (hid : id ∈ w.cache.getActiveGlobalMailIDs w.now) :
    ∃ cached, w.cache.details id = some cached ∧ ∀ t ∈ cached.expireAt, w.now < t := by
  -- an entry is read until the second in which its mail expires, and the detail outlives that second
  obtain ⟨e, he, rfl, hactive⟩ := SharedCache.mem_getActiveGlobalMailIDs.mp hid
  obtain ⟨hscore, hkept⟩ := hw.indexed e he
  have hnow : w.now < expireOf e.member + second := lt_of_unix_le (hscore ▸ hactive)
  have hgrace : (second : Time) ≤ 10 * minute := by decide
  rcases hkept with ⟨cached, hcached, hlong⟩ | hover
  · refine ⟨cached, hcached, fun t ht => ?_⟩
    have := hlong t ht
    linarith
  · linarith

theorem active_details_live (expireOf : Int → Time) {cache : SharedCache}
    (hempty : cache.activeIndex.rows = []) {now : Time} {ls : List Label} {w : World}
    (hfixed : Guarded step (FixedExpire expireOf) (init cache now) ls)
    (h : run step (init cache now) ls = some w) :
    (∀ id ∈ w.cache.getActiveGlobalMailIDs w.now,
      (∃ cached, w.cache.details id = some cached ∧ ∀ t ∈ cached.expireAt, w.now < t) ∧
      (w.cache.getGlobalMail id w.now).isSome) ∧
    (LocalCache.loadFromSharedCache w.cache w.now = none → w.cache.getActiveGlobalMailIDs w.now = []) := by
  have hw : Inv expireOf w :=
    guarded_invariant (fun _ _ _ hs hok hl => inv_step hs hok hl) (inv_init hempty now) hfixed h
  have hget (id : Int) (hid : id ∈ w.cache.getActiveGlobalMailIDs w.now) :
      ∃ mail, w.cache.getGlobalMail id w.now = some mail := by
    obtain ⟨cached, hcached, hlive⟩ := hw.live hid
    exact ⟨cached.mail, SharedCache.getGlobalMail_of_live hcached hlive⟩
  refine ⟨fun id hid => ⟨hw.live hid, Option.isSome_iff_exists.mpr (hget id hid)⟩, fun hmiss => ?_⟩
  obtain ⟨found, hfound⟩ := LocalCache.mapM_isSome hget
  unfold LocalCache.loadFromSharedCache at hmiss
  split at hmiss
  · assumption
  · cases hfound.symm.trans hmiss

def lastSecond : GlobalMail := { (default : GlobalMail) with id := 7, expireTime := 100 * second + 1 }

def toLastSecond : List Label :=
  [.setGlobalMail 0 lastSecond .ok, .setGlobalMail 1 lastSecond .ok, .addGlobalMailToIndexes 0 .ok,
    .pass (100 * second + 900000000), .addGlobalMailToIndexes 1 .ok]

def inLastSecond : World := (run step (init .empty 0) toLastSecond).get (by decide)

theorem lastSecond_live :
    (run step (init .empty 0) toLastSecond = some inLastSecond ∧ lastSecond.expireTime < inLastSecond.now ∧
      7 ∈ inLastSecond.cache.getActiveGlobalMailIDs inLastSecond.now) ∧
    (inLastSecond.cache.getGlobalMail 7 inLastSecond.now).isSome := by
  have hrun : run step (init .empty 0) toLastSecond = some inLastSecond := (Option.some_get _).symm
  have hactive : 7 ∈ inLastSecond.cache.getActiveGlobalMailIDs inLastSecond.now := by decide
  have hlive := active_details_live (fun _ => 100 * second + 1) rfl (by decide) hrun
  exact ⟨⟨hrun, by decide, hactive⟩, (hlive.1 7 hactive).2⟩

end GlobalMailSystem.DetailTTL
