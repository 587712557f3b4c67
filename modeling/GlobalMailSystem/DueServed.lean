import GlobalMailSystem.Creations
import GlobalMailSystem.FlushPass

namespace GlobalMailSystem.Relay

open Publisher Transition OutboxTable

def RepoCall.mysql : RepoCall → Bool
  | .loadMail | .markPublished | .readRetryCount | .markFailed => true
  | _ => false

/-- MySQL answers every call of the pass and nothing else holds a row; the clock runs from `t`, and
rows are selected no later than `t'`. -/
structure Pass.Prompt (p : Pass) (t t' : Time) : Prop where
  fetch : p.fetch = .ok
  skip : ∀ id, p.skip id = false
  start : t ≤ p.now
  stop : p.now ≤ t'
  clock : ∀ id c, t ≤ (p.replies id c).1
  mysql : ∀ id c, c.mysql = true → (p.replies id c).2 = .ok

inductive Turn
  | publish (cmd : PublishCommand) (now : Time) (newMailID eventID : Int) (auto : AutoIncrement)
  | flush (p : Pass)

def Turn.isFlush : Turn → Bool
  | .publish _ _ _ _ _ => false
  | .flush _ => true

def Turn.Timely (id : Int) (t t' : Time) : Turn → Prop
  | .publish _ _ _ eventID auto => id < assigned eventID auto.event
  | .flush p => p.Prompt t t'

section Turns

variable (sha256 : PublishPayload → String) (config : Config) (k : Nat) (limit : Int)

def turn (s : Store) : Turn → Store
  | .publish cmd now newMailID eventID auto =>
    { s with db := (publish sha256 s.db cmd now newMailID eventID auto).1 }
  | .flush p => (flush config k limit s p).1

def takeTurns (s : Store) (turns : List Turn) : Store := turns.foldl (turn sha256 config k limit) s

end Turns

def Settled (t : Time) (before after : OutboxEvent) : Prop :=
  after.status = .published ∧ after.retryCount = before.retryCount ∨
    after.retryCount = before.retryCount + 1 ∧
      (after.status = .failed ∨
        after.status = .pending ∧ ∃ retryAt, after.nextRetryTime = some retryAt ∧ t + minute ≤ retryAt)

def BackoffFits (retryCount : Int) : Prop := 0 ≤ retryCount ∧ (retryCount + 1) * minute < 2 ^ 63

def ahead (t : Time) (id : Int) (s : Store) : Nat :=
  s.db.outbox.rows.countP fun row => selectable t row && row.id ≤ id

section Rows

theorem selectable_mono {t t' : Time} (h : t ≤ t') {row : OutboxEvent} (hrow : selectable t row = true) :
    selectable t' row = true := by
  simp only [selectable, Bool.or_eq_true, Bool.and_eq_true, decide_eq_true_eq] at hrow ⊢
  apply hrow.imp
  · rintro ⟨hs, ht⟩
    refine ⟨hs, ?_⟩
    cases hr : row.nextRetryTime with
    | none => rfl
    | some at_ => rw [hr] at ht; exact decide_eq_true ((of_decide_eq_true ht).trans h)
  · rintro ⟨hs, ht⟩
    refine ⟨hs, ?_⟩
    cases hl : row.lockedUntil with
    | none => rw [hl] at ht; exact ht
    | some until_ => rw [hl] at ht; exact decide_eq_true ((of_decide_eq_true ht).trans h)

theorem not_selectable_of_settled {t t' : Time} (ht : t' < t + minute) {before after : OutboxEvent}
    (h : Settled t before after) : selectable t' after = false := by
  rcases h with ⟨h, _⟩ | ⟨_, h | ⟨h, retryAt, hretry, hle⟩⟩
  · simp [selectable, h]
  · simp [selectable, h]
  · have hlate : ¬ retryAt ≤ t' := not_le.mpr (ht.trans_le hle)
    simp [selectable, h, hretry, hlate]

theorem nextRetryTime_le {t failedAt : Time} {retryCount : Int} (ht : t ≤ failedAt) (hfits : BackoffFits retryCount) :
    t + minute ≤ nextRetryTime failedAt retryCount := by
  obtain ⟨hcount, hsmall⟩ := hfits
  have hone : (1 : Int) ≤ retryCount + 1 := by omega
  have hpos : (0 : Int) ≤ minute := by decide
  have hle : minute ≤ (retryCount + 1) * minute :=
    (one_mul minute).symm.le.trans (mul_le_mul_of_nonneg_right hone hpos)
  have hnonneg : (0 : Int) ≤ (retryCount + 1) * minute := hpos.trans hle
  have hbackoff : Int.bmod ((retryCount + 1) * minute) (2 ^ 64) = (retryCount + 1) * minute :=
    Int.bmod_eq_of_le (by omega) (by omega)
  apply add_le_add ht
  rw [hbackoff]
  split_ifs
  · decide
  · exact hle

end Rows

section Pass

variable {config : Config} {k : Nat} {t t' : Time}

theorem callAll_db (r : Replies) {calls : List (RepoCall × Action)}
    (h : ∀ c ∈ calls, ∀ s : Store, (s.act c.2).db = s.db) (s : Store) : (callAll r s calls).1.db = s.db := by
  induction calls generalizing s with
  | nil => rfl
  | cons call calls ih =>
    obtain ⟨c, a⟩ := call
    have hfirst : (performed s a (r c).2).db = s.db := by
      cases (r c).2 with
      | failed err => rfl
      | ok => exact h (c, a) List.mem_cons_self s
      | lost err => exact h (c, a) List.mem_cons_self s
    simp only [callAll]
    cases errorOf (r c).2 with
    | some err => exact hfirst
    | none => exact (ih (fun call hc => h call (List.mem_cons_of_mem _ hc)) _).trans hfirst

theorem projection_db (r : Replies) (s : Store) (event : OutboxEvent) (changed : GlobalMailChangedEvent)
    (mail : GlobalMail) : (callAll r s (projection k r event changed mail)).1.db = s.db := by
  apply callAll_db
  intro c hc s
  simp only [projection, List.mem_cons, List.not_mem_nil, or_false] at hc
  rcases hc with rfl | rfl | rfl | rfl <;> rfl

structure Healthy (r : Replies) (mails : Table GlobalMail.id) (event : OutboxEvent) : Prop where
  calls : ∀ c, (r c).2 = .ok
  payload : ∃ changed, event.payload = .encoded changed
  mail : mails.find? event.aggregateID ≠ none

structure Deals (t : Time) (replies : Int → Replies) (events : List OutboxEvent) (db db' : Database) : Prop where
  own : ∀ event ∈ events, ∀ row, db.outbox.find? event.id = some row → row.retryCount = event.retryCount →
    BackoffFits row.retryCount → ∃ row', db'.outbox.find? event.id = some row' ∧ Settled t row row' ∧
      (Healthy (replies event.id) db.mails event → row'.status = .published)
  other : ∀ id, id ∉ events.map (·.id) → db'.outbox.find? id = db.outbox.find? id
  mails : db'.mails = db.mails

theorem Deals.nil (t : Time) (replies : Int → Replies) (db : Database) : Deals t replies [] db db where
  own _ h := absurd h List.not_mem_nil
  other _ _ := rfl
  mails := rfl

theorem Deals.cons {replies : Int → Replies} {event : OutboxEvent} {rest : List OutboxEvent}
    {db db' db'' : Database} (hhead : Deals t replies [event] db db') (htail : Deals t replies rest db' db'')
    (hfresh : event.id ∉ rest.map (·.id)) : Deals t replies (event :: rest) db db'' where
  own e he row hfind hsame hcount := by
    rcases List.mem_cons.mp he with rfl | he
    · obtain ⟨row', hfind', hsettled⟩ := hhead.own e (List.mem_singleton.mpr rfl) row hfind hsame hcount
      exact ⟨row', (htail.other e.id hfresh).trans hfind', hsettled⟩
    · have hne : e.id ∉ [event].map (·.id) := by
        rw [List.map_singleton, List.mem_singleton]
        exact fun h => hfresh (h ▸ List.mem_map_of_mem he)
      obtain ⟨row', hfind', hsettled, hhealthy⟩ :=
        htail.own e he row ((hhead.other e.id hne).trans hfind) hsame hcount
      exact ⟨row', hfind', hsettled, hhead.mails ▸ hhealthy⟩
  other id hid := by
    rw [List.map_cons, List.mem_cons, not_or] at hid
    exact (htail.other id hid.2).trans (hhead.other id (by simpa using hid.1))
  mails := htail.mails.trans hhead.mails

theorem deals_updateWhere {replies : Int → Replies} {event : OutboxEvent} {db : Database}
    {f : OutboxEvent → OutboxEvent} (hf : ∀ row, (f row).id = row.id)
    (h : ∀ row, db.outbox.find? event.id = some row → row.retryCount = event.retryCount →
      BackoffFits row.retryCount → Settled t row (f row) ∧ (Healthy (replies event.id) db.mails event → (f row).status = .published)) :
    Deals t replies [event] db { db with outbox := db.outbox.updateWhere event.id f hf } where
  own e he row hfind hsame hcount := by
    cases List.mem_singleton.mp he
    refine ⟨f row, ?_, h row hfind hsame hcount⟩
    rw [Table.find?_updateWhere, if_pos rfl, hfind, Option.map_some]
  other id hid := by
    rw [Table.find?_updateWhere, if_neg (by simpa using hid)]
  mails := rfl

theorem failedEvent_deals {replies : Int → Replies}
    (hmysql : ∀ id (c : RepoCall), c.mysql = true → (replies id c).2 = .ok) {s : Store} {event : OutboxEvent}
    (hsick : ¬ Healthy (replies event.id) s.db.mails event) {failedAt : Time} (ht : t ≤ failedAt) (cause : String) :
    Deals t replies [event] s.db (failedEvent config k (replies event.id) s event failedAt cause).db := by
  unfold failedEvent
  rw [hmysql event.id .readRetryCount rfl, hmysql event.id .markFailed rfl]
  cases hrow : s.db.outbox.find? event.id with
  | none =>
    refine ⟨fun e he row hfind => ?_, fun _ _ => rfl, rfl⟩
    cases List.mem_singleton.mp he
    rw [hrow] at hfind
    cases hfind
  | some old =>
    apply deals_updateWhere
    intro row hfind hsame hcount
    cases hrow.symm.trans hfind
    refine ⟨Or.inr ⟨rfl, ?_⟩, fun h => absurd h hsick⟩
    unfold failedStatus
    split_ifs
    · exact Or.inl rfl
    · exact Or.inr ⟨rfl, _, rfl, nextRetryTime_le ht (hsame ▸ hcount)⟩

theorem relayEvent_deals (config : Config) (k : Nat) {replies : Int → Replies}
    (hmysql : ∀ id (c : RepoCall), c.mysql = true → (replies id c).2 = .ok)
    (hclock : ∀ id c, t ≤ (replies id c).1) (s : Store) (event : OutboxEvent) :
    Deals t replies [event] s.db (relayEvent config k (replies event.id) s event).1.db ∧
      ∀ err, (relayEvent config k (replies event.id) s event).2 ≠ .stopped err := by
  unfold relayEvent
  rw [hmysql event.id .loadMail rfl, hmysql event.id .markPublished rfl]
  cases hdecode : event.payload with
  | malformed text =>
    refine ⟨failedEvent_deals hmysql ?_ (hclock _ _) _, fun _ h => by cases h⟩
    rintro ⟨_, ⟨changed, hpayload⟩, _⟩
    rw [hdecode] at hpayload
    cases hpayload
  | encoded changed =>
    simp only [EventPayload.unmarshal, loadedMail]
    cases hmail : s.db.mails.find? event.aggregateID with
    | none => exact ⟨failedEvent_deals hmysql (fun h => h.mail hmail) (hclock _ _) _, fun _ h => by cases h⟩
    | some mail =>
      have hdb := projection_db (k := k) (replies event.id) s event changed mail
      cases hcalls : callAll (replies event.id) s (projection k (replies event.id) event changed mail) with
      | mk s' failure =>
        simp only [hcalls] at hdb ⊢
        cases failure with
        | some failure =>
          obtain ⟨c, cause⟩ := failure
          have hsick : ¬ Healthy (replies event.id) s'.db.mails event := by
            rintro ⟨hok, _, _⟩
            simp [projection, callAll, hok, errorOf] at hcalls
          exact ⟨hdb ▸ failedEvent_deals hmysql hsick (hclock _ _) _, fun _ h => by cases h⟩
        | none =>
          refine ⟨?_, fun _ h => by cases h⟩
          rw [← hdb]
          exact deals_updateWhere (publishedRow_id _) fun row _ _ _ => ⟨Or.inl ⟨rfl, rfl⟩, fun _ => rfl⟩

theorem relayEvents_deals (config : Config) (k : Nat) {replies : Int → Replies}
    (hmysql : ∀ id (c : RepoCall), c.mysql = true → (replies id c).2 = .ok)
    (hclock : ∀ id c, t ≤ (replies id c).1) (s : Store) {events : List OutboxEvent}
    (hnodup : (events.map (·.id)).Nodup) :
    Deals t replies events s.db (relayEvents config k replies s events).1.db := by
  induction events generalizing s with
  | nil => exact Deals.nil t replies s.db
  | cons event rest ih =>
    obtain ⟨hdeals, hgoes⟩ := relayEvent_deals config k hmysql hclock s event
    rw [List.map_cons, List.nodup_cons] at hnodup
    simp only [relayEvents]
    cases hevent : relayEvent config k (replies event.id) s event with
    | mk s' result =>
      rw [hevent] at hdeals hgoes
      cases result with
      | published => exact hdeals.cons (ih s' hnodup.2) hnodup.1
      | passed => exact hdeals.cons (ih s' hnodup.2) hnodup.1
      | stopped err => exact absurd rfl (hgoes err)

theorem find?_fetched (config : Config) (k : Nat) (limit : Int) (s : Store) (p : Pass) (id : Int) :
    (s.act (fetchAction config k limit p)).db.outbox.find? id =
      (s.db.outbox.find? id).map (fetchRow ((s.db.outbox.pendingRows limit p.now p.skip).map (·.id))
        config.workerID (p.workerNow + config.lockTTL) p.now) :=
  Table.find?_mapRows (fetchRow_id _ _ _ _)

theorem fetchedEvents_ids (limit : Int) (s : Store) (p : Pass) :
    (fetchedEvents config limit s p).map (·.id) = (s.db.outbox.pendingRows limit p.now p.skip).map (·.id) := by
  simp only [fetchedEvents, fetchPending, List.map_map]
  rfl

theorem flush_deals (config : Config) (k : Nat) {p : Pass} (hp : p.Prompt t t') (limit : Int) (s : Store) :
    (∀ row ∈ s.db.outbox.pendingRows limit p.now p.skip, BackoffFits row.retryCount →
      ∃ row', (flush config k limit s p).1.db.outbox.find? row.id = some row' ∧ Settled t row row' ∧
        (Healthy (p.replies row.id) s.db.mails row → row'.status = .published)) ∧
    (∀ id, id ∉ (s.db.outbox.pendingRows limit p.now p.skip).map (·.id) →
      (flush config k limit s p).1.db.outbox.find? id = s.db.outbox.find? id) ∧
    (flush config k limit s p).1.db.mails = s.db.mails := by
  have hflush : flush config k limit s p = relayEvents config k p.replies
      (s.act (fetchAction config k limit p)) (fetchedEvents config limit s p) := by
    simp only [flush, hp.fetch]
  have hnodup : ((fetchedEvents config limit s p).map (·.id)).Nodup := by
    rw [fetchedEvents_ids]
    exact pendingRows_nodup _ _ _ _
  have hdeals := relayEvents_deals config k hp.mysql hp.clock
    (s.act (fetchAction config k limit p)) hnodup
  rw [← hflush] at hdeals
  refine ⟨fun row hrow hcount => ?_, fun id hid => ?_, hdeals.mails⟩
  · have hevent : lease config.workerID (p.workerNow + config.lockTTL) row ∈ fetchedEvents config limit s p :=
      List.mem_map_of_mem hrow
    have hleased := find?_fetched config k limit s p row.id
    rw [Table.find?_eq_some.mpr ⟨(mem_pendingRows hrow).1, rfl⟩, Option.map_some, fetchRow,
      if_pos (List.mem_map_of_mem hrow)] at hleased
    obtain ⟨row', hfind, hsettled, hhealthy⟩ := hdeals.own _ hevent _ hleased rfl hcount
    exact ⟨row', hfind, hsettled, fun h => hhealthy ⟨h.calls, h.payload, h.mail⟩⟩
  · rw [hdeals.other id (by rwa [fetchedEvents_ids]), find?_fetched]
    cases hfind : s.db.outbox.find? id with
    | none => rfl
    | some row =>
      obtain ⟨_, rfl⟩ := Table.find?_eq_some.mp hfind
      rw [Option.map_some, fetchRow, if_neg hid]

end Pass

section Order

theorem take_of_pairwise {α : Type} {r : α → α → Prop} {l : List α} (hl : l.Pairwise r) {n : Nat} {x : α}
    (hx : x ∈ l) (hlate : x ∉ l.take n) : (l.take n).length = n ∧ ∀ y ∈ l.take n, r y x := by
  have hdrop : x ∈ l.drop n := by
    rw [← List.take_append_drop n l] at hx
    exact (List.mem_append.mp hx).resolve_left hlate
  constructor
  · have hlen := List.length_pos_of_mem hdrop
    rw [List.length_drop] at hlen
    rw [List.length_take]
    omega
  · intro y hy
    rw [← List.take_append_drop n l] at hl
    exact (List.pairwise_append.mp hl).2.2 y hy x hdrop

theorem pendingRows_full {table : OutboxTable} {limit : Int} {now : Time} {skip : Int → Bool} {row : OutboxEvent}
    (hrow : row ∈ table.rows) (hdue : selectable now row = true) (hskip : skip row.id = false)
    (hlate : row ∉ table.pendingRows limit now skip) :
    (table.pendingRows limit now skip).length = fetchLimit limit ∧
      ∀ first ∈ table.pendingRows limit now skip, first.id ≤ row.id := by
  have : Std.Total (fun a b : OutboxEvent => a.id ≤ b.id) := ⟨fun a b => le_total a.id b.id⟩
  have : IsTrans OutboxEvent (fun a b => a.id ≤ b.id) := ⟨fun _ _ _ => le_trans⟩
  have hsorted := List.pairwise_insertionSort (fun a b : OutboxEvent => a.id ≤ b.id)
    (table.rows.filter fun row => selectable now row && !skip row.id)
  apply take_of_pairwise hsorted ?_ hlate
  rw [List.mem_insertionSort, List.mem_filter]
  exact ⟨hrow, by simp [hdue, hskip]⟩

end Order

section Wait

variable {sha256 : PublishPayload → String} {config : Config} {k : Nat} {limit : Int} {t t' : Time}

def Retriable (t : Time) (s : Store) : Prop :=
  ∀ row ∈ s.db.outbox.rows, selectable t row = true → BackoffFits row.retryCount

def dueIDs (t : Time) (id : Int) (s : Store) : List Int :=
  (s.db.outbox.rows.filter fun row => selectable t row && row.id ≤ id).map (·.id)

theorem length_dueIDs (t : Time) (id : Int) (s : Store) : (dueIDs t id s).length = ahead t id s := by
  rw [dueIDs, ahead, List.length_map, List.countP_eq_length_filter]

theorem nodup_dueIDs (t : Time) (id : Int) (s : Store) : (dueIDs t id s).Nodup :=
  s.db.outbox.unique.sublist (List.filter_sublist.map _)

theorem mem_dueIDs {id x : Int} {s : Store} :
    x ∈ dueIDs t id s ↔ ∃ row, s.db.outbox.find? x = some row ∧ selectable t row = true ∧ x ≤ id := by
  simp only [dueIDs, List.mem_map, List.mem_filter, Bool.and_eq_true, decide_eq_true_eq, Table.find?_eq_some]
  constructor
  · rintro ⟨row, ⟨hrow, hdue, hle⟩, rfl⟩
    exact ⟨row, ⟨hrow, rfl⟩, hdue, hle⟩
  · rintro ⟨row, ⟨hrow, rfl⟩, hdue, hle⟩
    exact ⟨row, ⟨hrow, hdue, hle⟩, rfl⟩

theorem Retriable.pending {s : Store} (hs : Retriable t' s) {p : Pass} (hp : p.Prompt t t') {row : OutboxEvent}
    (hrow : row ∈ s.db.outbox.pendingRows limit p.now p.skip) : BackoffFits row.retryCount := by
  obtain ⟨hmem, hdue⟩ := mem_pendingRows hrow
  exact hs row hmem (selectable_mono hp.stop hdue)

theorem flush_retriable (ht : t' < t + minute) {p : Pass} (hp : p.Prompt t t') {s : Store} (hs : Retriable t' s) :
    Retriable t' (flush config k limit s p).1 := by
  obtain ⟨hown, hother, _⟩ := flush_deals config k hp limit s
  intro row' hrow' hdue
  have hfind' : (flush config k limit s p).1.db.outbox.find? row'.id = some row' :=
    Table.find?_eq_some.mpr ⟨hrow', rfl⟩
  by_cases hid : row'.id ∈ (s.db.outbox.pendingRows limit p.now p.skip).map (·.id)
  · obtain ⟨row, hrow, he⟩ := List.mem_map.mp hid
    obtain ⟨settled, hfind, hsettled, _⟩ := hown row hrow (hs.pending hp hrow)
    rw [he, hfind'] at hfind
    cases hfind
    rw [not_selectable_of_settled ht hsettled] at hdue
    cases hdue
  · rw [hother row'.id hid] at hfind'
    exact hs row' (Table.find?_eq_some.mp hfind').1 hdue

theorem flush_ahead (config : Config) (k : Nat) (ht : t' < t + minute) {p : Pass} (hp : p.Prompt t t') {s : Store}
    (hs : Retriable t' s)
    {row : OutboxEvent} (hrow : row ∈ s.db.outbox.rows) (hdue : selectable t row = true)
    (hlate : row ∉ s.db.outbox.pendingRows limit p.now p.skip) :
    ahead t' row.id (flush config k limit s p).1 + fetchLimit limit ≤ ahead t' row.id s := by
  -- a pass that does not reach the row fetches as many as it may of those before it
  obtain ⟨hown, hother, _⟩ := flush_deals config k hp limit s
  obtain ⟨hfull, hfirst⟩ := pendingRows_full hrow (selectable_mono hp.start hdue) (hp.skip row.id) hlate
  have hgone : ∀ x ∈ (s.db.outbox.pendingRows limit p.now p.skip).map (·.id),
      x ∉ dueIDs t' row.id (flush config k limit s p).1 := by
    intro x hx hdue'
    obtain ⟨first, hmem, rfl⟩ := List.mem_map.mp hx
    obtain ⟨after, hafter, hsettled, _⟩ := hown first hmem (hs.pending hp hmem)
    obtain ⟨found, hfound, hsel, _⟩ := mem_dueIDs.mp hdue'
    cases hafter.symm.trans hfound
    rw [not_selectable_of_settled ht hsettled] at hsel
    cases hsel
  have hnodup : ((s.db.outbox.pendingRows limit p.now p.skip).map (·.id) ++
      dueIDs t' row.id (flush config k limit s p).1).Nodup := by
    rw [List.nodup_append]
    exact ⟨pendingRows_nodup _ _ _ _, nodup_dueIDs _ _ _, fun x hx y hy he => hgone x hx (he ▸ hy)⟩
  have hsub : (s.db.outbox.pendingRows limit p.now p.skip).map (·.id) ++
      dueIDs t' row.id (flush config k limit s p).1 ⊆ dueIDs t' row.id s := by
    intro x hx
    rcases List.mem_append.mp hx with hx | hx
    · obtain ⟨first, hmem, rfl⟩ := List.mem_map.mp hx
      obtain ⟨hin, hsel⟩ := mem_pendingRows hmem
      exact mem_dueIDs.mpr ⟨first, Table.find?_eq_some.mpr ⟨hin, rfl⟩, selectable_mono hp.stop hsel, hfirst first hmem⟩
    · obtain ⟨found, hfound, hrest⟩ := mem_dueIDs.mp hx
      rw [hother x fun h => hgone x h hx] at hfound
      exact mem_dueIDs.mpr ⟨found, hfound, hrest⟩
  have hlength := (hnodup.subperm hsub).length_le
  rw [List.length_append, List.length_map, hfull, length_dueIDs, length_dueIDs] at hlength
  omega

theorem publish_outbox (sha256 : PublishPayload → String) (db : Database) (cmd : PublishCommand) (now : Time)
    (newMailID eventID : Int) (auto : AutoIncrement) :
    (publish sha256 db cmd now newMailID eventID auto).1 = db ∨
      ∃ mail event, event.id = assigned eventID auto.event ∧ event.retryCount = 0 ∧
        (publish sha256 db cmd now newMailID eventID auto).1.mails.rows = db.mails.rows ++ [mail] ∧
        (publish sha256 db cmd now newMailID eventID auto).1.outbox.rows = db.outbox.rows ++ [event] := by
  unfold publish
  cases hprepare : prepare sha256 db cmd now newMailID eventID with
  | fail err => exact Or.inl rfl
  | replay mail => exact Or.inl rfl
  | create rows =>
    dsimp only
    cases hcreate : createGlobalMailWithOutbox db auto rows with
    | none => exact Or.inl rfl
    | some db' =>
      have hrows := prepare_create hprepare
      have hadded := create_rows hcreate
      exact Or.inr ⟨storedMail auto rows.mail, storedEvent auto rows.event, by rw [hrows]; rfl, by rw [hrows]; rfl,
        hadded.mails, hadded.outbox⟩

theorem turn_retriable (ht : t' < t + minute) {s : Store} (hs : Retriable t' s) {id : Int} {a : Turn}
    (ha : a.Timely id t t') : Retriable t' (turn sha256 config k limit s a) := by
  cases a with
  | flush p => exact flush_retriable ht ha hs
  | publish cmd now newMailID eventID auto =>
    intro row hrow hdue
    rcases publish_outbox sha256 s.db cmd now newMailID eventID auto with h | ⟨_, event, _, hzero, _, h⟩
    · exact hs row (by rwa [turn, h] at hrow) hdue
    · rw [turn, h, List.mem_append, List.mem_singleton] at hrow
      rcases hrow with hrow | rfl
      · exact hs row hrow hdue
      · rw [BackoffFits, hzero]
        decide

theorem turn_mail {s : Store} {mailID : Int} (hmail : s.db.mails.find? mailID ≠ none) {id : Int} {a : Turn}
    (ha : a.Timely id t t') : (turn sha256 config k limit s a).db.mails.find? mailID ≠ none := by
  cases a with
  | flush p => rwa [turn, (flush_deals config k ha limit s).2.2]
  | publish cmd now newMailID eventID auto =>
    rcases publish_outbox sha256 s.db cmd now newMailID eventID auto with h | ⟨_, _, _, _, h, _⟩
    · rwa [turn, h]
    · intro hnone
      apply hmail
      rw [Table.find?_eq_none] at hnone ⊢
      exact fun mail hm => hnone mail (by rw [turn, h]; exact List.mem_append_left _ hm)

def Done (t : Time) (healthy : Prop) (row : OutboxEvent) (s : Store) : Prop :=
  ∃ row', s.db.outbox.find? row.id = some row' ∧ Settled t row row' ∧ (healthy → row'.status = .published)

theorem done_turn (ht : t' < t + minute) {healthy : Prop} {row : OutboxEvent} {s : Store} (h : Done t healthy row s)
    {a : Turn} (ha : a.Timely row.id t t') : Done t healthy row (turn sha256 config k limit s a) := by
  obtain ⟨row', hfind, hsettled, hhealthy⟩ := h
  refine ⟨row', ?_, hsettled, hhealthy⟩
  obtain ⟨hrow', hid⟩ := Table.find?_eq_some.mp hfind
  cases a with
  | flush p =>
    have hp : p.Prompt t t' := ha
    rw [turn, (flush_deals config k hp limit s).2.1 row.id, hfind]
    intro hmem
    obtain ⟨first, hfirst, he⟩ := List.mem_map.mp hmem
    obtain ⟨hin, hsel⟩ := mem_pendingRows hfirst
    rw [s.db.outbox.row_unique hin hrow' (he.trans hid.symm)] at hsel
    rw [not_selectable_of_settled (hp.stop.trans_lt ht) hsettled] at hsel
    cases hsel
  | publish cmd now newMailID eventID auto =>
    rcases publish_outbox sha256 s.db cmd now newMailID eventID auto with h | ⟨_, _, _, _, _, h⟩
    · rw [turn, h, hfind]
    · exact Table.find?_eq_some.mpr ⟨by rw [turn, h]; exact List.mem_append_left _ hrow', hid⟩

theorem wait_turn (ht : t' < t + minute) {healthy : Prop} {row : OutboxEvent} {s : Store} (hs : Retriable t' s)
    (hrow : row ∈ s.db.outbox.rows) (hdue : selectable t row = true) {a : Turn} (ha : a.Timely row.id t t')
    (hhealthy : healthy → ∀ p, a = .flush p → Healthy (p.replies row.id) s.db.mails row) :
    Done t healthy row (turn sha256 config k limit s a) ∨
      row ∈ (turn sha256 config k limit s a).db.outbox.rows ∧
        ahead t' row.id (turn sha256 config k limit s a) + fetchLimit limit * [a].countP Turn.isFlush ≤
          ahead t' row.id s := by
  cases a with
  | flush p =>
    have hp : p.Prompt t t' := ha
    obtain ⟨hown, hother, _⟩ := flush_deals config k hp limit s
    by_cases hfetched : row ∈ s.db.outbox.pendingRows limit p.now p.skip
    · obtain ⟨row', hfind, hsettled, hpublished⟩ := hown row hfetched (hs.pending hp hfetched)
      exact Or.inl ⟨row', hfind, hsettled, fun h => hpublished (hhealthy h p rfl)⟩
    · right
      have hkept : row.id ∉ (s.db.outbox.pendingRows limit p.now p.skip).map (·.id) := by
        intro hmem
        obtain ⟨first, hfirst, he⟩ := List.mem_map.mp hmem
        exact hfetched (s.db.outbox.row_unique (mem_pendingRows hfirst).1 hrow he ▸ hfirst)
      refine ⟨?_, ?_⟩
      · have hfind := hother row.id hkept
        rw [Table.find?_eq_some.mpr ⟨hrow, rfl⟩] at hfind
        exact (Table.find?_eq_some.mp hfind).1
      · simpa [turn, Turn.isFlush] using flush_ahead config k ht hp hs hrow hdue hfetched
  | publish cmd now newMailID eventID auto =>
    right
    have hlater : row.id < assigned eventID auto.event := ha
    rcases publish_outbox sha256 s.db cmd now newMailID eventID auto with h | ⟨_, event, hid, _, _, h⟩
    · rw [turn, h]
      exact ⟨hrow, le_rfl⟩
    · refine ⟨by rw [turn, h]; exact List.mem_append_left _ hrow, ?_⟩
      have hnew : ¬ event.id ≤ row.id := by omega
      simp [turn, ahead, h, hnew, Turn.isFlush]

theorem done_takeTurns (ht : t' < t + minute) {healthy : Prop} {row : OutboxEvent} (hdue : selectable t row = true)
    (hpayload : ∃ changed, row.payload = .encoded changed) {turns : List Turn}
    (hturns : ∀ a ∈ turns, a.Timely row.id t t')
    (hcalls : healthy → ∀ p, .flush p ∈ turns → ∀ c, (p.replies row.id c).2 = .ok) {s : Store}
    (hs : Retriable t' s) (hmail : healthy → s.db.mails.find? row.aggregateID ≠ none)
    (h : Done t healthy row s ∨ row ∈ s.db.outbox.rows ∧
      ahead t' row.id s ≤ fetchLimit limit * turns.countP Turn.isFlush) (hsoon : t ≤ t') :
    Done t healthy row (takeTurns sha256 config k limit s turns) := by
  induction turns generalizing s with
  | nil =>
    refine h.resolve_right ?_
    rintro ⟨hrow, hnone⟩
    have hmem : row.id ∈ dueIDs t' row.id s :=
      mem_dueIDs.mpr ⟨row, Table.find?_eq_some.mpr ⟨hrow, rfl⟩, selectable_mono hsoon hdue, le_rfl⟩
    have hpos := List.length_pos_of_mem hmem
    rw [length_dueIDs] at hpos
    simp only [List.countP_nil, Nat.mul_zero] at hnone
    omega
  | cons a turns ih =>
    have ha := hturns a List.mem_cons_self
    apply ih (fun b hb => hturns b (List.mem_cons_of_mem _ hb))
      (fun hh p hp => hcalls hh p (List.mem_cons_of_mem _ hp)) (turn_retriable ht hs ha)
      (fun hh => turn_mail (hmail hh) ha)
    rcases h with h | ⟨hrow, hle⟩
    · exact Or.inl (done_turn ht h ha)
    · refine (wait_turn ht hs hrow hdue ha ?_).imp_right (And.imp_right fun hahead => ?_)
      · rintro hh p rfl
        exact ⟨hcalls hh p List.mem_cons_self, hpayload, hmail hh⟩
      · have hsplit : (a :: turns).countP Turn.isFlush = [a].countP Turn.isFlush + turns.countP Turn.isFlush := by
          rw [← List.countP_append, List.singleton_append]
        rw [hsplit, Nat.mul_add] at hle
        omega

end Wait

section Reachable

variable {sha256 : PublishPayload → String} {config : Nat → Config}

theorem retryCount_run {ls : List Label} {w : World} (h : run (step sha256 config) init ls = some w) :
    ∀ row ∈ w.store.db.outbox.rows, 0 ≤ row.retryCount := by
  apply reachable_invariant (I := fun w : World => ∀ row ∈ w.store.db.outbox.rows, 0 ≤ row.retryCount) ?_
    (fun row h => by cases h) h
  intro as u l v hrun hu hl
  rcases step_store hl with hs | ⟨a, hi, hs⟩
  · rw [hs]
    exact hu
  · rw [hs]
    intro row hrow
    cases act_row hrow with
    | kept hold => exact hu row hold
    | created =>
      cases hi with
      | create hp =>
        obtain ⟨_, _, _, _, _, rfl⟩ := drafted_run hrun hp
        exact le_rfl
    | fetched hold =>
      have hcount := hu _ hold
      exact hcount
    | published hold =>
      have hcount := hu _ hold
      exact hcount
    | failed hold => exact (hu _ hold).trans (Int.le_add_one le_rfl)

theorem relayable_run {ls : List Label} {w : World} (h : run (step sha256 config) init ls = some w)
    {row : OutboxEvent} (hrow : row ∈ w.store.db.outbox.rows) :
    (∃ changed, row.payload = .encoded changed) ∧
      (row.aggregateID ≠ 0 → w.store.db.mails.find? row.aggregateID ≠ none) := by
  have hacc := accounts_run h
  obtain ⟨c, hc, he⟩ := hacc.outbox_row hrow
  have hwell := creations_wellFormed h hc
  have hsame := announcement_inj he
  constructor
  · obtain ⟨changed, hpayload, _⟩ := hwell.payload
    exact ⟨changed, hsame.payload.symm.trans hpayload⟩
  · intro hkeyed hnone
    have hid : c.rows.mail.id = row.aggregateID := hwell.aggregate.symm.trans hsame.aggregateID
    have hmail : storedMail c.auto c.rows.mail ∈ w.store.db.mails.rows := by
      rw [hacc.mails]
      exact List.mem_map_of_mem hc
    refine Table.find?_eq_none.mp hnone _ hmail ?_
    rw [storedMail_of_ne (hid ▸ hkeyed)]
    exact hid

end Reachable

theorem due_event_served (sha256 : PublishPayload → String) (config : Nat → Config) (ls : List Label) (w : World)
    (h : run (step sha256 config) init ls = some w) (k : Nat) (limit : Int) (t t' : Time) (hsoon : t ≤ t')
    (ht : t' < t + minute) (row : OutboxEvent) (hrow : row ∈ w.store.db.outbox.rows)
    (hdue : selectable t row = true)
    (hretries : ∀ other ∈ w.store.db.outbox.rows, selectable t' other = true →
      (other.retryCount + 1) * minute < 2 ^ 63)
    (turns : List Turn) (hturns : ∀ a ∈ turns, a.Timely row.id t t')
    (hpasses : ahead t' row.id w.store ≤ fetchLimit limit * turns.countP Turn.isFlush) :
    ∃ row', (takeTurns sha256 (config k) k limit w.store turns).db.outbox.find? row.id = some row' ∧
      Settled t row row' ∧
      (row.aggregateID ≠ 0 ∧ (∀ p, .flush p ∈ turns → ∀ c, (p.replies row.id c).2 = .ok) →
        row'.status = .published) := by
  obtain ⟨hpayload, hmail⟩ := relayable_run h hrow
  have hretriable : Retriable t' w.store := fun other hother hsel =>
    ⟨retryCount_run h other hother, hretries other hother hsel⟩
  exact done_takeTurns ht hdue hpayload hturns (fun hcalls => hcalls.2) hretriable (fun hcalls => hmail hcalls.1)
    (Or.inr ⟨hrow, hpasses⟩) hsoon

section Backlog

def twoNotices : List Label :=
  [.publishBegin 0 ⟨noticeMail, [], "", ""⟩ 0 100 7 none, .publishCreate 0 .first .ok,
    .publishBegin 1 ⟨noticeMail, [], "", ""⟩ 0 101 8 none, .publishCreate 1 .first .ok]

def afterTwoNotices : World := (run (step (fun _ => "") twoWorkers) init twoNotices).get (by decide)

def kafkaRefuses : Pass :=
  ⟨0, 0, fun _ => false, .ok, fun id c => (0, if id = 7 ∧ c = .publish then .failed "kafka" else .ok)⟩

theorem kafkaRefuses_prompt : kafkaRefuses.Prompt 0 0 where
  fetch := rfl
  skip _ := rfl
  start := le_rfl
  stop := le_rfl
  clock _ _ := le_rfl
  mysql id c hc := by
    have hne : c ≠ .publish := by rintro rfl; cases hc
    simp [kafkaRefuses, hne]

theorem secondNotice_served :
    ∃ row ∈ afterTwoNotices.store.db.outbox.rows, row.id = 8 ∧ ∃ row',
      (takeTurns (fun _ => "") (twoWorkers 0) 0 1 afterTwoNotices.store
        [.flush kafkaRefuses, .flush kafkaRefuses]).db.outbox.find? 8 = some row' ∧ row'.status = .published := by
  have hrow : ∃ row ∈ afterTwoNotices.store.db.outbox.rows,
      row.id = 8 ∧ selectable 0 row = true ∧ row.aggregateID ≠ 0 := by decide
  obtain ⟨row, hmem, hid, hdue, hkeyed⟩ := hrow
  have hretries : ∀ other ∈ afterTwoNotices.store.db.outbox.rows, selectable 0 other = true →
      (other.retryCount + 1) * minute < 2 ^ 63 := by decide
  have hturns : ∀ a ∈ [Turn.flush kafkaRefuses, .flush kafkaRefuses], a.Timely row.id 0 0 := by
    intro a ha
    simp only [List.mem_cons, List.not_mem_nil, or_false, or_self] at ha
    exact ha ▸ kafkaRefuses_prompt
  have hpasses : ahead 0 row.id afterTwoNotices.store ≤
      fetchLimit 1 * [Turn.flush kafkaRefuses, .flush kafkaRefuses].countP Turn.isFlush := by
    rw [hid]
    decide
  obtain ⟨row', hfind, _, hpublished⟩ := due_event_served (fun _ => "") twoWorkers twoNotices afterTwoNotices
    (Option.some_get _).symm 0 1 0 0 le_rfl (by decide) row hmem hdue hretries _ hturns hpasses
  refine ⟨row, hmem, hid, row', hid ▸ hfind, hpublished ⟨hkeyed, ?_⟩⟩
  intro p hp c
  simp only [List.mem_cons, List.not_mem_nil, or_false, or_self, Turn.flush.injEq] at hp
  simp [hp, kafkaRefuses, hid]

end Backlog

end GlobalMailSystem.Relay
