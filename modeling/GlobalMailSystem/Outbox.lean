import GlobalMailSystem.MailTypes
import GlobalMailSystem.Table

namespace GlobalMailSystem

abbrev OutboxTable := Table OutboxEvent.id

namespace OutboxTable

def selectable (now : Time) (row : OutboxEvent) : Bool :=
  (row.status = .pending && match row.nextRetryTime with
    | none => true
    | some t => t ≤ now) ||
  (row.status = .processing && match row.lockedUntil with
    | none => false
    | some t => t ≤ now)

def fetchLimit (limit : Int) : Nat := if limit ≤ 0 then 100 else limit.toNat

def fetchOwner (lockedBy : String) : String := if lockedBy = "" then "outbox-relay" else lockedBy

def lease (lockedBy : String) (lockedUntil : Time) (row : OutboxEvent) : OutboxEvent :=
  { row with status := .processing, lockedBy := fetchOwner lockedBy, lockedUntil := some lockedUntil }

/-- Rows for which `skip` holds are locked by another transaction (`SKIP LOCKED`). -/
def pendingRows (t : OutboxTable) (limit : Int) (now : Time) (skip : Int → Bool) : List OutboxEvent :=
  ((t.rows.filter fun row => selectable now row && !skip row.id).insertionSort
    (fun a b => a.id ≤ b.id)).take (fetchLimit limit)

def fetchRow (ids : List Int) (lockedBy : String) (lockedUntil now : Time) (row : OutboxEvent) :
    OutboxEvent :=
  if row.id ∈ ids then { lease lockedBy lockedUntil row with nextRetryTime := none, updateTime := now }
  else row

theorem fetchRow_id (ids : List Int) (lockedBy : String) (lockedUntil now : Time) (row : OutboxEvent) :
    (fetchRow ids lockedBy lockedUntil now row).id = row.id := by
  unfold fetchRow
  split <;> rfl

def fetchPending (t : OutboxTable) (limit : Int) (lockedBy : String) (lockedUntil now : Time)
    (skip : Int → Bool) : OutboxTable × List OutboxEvent :=
  let models := t.pendingRows limit now skip
  let ids := models.map (·.id)
  (t.mapRows (fetchRow ids lockedBy lockedUntil now) (fetchRow_id ids lockedBy lockedUntil now),
    models.map (lease lockedBy lockedUntil))

def publishedRow (publishedAt : Time) (row : OutboxEvent) : OutboxEvent :=
  { row with
    status := .published, lockedBy := "", lockedUntil := none, failureReason := ""
    publishedTime := some publishedAt, updateTime := publishedAt }

theorem publishedRow_id (publishedAt : Time) (row : OutboxEvent) :
    (publishedRow publishedAt row).id = row.id :=
  rfl

def markPublished (t : OutboxTable) (eventID : Int) (publishedAt : Time) : OutboxTable :=
  t.updateWhere eventID (publishedRow publishedAt) (publishedRow_id publishedAt)

def effectiveRetries (maxRetries : Int) : Int := if maxRetries ≤ 0 then 5 else maxRetries

def failedStatus (retryCount maxRetries : Int) : OutboxStatus :=
  if retryCount + 1 ≥ effectiveRetries maxRetries then .failed else .pending

def truncateBytes : Nat → List Char → List Char
  | _, [] => []
  | n, c :: cs => if c.utf8Size ≤ n then c :: truncateBytes (n - c.utf8Size) cs else []

def isSpace (c : Char) : Bool :=
  (0x09 ≤ c.toNat && c.toNat ≤ 0x0D) || (0x2000 ≤ c.toNat && c.toNat ≤ 0x200A) ||
    c.toNat ∈ [0x20, 0x85, 0xA0, 0x1680, 0x2028, 0x2029, 0x202F, 0x205F, 0x3000]

def trimSpace (cs : List Char) : List Char :=
  ((cs.dropWhile isSpace).reverse.dropWhile isSpace).reverse

def failureText (cause : String) : String :=
  String.ofList (trimSpace (truncateBytes 1024 cause.toList))

def failedRow (status : OutboxStatus) (nextRetryAt now : Time) (cause : String) (row : OutboxEvent) :
    OutboxEvent :=
  { row with
    status := status, retryCount := row.retryCount + 1, lockedBy := "", lockedUntil := none
    failureReason := failureText cause
    nextRetryTime := if status = .pending then some nextRetryAt else none
    updateTime := now }

theorem failedRow_id (status : OutboxStatus) (nextRetryAt now : Time) (cause : String)
    (row : OutboxEvent) : (failedRow status nextRetryAt now cause row).id = row.id :=
  rfl

def markFailed (t : OutboxTable) (eventID : Int) (status : OutboxStatus) (nextRetryAt now : Time)
    (cause : String) : OutboxTable :=
  t.updateWhere eventID (failedRow status nextRetryAt now cause)
    (failedRow_id status nextRetryAt now cause)

theorem mem_pendingRows {t : OutboxTable} {limit : Int} {now : Time} {skip : Int → Bool}
    {row : OutboxEvent} (h : row ∈ t.pendingRows limit now skip) :
    row ∈ t.rows ∧ selectable now row = true := by
  have hm := List.mem_of_mem_take h
  rw [List.mem_insertionSort, List.mem_filter] at hm
  refine ⟨hm.1, ?_⟩
  have hs := hm.2
  rw [Bool.and_eq_true] at hs
  exact hs.1

theorem pendingRows_nodup (t : OutboxTable) (limit : Int) (now : Time) (skip : Int → Bool) :
    ((t.pendingRows limit now skip).map (·.id)).Nodup := by
  have hfilter : ((t.rows.filter fun row => selectable now row && !skip row.id).map (·.id)).Nodup :=
    t.unique.sublist (List.filter_sublist.map _)
  have hsorted := (List.perm_insertionSort (fun a b : OutboxEvent => a.id ≤ b.id)
    (t.rows.filter fun row => selectable now row && !skip row.id)).map (·.id)
  exact (hsorted.nodup_iff.mpr hfilter).sublist ((List.take_sublist _ _).map _)

theorem mem_fetchPending {t : OutboxTable} {limit : Int} {lockedBy : String} {lockedUntil now : Time}
    {skip : Int → Bool} {row : OutboxEvent} :
    row ∈ (t.fetchPending limit lockedBy lockedUntil now skip).1.rows ↔
      ∃ s ∈ t.rows,
        fetchRow ((t.pendingRows limit now skip).map (·.id)) lockedBy lockedUntil now s = row := by
  simp only [fetchPending, Table.mem_mapRows]

theorem mem_markPublished {t : OutboxTable} {eventID : Int} {publishedAt : Time} {row : OutboxEvent} :
    row ∈ (t.markPublished eventID publishedAt).rows ↔
      (row ∈ t.rows ∧ row.id ≠ eventID) ∨
        ∃ s ∈ t.rows, s.id = eventID ∧ publishedRow publishedAt s = row := by
  simp only [markPublished, Table.mem_updateWhere]

theorem mem_markFailed {t : OutboxTable} {eventID : Int} {status : OutboxStatus}
    {nextRetryAt now : Time} {cause : String} {row : OutboxEvent} :
    row ∈ (t.markFailed eventID status nextRetryAt now cause).rows ↔
      (row ∈ t.rows ∧ row.id ≠ eventID) ∨
        ∃ s ∈ t.rows, s.id = eventID ∧ failedRow status nextRetryAt now cause s = row := by
  simp only [markFailed, Table.mem_updateWhere]

theorem selectable_not_published {now : Time} {row : OutboxEvent} (h : selectable now row = true) :
    row.status ≠ .published := by
  intro hp
  simp [selectable, hp] at h

theorem failedStatus_not_published (retryCount maxRetries : Int) :
    failedStatus retryCount maxRetries ≠ .published := by
  unfold failedStatus
  split_ifs <;> simp

end OutboxTable

end GlobalMailSystem
