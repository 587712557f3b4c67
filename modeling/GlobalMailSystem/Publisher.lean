import GlobalMailSystem.Outbox

namespace GlobalMailSystem

inductive IdempotencyStatus
  | succeeded
  deriving DecidableEq

structure PublishIdempotencyRecord where
  key : String
  action : String
  requestHash : String
  globalMailID : Int
  targetVersion : Int
  status : IdempotencyStatus
  responseSnapshot : GlobalMail
  createTime : Time
  updateTime : Time

structure PublishCommand where
  mail : GlobalMail
  conditions : List Condition
  action : String
  idempotencyKey : String

structure PublishPayload where
  mail : GlobalMail
  conditions : List Condition
  action : String

/-- The tables of the publish transaction; a mail row carries the rows of `global_mail_condition` that are
read with it. -/
structure Database where
  mails : Table GlobalMail.id
  conditions : Table Condition.id
  outbox : OutboxTable
  idempotency : Table PublishIdempotencyRecord.key

def Database.empty : Database := ⟨.empty, .empty, .empty, .empty⟩

structure AutoIncrement where
  mail : Int
  condition : Nat → Int
  event : Int
  mail_pos : 0 < mail
  condition_pos : ∀ i, 0 < condition i
  event_pos : 0 < event

theorem AutoIncrement.counted_pos (i : Nat) : (0 : Int) < (i + 1 : Nat) := Int.natCast_pos.mpr i.succ_pos

def AutoIncrement.first : AutoIncrement where
  mail := 1
  condition i := (i + 1 : Nat)
  event := 1
  mail_pos := Int.one_pos
  condition_pos := counted_pos
  event_pos := Int.one_pos

namespace Publisher

def eventTypeGlobalMailChanged : String := "GlobalMailChanged"

def errIdempotencyConflict : String := "idempotency key reused with different request"

def validateMail (mail : GlobalMail) : Option String :=
  if mail.title = "" then some "global mail title is required"
  else if mail.content = "" then some "global mail content is required"
  else if mail.startTime = zeroTime ∨ mail.expireTime = zeroTime then
    some "global mail start and expire time are required"
  else if ¬ mail.startTime < mail.expireTime then
    some "global mail expire time must be after start time"
  else none

def defaultAction (cmd : PublishCommand) : PublishCommand :=
  { cmd with action := if cmd.action = "" then "publish" else cmd.action }

def hashPublishCommand (sha256 : PublishPayload → String) (cmd : PublishCommand) : String :=
  sha256 ⟨cmd.mail, cmd.conditions, cmd.action⟩

structure Rows where
  mail : GlobalMail
  event : OutboxEvent
  record : Option PublishIdempotencyRecord

inductive Decision
  | fail (err : String)
  | replay (mail : GlobalMail)
  | create (rows : Rows)

def publishedMail (cmd : PublishCommand) (now : Time) (newMailID : Int) : GlobalMail :=
  { cmd.mail with
    id := if cmd.mail.id = 0 then newMailID else cmd.mail.id
    status := .published, version := 1, conditions := cmd.conditions
    createTime := now, updateTime := now }

def changedEvent (cmd : PublishCommand) (mail : GlobalMail) (eventID : Int) (now : Time) :
    GlobalMailChangedEvent :=
  ⟨eventID, mail.id, mail.version, cmd.action, now⟩

def outboxEvent (cmd : PublishCommand) (mail : GlobalMail) (eventID : Int) (now : Time) : OutboxEvent :=
  { id := eventID, type := eventTypeGlobalMailChanged, aggregateID := mail.id
    version := mail.version, payload := .encoded (changedEvent cmd mail eventID now)
    status := .pending, retryCount := 0, nextRetryTime := none, lockedBy := "", lockedUntil := none
    failureReason := "", publishedTime := none, createTime := now, updateTime := now }

def publishRows (sha256 : PublishPayload → String) (cmd : PublishCommand) (now : Time)
    (newMailID eventID : Int) : Rows :=
  let mail := publishedMail cmd now newMailID
  { mail, event := outboxEvent cmd mail eventID now
    record := if cmd.idempotencyKey = "" then none
      else some ⟨cmd.idempotencyKey, cmd.action, hashPublishCommand sha256 cmd, mail.id,
        mail.version, .succeeded, mail, now, now⟩ }

def prepare (sha256 : PublishPayload → String) (db : Database) (cmd : PublishCommand) (now : Time)
    (newMailID eventID : Int) : Decision :=
  match validateMail cmd.mail with
  | some err => .fail err
  | none =>
    let cmd := defaultAction cmd
    let fresh := Decision.create (publishRows sha256 cmd now newMailID eventID)
    if cmd.idempotencyKey = "" then fresh
    else
      match db.idempotency.find? cmd.idempotencyKey with
      | none => fresh
      | some record =>
        if record.requestHash ≠ hashPublishCommand sha256 cmd then .fail errIdempotencyConflict
        else .replay record.responseSnapshot

/-- `Create` leaves out a primary key that is zero, and MySQL generates one. -/
def assigned (id auto : Int) : Int := if id = 0 then auto else id

def storedConditions (auto : AutoIncrement) (mail : GlobalMail) : List Condition :=
  mail.conditions.mapIdx fun i condition =>
    { condition with id := assigned condition.id (auto.condition i), mailID := mail.id }

/-- The mail as it is read back. The conditions have been stored under the id the mail came with, and are looked
up under the id of the row. -/
def storedMail (auto : AutoIncrement) (mail : GlobalMail) : GlobalMail :=
  { mail with
    id := assigned mail.id auto.mail
    conditions := (storedConditions auto mail).filter fun condition =>
      condition.mailID = assigned mail.id auto.mail }

def storedEvent (auto : AutoIncrement) (event : OutboxEvent) : OutboxEvent :=
  { event with id := assigned event.id auto.event }

def storable (mail : GlobalMail) : Bool :=
  mail.messageMap.storable && mail.loots.storable && mail.params.storable &&
    mail.conditions.all fun condition => match condition.value with
      | .value _ => true
      | _ => false

def createGlobalMailWithOutbox (db : Database) (auto : AutoIncrement) (rows : Rows) : Option Database :=
  if storable rows.mail then do
    let mails ← db.mails.insert (storedMail auto rows.mail)
    let conditions ← db.conditions.insertAll (storedConditions auto rows.mail)
    let outbox ← db.outbox.insert (storedEvent auto rows.event)
    match rows.record with
    | none => some { db with mails, conditions, outbox }
    | some record =>
      let idempotency ← db.idempotency.insert record
      some ⟨mails, conditions, outbox, idempotency⟩
  else none

def errConstraint : String := "constraint violated"

def publish (sha256 : PublishPayload → String) (db : Database) (cmd : PublishCommand) (now : Time)
    (newMailID eventID : Int) (auto : AutoIncrement) : Database × Except String GlobalMail :=
  match prepare sha256 db cmd now newMailID eventID with
  | .fail err => (db, .error err)
  | .replay mail => (db, .ok mail)
  | .create rows =>
    match createGlobalMailWithOutbox db auto rows with
    | none => (db, .error errConstraint)
    | some db' => (db', .ok rows.mail)

structure Created (db : Database) (auto : AutoIncrement) (rows : Rows) (db' : Database) : Prop where
  mails : db'.mails.rows = db.mails.rows ++ [storedMail auto rows.mail]
  conditions : db'.conditions.rows = db.conditions.rows ++ storedConditions auto rows.mail
  outbox : db'.outbox.rows = db.outbox.rows ++ [storedEvent auto rows.event]
  idempotency : db'.idempotency.rows = db.idempotency.rows ++ rows.record.toList
  fresh : ∀ mail ∈ db.mails.rows, mail.id ≠ (storedMail auto rows.mail).id

theorem create_rows {db db' : Database} {auto : AutoIncrement} {rows : Rows}
    (h : createGlobalMailWithOutbox db auto rows = some db') : Created db auto rows db' := by
  unfold createGlobalMailWithOutbox at h
  split_ifs at h
  simp only [Option.bind_eq_bind, Option.bind_eq_some_iff] at h
  obtain ⟨mails, hmails, conditions, hconditions, outbox, houtbox, h⟩ := h
  obtain ⟨hm, hfresh⟩ := Table.insert_eq_some hmails
  have hc := Table.insertAll_eq_some hconditions
  have ho := (Table.insert_eq_some houtbox).1
  cases hr : rows.record with
  | none =>
    simp only [hr, Option.some.injEq] at h
    subst h
    exact ⟨hm, hc, ho, by simp [hr], hfresh⟩
  | some record =>
    simp only [hr, Option.bind_eq_some_iff] at h
    obtain ⟨idempotency, hinsert, h⟩ := h
    simp only [Option.some.injEq] at h
    subst h
    exact ⟨hm, hc, ho, by simpa [hr] using (Table.insert_eq_some hinsert).1, hfresh⟩

section Assigned

variable {id auto : Int}

theorem assigned_of_ne (h : id ≠ 0) : assigned id auto = id := if_neg h

theorem assigned_ne_zero (h : 0 < auto) : assigned id auto ≠ 0 := by
  unfold assigned
  split_ifs with hid
  · exact h.ne'
  · exact hid

theorem storedMail_id_ne_zero (auto : AutoIncrement) (mail : GlobalMail) : (storedMail auto mail).id ≠ 0 :=
  assigned_ne_zero auto.mail_pos

theorem mailID_storedConditions {auto : AutoIncrement} {mail : GlobalMail} {condition : Condition}
    (h : condition ∈ storedConditions auto mail) : condition.mailID = mail.id := by
  obtain ⟨i, hi, rfl⟩ := List.mem_mapIdx.mp h
  rfl

theorem storedMail_of_ne {auto : AutoIncrement} {mail : GlobalMail} (h : mail.id ≠ 0) :
    storedMail auto mail = { mail with conditions := storedConditions auto mail } := by
  have hall : ∀ condition ∈ storedConditions auto mail, decide (condition.mailID = mail.id) = true :=
    fun condition hc => decide_eq_true (mailID_storedConditions hc)
  simp only [storedMail, assigned_of_ne h, List.filter_eq_self.mpr hall]

end Assigned

structure Rows.WellFormed (rows : Rows) : Prop where
  aggregate : rows.event.aggregateID = rows.mail.id
  version : rows.event.version = rows.mail.version
  mailVersion : rows.mail.version = 1
  published : rows.mail.status = .published
  pending : rows.event.status = .pending
  payload : ∃ changed, rows.event.payload = .encoded changed ∧ changed.eventID = rows.event.id ∧
    changed.globalMailID = rows.mail.id ∧ changed.version = rows.mail.version

theorem publishRows_wellFormed (sha256 : PublishPayload → String) (cmd : PublishCommand) (now : Time)
    (newMailID eventID : Int) : (publishRows sha256 cmd now newMailID eventID).WellFormed where
  aggregate := rfl
  version := rfl
  mailVersion := rfl
  published := rfl
  pending := rfl
  payload := ⟨_, rfl, rfl, rfl, rfl⟩

theorem prepare_create {sha256 : PublishPayload → String} {db : Database} {cmd : PublishCommand}
    {now : Time} {newMailID eventID : Int} {rows : Rows}
    (h : prepare sha256 db cmd now newMailID eventID = .create rows) :
    rows = publishRows sha256 (defaultAction cmd) now newMailID eventID := by
  unfold prepare at h
  split at h
  · cases h
  · dsimp only at h
    split_ifs at h with hk
    · exact (Decision.create.inj h).symm
    · split at h
      · exact (Decision.create.inj h).symm
      · split_ifs at h

theorem prepare_replay {sha256 : PublishPayload → String} {db : Database} {cmd : PublishCommand}
    {now : Time} {newMailID eventID : Int} {mail : GlobalMail}
    (h : prepare sha256 db cmd now newMailID eventID = .replay mail) :
    ∃ record ∈ db.idempotency.rows, record.key = cmd.idempotencyKey ∧
      record.requestHash = hashPublishCommand sha256 (defaultAction cmd) ∧
      record.responseSnapshot = mail := by
  unfold prepare at h
  split at h
  · cases h
  · dsimp only at h
    split_ifs at h with hk
    split at h
    · cases h
    · rename_i record hfind
      obtain ⟨hrecord, hkey⟩ := Table.find?_eq_some.mp hfind
      split_ifs at h with hhash
      exact ⟨record, hrecord, hkey, not_not.mp hhash, Decision.replay.inj h⟩

end Publisher

end GlobalMailSystem
