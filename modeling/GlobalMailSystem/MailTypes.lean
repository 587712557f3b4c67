import GlobalMailSystem.RawJson

namespace GlobalMailSystem

/-- Nanoseconds since the Unix epoch; `zeroTime` is the zero `time.Time`. -/
abbrev Time := Int

def second : Time := 1000000000
def minute : Time := 60 * second

def zeroTime : Time := -62135596800 * second

def unix (t : Time) : Int := t / second

inductive MailStatus
  | draft | auditing | published | offline | deleted
  deriving DecidableEq

inductive UserMailStatus
  | unset | unread | read | claimed | deleted
  deriving DecidableEq

inductive OutboxStatus
  | pending | processing | published | failed
  deriving DecidableEq

inductive RewardStatus
  | unset | pending | succeeded | failed
  deriving DecidableEq

structure Condition where
  id : Int
  mailID : Int
  type : String
  operator : String
  value : RawMessage

structure GlobalMail where
  id : Int
  operatorID : Int
  title : String
  content : String
  messageMap : RawMessage
  loots : RawMessage
  sender : String
  category : String
  templateID : Int
  params : RawMessage
  externalURL : String
  startTime : Time
  expireTime : Time
  status : MailStatus
  version : Int
  conditions : List Condition
  createTime : Time
  updateTime : Time

instance : Inhabited GlobalMail :=
  ⟨0, 0, "", "", .empty, .empty, "", "", 0, .empty, "", zeroTime, zeroTime, .draft, 0, [], zeroTime, zeroTime⟩

structure UserProfile where
  roleID : Int
  uid : Int
  serverID : Int
  registerTime : Time
  vipLevel : Int
  totalRecharge : Int
  corpsLevel : Int
  openDays : Int
  packageType : String
  country : String
  deriving DecidableEq

instance : Inhabited UserProfile := ⟨0, 0, 0, zeroTime, 0, 0, 0, 0, "", ""⟩

structure UserGlobalMailState where
  roleID : Int
  serverID : Int
  globalMailID : Int
  status : UserMailStatus
  claimedLootIndexes : List Int
  claimTime : Option Time
  deleteTime : Option Time
  version : Int
  createTime : Time
  updateTime : Time
  deriving DecidableEq

structure RewardGrant where
  roleID : Int
  serverID : Int
  globalMailID : Int
  lootIndex : Int
  loot : RawMessage
  grantKey : String
  status : RewardStatus
  externalRewardID : String
  failureReason : String
  createTime : Time
  updateTime : Time

structure BackpackGrant where
  roleID : Int
  serverID : Int
  grantKey : String
  lootIndex : Int
  loot : RawMessage
  createTime : Time

structure GlobalMailChangedEvent where
  eventID : Int
  globalMailID : Int
  version : Int
  action : String
  timestamp : Time
  deriving DecidableEq

inductive EventPayload
  | encoded (event : GlobalMailChangedEvent)
  | malformed (text : String)
  deriving DecidableEq

def EventPayload.unmarshal : EventPayload → Option GlobalMailChangedEvent
  | .encoded event => some event
  | .malformed _ => none

structure OutboxEvent where
  id : Int
  type : String
  aggregateID : Int
  version : Int
  payload : EventPayload
  status : OutboxStatus
  retryCount : Int
  nextRetryTime : Option Time
  lockedBy : String
  lockedUntil : Option Time
  failureReason : String
  publishedTime : Option Time
  createTime : Time
  updateTime : Time
  deriving DecidableEq

def GlobalMail.inWindow (mail : GlobalMail) (now : Time) : Prop :=
  mail.startTime ≤ now ∧ now < mail.expireTime

instance (mail : GlobalMail) (now : Time) : Decidable (mail.inWindow now) :=
  inferInstanceAs (Decidable (_ ∧ _))

theorem unix_mono {a b : Time} (h : a ≤ b) : unix a ≤ unix b :=
  Int.ediv_le_ediv (by decide) h

theorem lt_of_unix_le {a b : Int} (h : unix a ≤ unix b) : a < b + second := by
  unfold unix second at *
  omega

end GlobalMailSystem
