import GlobalMailSystem.PlayerService

namespace GlobalMailSystem

namespace Rpc

inductive CommandID
  | unspecified
  | mailListGlobal
  | mailMarkRead
  | mailClaim
  | mailDelete
  | other (number : Int)
  deriving DecidableEq

structure UserProfile where
  uid : Int
  roleID : Int
  serverID : Int
  vipLevel : Int
  totalRecharge : Int
  corpsLevel : Int
  openDays : Int
  packageType : String
  country : String

inductive Payload
  | listGlobalMailsRequest (profile : Option UserProfile)
  | globalMailStateRequest (profile : Option UserProfile) (globalMailID : Int)
  | claimGlobalMailRequest (profile : Option UserProfile) (globalMailID : Int) (lootIndexes : List Int)
  | otherMessage

structure CommandRequest where
  commandID : CommandID
  uid : Int
  roleID : Int
  serverID : Int
  seq : Int
  payload : Option Payload

structure GlobalMailItem where
  globalMailID : Int
  title : String
  content : String
  messageMap : RawMessage
  loots : RawMessage
  sender : String
  category : String
  templateID : Int
  params : RawMessage
  externalURL : String
  startTime : String
  expireTime : String
  status : MailStatus
  version : Int
  userStatus : UserMailStatus
  claimedLootIndexes : List Int

structure GlobalMailStateResponse where
  roleID : Int
  serverID : Int
  globalMailID : Int
  status : UserMailStatus
  claimedLootIndexes : List Int
  claimTime : String
  deleteTime : String
  version : Int

inductive ResponsePayload
  | listGlobalMailsResponse (mails : List GlobalMailItem)
  | globalMailStateResponse (state : GlobalMailStateResponse)

structure CommandResponse where
  commandID : CommandID
  seq : Int
  code : Int
  message : String
  payload : Option ResponsePayload

structure CommandDefinition where
  commandID : CommandID
  name : String
  requestType : String
  responseType : String

end Rpc

namespace MailCommands

open Rpc PlayerMail

def errMismatchedType : String := "mismatched message type"

def int32 (n : Int) : Int := n.bmod (2 ^ 32)

variable (rfc3339Nano : Time → String)

def formatTime (value : Time) : String := if value = zeroTime then "" else rfc3339Nano value

def formatOptionalTime : Option Time → String
  | none => ""
  | some value => formatTime rfc3339Nano value

def toRPCMailItem (item : MailItem) : GlobalMailItem :=
  { globalMailID := item.mail.id, title := item.mail.title, content := item.mail.content
    messageMap := item.mail.messageMap, loots := item.mail.loots, sender := item.mail.sender
    category := item.mail.category, templateID := item.mail.templateID, params := item.mail.params
    externalURL := item.mail.externalURL, startTime := formatTime rfc3339Nano item.mail.startTime
    expireTime := formatTime rfc3339Nano item.mail.expireTime, status := item.mail.status
    version := item.mail.version, userStatus := item.status
    claimedLootIndexes := item.claimedLootIndexes.map int32 }

def toRPCMailState (state : UserGlobalMailState) : GlobalMailStateResponse :=
  { roleID := state.roleID, serverID := int32 state.serverID, globalMailID := state.globalMailID
    status := state.status, claimedLootIndexes := state.claimedLootIndexes.map int32
    claimTime := formatOptionalTime rfc3339Nano state.claimTime
    deleteTime := formatOptionalTime rfc3339Nano state.deleteTime, version := int32 state.version }

def toDomainProfile : Option Rpc.UserProfile → GlobalMailSystem.UserProfile
  | none => default
  | some profile =>
    { (default : GlobalMailSystem.UserProfile) with
      uid := profile.uid, roleID := profile.roleID, serverID := profile.serverID
      vipLevel := profile.vipLevel, totalRecharge := profile.totalRecharge
      corpsLevel := profile.corpsLevel, openDays := profile.openDays
      packageType := profile.packageType, country := profile.country }

def applyCommandIdentity (target source : Rpc.UserProfile) : Rpc.UserProfile :=
  { target with uid := source.uid, roleID := source.roleID, serverID := source.serverID }

def ensureCommandProfile (req : CommandRequest) (profile : Option Rpc.UserProfile) :
    Option Rpc.UserProfile :=
  let identity : Rpc.UserProfile := ⟨req.uid, req.roleID, req.serverID, 0, 0, 0, 0, "", ""⟩
  match profile with
  | none => some identity
  | some profile => some (applyCommandIdentity profile identity)

abbrev Handler := PlayerServer → Readings → CommandRequest → PlayerServer × Except String ResponsePayload

def listHandler : Handler := fun s r req =>
  let list (profile : Option Rpc.UserProfile) :=
    let listed := listGlobalMails s r (toDomainProfile (ensureCommandProfile req profile))
    (listed.1, .ok (.listGlobalMailsResponse (listed.2.map (toRPCMailItem rfc3339Nano))))
  match req.payload with
  | none => list none
  | some (.listGlobalMailsRequest profile) => list profile
  | some _ => (s, .error errMismatchedType)

def stateResponse (updated : PlayerServer × Except String UserGlobalMailState) :
    PlayerServer × Except String ResponsePayload :=
  (updated.1, updated.2.map fun state => .globalMailStateResponse (toRPCMailState rfc3339Nano state))

def stateHandler
    (call : PlayerServer → Readings → GlobalMailSystem.UserProfile → Int →
      PlayerServer × Except String UserGlobalMailState) : Handler := fun s r req =>
  let update (profile : Option Rpc.UserProfile) (mailID : Int) :=
    stateResponse rfc3339Nano (call s r (toDomainProfile (ensureCommandProfile req profile)) mailID)
  match req.payload with
  | none => update none 0
  | some (.globalMailStateRequest profile mailID) => update profile mailID
  | some _ => (s, .error errMismatchedType)

def markReadHandler : Handler := stateHandler rfc3339Nano markGlobalMailRead

def deleteHandler : Handler := stateHandler rfc3339Nano deleteGlobalMail

def claimHandler : Handler := fun s r req =>
  let claim (profile : Option Rpc.UserProfile) (mailID : Int) (lootIndexes : List Int) :=
    stateResponse rfc3339Nano
      (claimGlobalMail s r (toDomainProfile (ensureCommandProfile req profile)) mailID lootIndexes)
  match req.payload with
  | none => claim none 0 []
  | some (.claimGlobalMailRequest profile mailID lootIndexes) => claim profile mailID lootIndexes
  | some _ => (s, .error errMismatchedType)

structure CommandRegistration where
  definition : CommandDefinition
  handler : Handler

def CommandRegistration.commandID (registration : CommandRegistration) : CommandID :=
  registration.definition.commandID

abbrev CommandRegistry := Table CommandRegistration.commandID

def errCommandAlreadyRegistered : String := "command already registered"

def register (registry : CommandRegistry) (registration : CommandRegistration) :
    Except String CommandRegistry :=
  if registration.commandID = .unspecified then .error "command definition is required"
  else
    match registry.insert registration with
    | none => .error errCommandAlreadyRegistered
    | some registry => .ok registry

def mailRegistrations : List CommandRegistration :=
  [⟨⟨.mailListGlobal, "mail.list_global", "globalmail.rpc.ListGlobalMailsRequest",
      "globalmail.rpc.ListGlobalMailsResponse"⟩, listHandler rfc3339Nano⟩,
    ⟨⟨.mailMarkRead, "mail.mark_read", "globalmail.rpc.GlobalMailStateRequest",
      "globalmail.rpc.GlobalMailStateResponse"⟩, markReadHandler rfc3339Nano⟩,
    ⟨⟨.mailClaim, "mail.claim", "globalmail.rpc.ClaimGlobalMailRequest",
      "globalmail.rpc.GlobalMailStateResponse"⟩, claimHandler rfc3339Nano⟩,
    ⟨⟨.mailDelete, "mail.delete", "globalmail.rpc.GlobalMailStateRequest",
      "globalmail.rpc.GlobalMailStateResponse"⟩, deleteHandler rfc3339Nano⟩]

def registerMailCommandHandlers (registry : CommandRegistry) : Except String CommandRegistry :=
  (mailRegistrations rfc3339Nano).foldlM register registry

def mailRegistry : CommandRegistry :=
  ⟨mailRegistrations rfc3339Nano, by simp [mailRegistrations, CommandRegistration.commandID]⟩

theorem registerMailCommandHandlers_empty :
    registerMailCommandHandlers rfc3339Nano .empty = .ok (mailRegistry rfc3339Nano) :=
  rfl

def dispatch (registry : CommandRegistry) (s : PlayerServer) (r : Readings) (req : CommandRequest) :
    PlayerServer × Except String CommandResponse :=
  match registry.find? req.commandID with
  | none => (s, .ok ⟨req.commandID, req.seq, 404, "unknown command", none⟩)
  | some registration =>
    let handled := registration.handler s r req
    (handled.1, handled.2.map fun payload => ⟨req.commandID, req.seq, 0, "ok", some payload⟩)

end MailCommands

end GlobalMailSystem
