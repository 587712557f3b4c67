import GlobalMailSystem.Rewards
import GlobalMailSystem.Snapshot
import GlobalMailSystem.UserState

/-!
Any number of `MarkGlobalMailRead`, `ClaimGlobalMail` and `DeleteGlobalMail` calls on any number of
player servers. Between two labels of a call any other call may take its steps.
-/

namespace GlobalMailSystem.PlayerMail

structure Request where
  server : Nat
  profile : UserProfile
  mailID : Int
  op : Op

inductive CallPC
  | readState (mail : GlobalMail)
  | grant (mail : GlobalMail) (read : UserGlobalMailState) (now : Time) (lootIndexes : List Int)
      (index : Int) (rest : List Int) (pc : GrantPC)
  | save (read next : UserGlobalMailState)
  | returned (result : Except String UserGlobalMailState)

/-- `checkedAt` is the time at which `VisibleMails` was asked for the mail. -/
structure Call where
  request : Request
  checkedAt : Time
  pc : CallPC

structure World where
  mails : Table GlobalMail.id
  snapshots : Nat → CacheSnapshot
  states : StateTable
  rewards : Rewards
  calls : List Call

inductive Label
  | addMail (mail : GlobalMail)
  | install (server : Nat) (version : Int) (mailIDs : List Int) (now : Time)
  | start (request : Request) (now : Time) (failure : Option String)
  | getState (c : Nat) (now grantNow : Time) (outcome : Outcome)
  | grant (c : Nat) (serverNow grantNow : Time) (outcome : Outcome)
  | save (c : Nat) (outcome : Outcome)
  | stop (c : Nat)

def visibleMail (snapshot : CacheSnapshot) (profile : UserProfile) (now : Time) (mailID : Int) :
    Option GlobalMail :=
  (snapshot.visibleMails profile now).find? fun mail => mail.id = mailID

def startPC (snapshot : CacheSnapshot) (request : Request) (now : Time) : Option String → CallPC
  | some err => .returned (.error err)
  | none =>
    match visibleMail snapshot request.profile now request.mailID with
    | none => .returned (.error errMailNotVisible)
    | some mail => .readState mail

def claimPC (request : Request) (mail : GlobalMail) (read : UserGlobalMailState) (now grantNow : Time)
    (lootIndexes : List Int) : List Int → CallPC
  | [] => .save read (stamped now (claimed now lootIndexes read))
  | index :: rest =>
    match lootAtIndex mail.loots index with
    | .error err => .returned (.error err)
    | .ok loot =>
      .grant mail read now lootIndexes index rest
        (.start (rewardGrant request.profile request.mailID index loot now) grantNow)

def applyPC (request : Request) (mail : GlobalMail) (read : UserGlobalMailState)
    (now grantNow : Time) : CallPC :=
  match request.op with
  | .markRead => .save read (stamped now (markedRead now read))
  | .claim lootIndexes =>
    if read.status = .deleted then .save read (stamped now read)
    else
      claimPC request mail read now grantNow lootIndexes
        (newLootIndexes read.claimedLootIndexes lootIndexes)
  | .delete => .save read (stamped now (deleted now read))

def readPC (states : StateTable) (request : Request) (mail : GlobalMail) (now grantNow : Time) :
    Outcome → CallPC
  | .ok => applyPC request mail (readState states request.profile request.mailID now) now grantNow
  | .failed err => .returned (.error err)
  | .lost err => .returned (.error err)

def grantPC (request : Request) (mail : GlobalMail) (read : UserGlobalMailState) (now grantNow : Time)
    (lootIndexes : List Int) (index : Int) (rest : List Int) : GrantPC → CallPC
  | .returned _ (.error err) => .returned (.error err)
  | .returned _ (.ok _) => claimPC request mail read now grantNow lootIndexes rest
  | pc => .grant mail read now lootIndexes index rest pc

def saveResult (states : StateTable) (next : UserGlobalMailState) : Outcome → StateTable × CallPC
  | .ok => (states.saveUserState next, .returned (.ok next))
  | .failed err => (states, .returned (.error err))
  | .lost err => (states.saveUserState next, .returned (.error err))

def World.setCall (w : World) (c : Nat) (call : Call) : World :=
  { w with calls := w.calls.set c call }

/-- A snapshot is installed from mails of the database; which of them the refresh has found in the
shared cache is up to the label. -/
def step (w : World) : Label → Option World
  | .addMail mail => (w.mails.insert mail).map fun mails => { w with mails }
  | .install server version mailIDs now =>
    let next := CacheSnapshot.build version (mailIDs.filterMap w.mails.find?) now
    some { w with snapshots := Function.update w.snapshots server next }
  | .start request now failure =>
    let call := ⟨request, now, startPC (w.snapshots request.server) request now failure⟩
    some { w with calls := w.calls ++ [call] }
  | .getState c now grantNow outcome =>
    match w.calls[c]? with
    | some ⟨request, checkedAt, .readState mail⟩ =>
      some (w.setCall c ⟨request, checkedAt, readPC w.states request mail now grantNow outcome⟩)
    | _ => none
  | .grant c serverNow grantNow outcome =>
    match w.calls[c]? with
    | some ⟨request, checkedAt, .grant mail read now lootIndexes index rest pc⟩ =>
      (pc.step w.rewards serverNow outcome).map fun r =>
        ({ w with rewards := r.1 }.setCall c
          ⟨request, checkedAt, grantPC request mail read now grantNow lootIndexes index rest r.2⟩)
    | _ => none
  | .save c outcome =>
    match w.calls[c]? with
    | some ⟨request, checkedAt, .save _ next⟩ =>
      let saved := saveResult w.states next outcome
      some ({ w with states := saved.1 }.setCall c ⟨request, checkedAt, saved.2⟩)
    | _ => none
  | .stop c =>
    match w.calls[c]? with
    | none => none
    | some ⟨_, _, .returned _⟩ => none
    | some ⟨request, checkedAt, _⟩ =>
      some (w.setCall c ⟨request, checkedAt, .returned (.error "process stopped")⟩)

def init : World := ⟨.empty, fun _ => .new 0 zeroTime, .empty, .empty, []⟩

def CallPC.inProgress : CallPC → Bool
  | .returned _ => false
  | _ => true

end GlobalMailSystem.PlayerMail
