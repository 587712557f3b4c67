import GlobalMailSystem.CommandMessages
import GlobalMailSystem.UserState

namespace GlobalMailSystem

namespace RedisKeys

def entryKey (keyPrefix name argument : String) : String := keyPrefix ++ name ++ ":" ++ argument

variable (keyPrefix : String)

def key (name : String) : String := keyPrefix ++ name

def globalMailKey (mailID : Int) : String := entryKey keyPrefix "GlobalMail" (toString mailID)

def globalMailByServerKey (serverID : Int) : String := entryKey keyPrefix "GlobalMailByServer" (toString serverID)

def userProfileKey (roleID : Int) : String := entryKey keyPrefix "MailUserProfile" (toString roleID)

def globalMailRebuildLockKey (version : Int) : String :=
  entryKey keyPrefix "GlobalMailRebuildLock" (toString version)

def commandIdempotencyKey (key : String) : String := entryKey keyPrefix "CommandIdempotency" key

def loginTokenKey (token : String) : String := entryKey keyPrefix "DBLoginToken" token

def gateConnKey (uid : Int) : String := entryKey keyPrefix "DBGateConn" (toString uid)

def srvRouterKey (uid : Int) : String := entryKey keyPrefix "DBSrvRouter" (toString uid)

end RedisKeys

inductive RedisKey
  | globalMailVersion
  | globalMailActiveIndex
  | globalMail (mailID : Int)
  | globalMailByServer (serverID : Int)
  | userProfile (roleID : Int)
  | globalMailRebuildLock (version : Int)
  | commandIdempotency (key : String)
  | loginToken (token : String)
  | gateConn (uid : Int)
  | srvRouter (uid : Int)

namespace RedisKey

open RedisKeys

def render (keyPrefix : String) : RedisKey → String
  | globalMailVersion => RedisKeys.key keyPrefix "GlobalMailVersion"
  | globalMailActiveIndex => RedisKeys.key keyPrefix "GlobalMailActiveIndex"
  | globalMail mailID => globalMailKey keyPrefix mailID
  | globalMailByServer serverID => globalMailByServerKey keyPrefix serverID
  | userProfile roleID => userProfileKey keyPrefix roleID
  | globalMailRebuildLock version => globalMailRebuildLockKey keyPrefix version
  | commandIdempotency key => RedisKeys.commandIdempotencyKey keyPrefix key
  | loginToken token => loginTokenKey keyPrefix token
  | gateConn uid => gateConnKey keyPrefix uid
  | srvRouter uid => srvRouterKey keyPrefix uid

def name : RedisKey → String
  | globalMailVersion => "GlobalMailVersion"
  | globalMailActiveIndex => "GlobalMailActiveIndex"
  | globalMail _ => "GlobalMail"
  | globalMailByServer _ => "GlobalMailByServer"
  | userProfile _ => "MailUserProfile"
  | globalMailRebuildLock _ => "GlobalMailRebuildLock"
  | commandIdempotency _ => "CommandIdempotency"
  | loginToken _ => "DBLoginToken"
  | gateConn _ => "DBGateConn"
  | srvRouter _ => "DBSrvRouter"

def argument : RedisKey → Option String
  | globalMailVersion | globalMailActiveIndex => none
  | globalMail n | globalMailByServer n | userProfile n | globalMailRebuildLock n | gateConn n | srvRouter n =>
    some (toString n)
  | commandIdempotency text | loginToken text => some text

theorem entryKey_toList (keyPrefix name argument : String) :
    (entryKey keyPrefix name argument).toList =
      keyPrefix.toList ++ DecimalKey.labelled name.toList (some argument.toList) := by
  simp only [entryKey, DecimalKey.labelled, String.toList_append, List.append_assoc]
  rfl

theorem render_toList (keyPrefix : String) (k : RedisKey) :
    (k.render keyPrefix).toList =
      keyPrefix.toList ++ DecimalKey.labelled k.name.toList (k.argument.map String.toList) := by
  cases k with
  | globalMailVersion | globalMailActiveIndex => exact String.toList_append
  | globalMail | globalMailByServer | userProfile | globalMailRebuildLock | gateConn | srvRouter =>
    exact entryKey_toList _ _ _
  | commandIdempotency | loginToken => exact entryKey_toList _ _ _

theorem colon_not_mem_name (k : RedisKey) : ':' ∉ k.name.toList := by
  cases k <;> (dsimp only [name]; decide)

theorem eq_of_name_argument {a b : RedisKey} (hname : a.name = b.name) (hargument : a.argument = b.argument) :
    a = b := by
  have number {n m : Int} (h : some (toString n) = some (toString m)) : n = m :=
    DecimalKey.toString_injective (congrArg String.toList (Option.some.inj h))
  cases a <;> cases b <;> first
    | rfl
    | exact absurd hname (by dsimp only [name]; decide)
    | exact congrArg _ (number hargument)
    | exact congrArg _ (Option.some.inj hargument)

theorem render_injective (keyPrefix : String) : Function.Injective (render keyPrefix) := by
  intro a b h
  have hlist := congrArg String.toList h
  rw [render_toList, render_toList] at hlist
  obtain ⟨hname, hargument⟩ := DecimalKey.labelled_inj (colon_not_mem_name a) (colon_not_mem_name b)
    (List.append_cancel_left hlist)
  apply eq_of_name_argument (String.toList_inj.mp hname)
  exact Option.map_injective (fun _ _ => String.toList_inj.mp) hargument

end RedisKey

theorem composite_keys_injective :
    (∀ roleID mailID lootIndex roleID' mailID' lootIndex' : Int,
        PlayerMail.grantKey roleID mailID lootIndex = PlayerMail.grantKey roleID' mailID' lootIndex' ↔
          roleID = roleID' ∧ mailID = mailID' ∧ lootIndex = lootIndex') ∧
      (∀ a b : Rpc.Wire.CommandRequest, Rpc.Wire.commandIdempotencyKey a = Rpc.Wire.commandIdempotencyKey b ↔
        a.uid = b.uid ∧ a.commandID = b.commandID ∧ a.seq = b.seq) ∧
      ∀ keyPrefix, Function.Injective (RedisKey.render keyPrefix) := by
  refine ⟨fun roleID mailID lootIndex roleID' mailID' lootIndex' => ⟨DecimalKey.colonJoin_inj, ?_⟩,
    fun a b => ⟨Rpc.Wire.commandIdempotencyKey_inj, ?_⟩, RedisKey.render_injective⟩
  · rintro ⟨rfl, rfl, rfl⟩
    rfl
  · rintro ⟨huid, hcommand, hseq⟩
    rw [Rpc.Wire.commandIdempotencyKey, huid, hcommand, hseq]
    rfl

end GlobalMailSystem
