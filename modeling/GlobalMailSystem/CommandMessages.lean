import GlobalMailSystem.DecimalKey

namespace GlobalMailSystem

namespace Rpc.Wire

structure Any where
  typeURL : String
  value : List UInt8
  deriving DecidableEq

@[ext]
structure CommandRequest where
  commandID : Int
  uid : Int
  roleID : Int
  serverID : Int
  seq : Int
  payload : Option Any
  deriving DecidableEq

structure CommandResponse where
  commandID : Int
  seq : Int
  code : Int
  message : String
  payload : Option Any
  deriving DecidableEq

def answer (req : CommandRequest) (code : Int) (message : String) : CommandResponse :=
  ⟨req.commandID, req.seq, code, message, none⟩

def errCommandIdempotencyConflict : String := "command idempotency key reused with different payload"

def commandIdempotencyConflictResponse (req : CommandRequest) : CommandResponse :=
  answer req 409 errCommandIdempotencyConflict

def commandQueueFullResponse (req : CommandRequest) : CommandResponse :=
  answer req 429 "command queue full"

def commandTimeoutResponse (req : CommandRequest) : CommandResponse :=
  answer req 504 "command request timeout"

def commandIdempotencyKey (req : CommandRequest) : String :=
  DecimalKey.colonJoin req.uid req.commandID req.seq

theorem commandIdempotencyKey_inj {a b : CommandRequest}
    (h : commandIdempotencyKey a = commandIdempotencyKey b) :
    a.uid = b.uid ∧ a.commandID = b.commandID ∧ a.seq = b.seq :=
  DecimalKey.colonJoin_inj h

def commandRoleID (req : CommandRequest) : Int := if req.roleID ≠ 0 then req.roleID else req.uid

end Rpc.Wire

end GlobalMailSystem
