import GlobalMailSystem.MailTypes

namespace GlobalMailSystem

open RawJson

structure CompiledCondition where
  type : String
  operator : String
  value : RawMessage

def compileConditions (conditions : List Condition) : List CompiledCondition :=
  conditions.map fun condition => ⟨condition.type, condition.operator, condition.value⟩

def compareInt64 (actual expected : Int) (operator : String) : Bool :=
  if operator = "" ∨ operator = "eq" then actual = expected
  else if operator = "ne" then actual ≠ expected
  else if operator = "gt" then actual > expected
  else if operator = "gte" then actual ≥ expected
  else if operator = "lt" then actual < expected
  else if operator = "lte" then actual ≤ expected
  else false

def matchInt (condition : CompiledCondition) (actual : Int) : Bool :=
  match unmarshalInt condition.value with
  | some expected => compareInt64 actual expected condition.operator
  | none =>
    match unmarshalInts condition.value with
    | some list => actual ∈ list
    | none => false

def matchInt64 (condition : CompiledCondition) (actual : Int) : Bool :=
  match unmarshalInt condition.value with
  | some expected => compareInt64 actual expected condition.operator
  | none =>
    match unmarshalString condition.value with
    | some encoded =>
      match parseInt encoded with
      | some parsed => compareInt64 actual parsed condition.operator
      | none => false
    | none => false

def matchString (condition : CompiledCondition) (actual : String) : Bool :=
  match unmarshalString condition.value with
  | some expected => actual = expected
  | none =>
    match unmarshalStrings condition.value with
    | some list => actual ∈ list
    | none => false

def conditionMatches (profile : UserProfile) (condition : CompiledCondition) : Bool :=
  if condition.type = "server" ∨ condition.type = "server_id" then
    matchInt condition profile.serverID
  else if condition.type = "vip" ∨ condition.type = "vip_level" then
    matchInt condition profile.vipLevel
  else if condition.type = "recharge" ∨ condition.type = "total_recharge" then
    matchInt64 condition profile.totalRecharge
  else if condition.type = "corps_level" then matchInt condition profile.corpsLevel
  else if condition.type = "country" then matchString condition profile.country
  else true

def conditionsMatch (conditions : List CompiledCondition) (profile : UserProfile) : Bool :=
  conditions.all (conditionMatches profile)

def conditionServerIDs (condition : Condition) : List Int :=
  if condition.type ≠ "server" ∧ condition.type ≠ "server_id" then []
  else
    match unmarshalInts condition.value with
    | some ids => ids
    | none =>
      match unmarshalInt condition.value with
      | some id => [id]
      | none => []

def serverIDsFromConditions (conditions : List Condition) : List Int :=
  conditions.flatMap conditionServerIDs

end GlobalMailSystem
