import GlobalMailSystem.Snapshot

namespace GlobalMailSystem

open RawJson

inductive ProfileField
  | serverID | vipLevel | totalRecharge | corpsLevel | country
  deriving DecidableEq

inductive FieldValue
  | number (n : Int)
  | text (s : String)

def ProfileField.value (profile : UserProfile) : ProfileField → FieldValue
  | serverID => .number profile.serverID
  | vipLevel => .number profile.vipLevel
  | totalRecharge => .number profile.totalRecharge
  | corpsLevel => .number profile.corpsLevel
  | country => .text profile.country

def fieldOfType (type : String) : Option ProfileField :=
  if type = "server" ∨ type = "server_id" then some .serverID
  else if type = "vip" ∨ type = "vip_level" then some .vipLevel
  else if type = "recharge" ∨ type = "total_recharge" then some .totalRecharge
  else if type = "corps_level" then some .corpsLevel
  else if type = "country" then some .country
  else none

inductive Expected
  | number (n : Int)
  | numbers (list : List Int)
  | text (s : String)
  | texts (list : List String)

namespace Expected

/-- The first decoding that succeeds, in the order in which the matcher of the field tries them. -/
def decode (value : RawMessage) : ProfileField → Option Expected
  | .totalRecharge =>
    ((unmarshalInt value).map number).or (((unmarshalString value).bind parseInt).map number)
  | .country => ((unmarshalString value).map text).or ((unmarshalStrings value).map texts)
  | _ => ((unmarshalInt value).map number).or ((unmarshalInts value).map numbers)

def holds (operator : String) : Expected → FieldValue → Bool
  | number n, .number actual => compareInt64 actual n operator
  | numbers list, .number actual => actual ∈ list
  | text s, .text actual => actual = s
  | texts list, .text actual => actual ∈ list
  | _, _ => false

def evaluate (operator : String) (actual : FieldValue) : Option Expected → Bool
  | none => false
  | some expected => expected.holds operator actual

end Expected

def Expected.interprets (operator : String) : Expected → Bool
  | number _ => operator ∈ ["", "eq", "ne", "gt", "gte", "lt", "lte"]
  | numbers _ | texts _ => operator ∈ ["", "eq", "in"]
  | text _ => operator ∈ ["", "eq"]

theorem matchInt_eq (condition : CompiledCondition) (actual : Int) :
    matchInt condition actual = Expected.evaluate condition.operator (.number actual)
      (((unmarshalInt condition.value).map .number).or ((unmarshalInts condition.value).map .numbers)) := by
  unfold matchInt
  cases unmarshalInt condition.value with
  | some n => rfl
  | none => cases unmarshalInts condition.value <;> rfl

theorem matchInt64_eq (condition : CompiledCondition) (actual : Int) :
    matchInt64 condition actual = Expected.evaluate condition.operator (.number actual)
      (Expected.decode condition.value .totalRecharge) := by
  unfold matchInt64 Expected.decode
  cases unmarshalInt condition.value with
  | some n => rfl
  | none =>
    cases unmarshalString condition.value with
    | none => rfl
    | some encoded => cases hparsed : parseInt encoded <;> simp [hparsed, Expected.evaluate, Expected.holds]

theorem matchString_eq (condition : CompiledCondition) (actual : String) :
    matchString condition actual = Expected.evaluate condition.operator (.text actual)
      (Expected.decode condition.value .country) := by
  unfold matchString Expected.decode
  cases unmarshalString condition.value with
  | some s => rfl
  | none => cases unmarshalStrings condition.value <;> rfl

theorem conditionMatches_eq (profile : UserProfile) (condition : CompiledCondition) :
    conditionMatches profile condition =
      match fieldOfType condition.type with
      | none => true
      | some field =>
        Expected.evaluate condition.operator (field.value profile) (Expected.decode condition.value field) := by
  unfold conditionMatches fieldOfType
  split_ifs
  · exact matchInt_eq condition _
  · exact matchInt_eq condition _
  · exact matchInt64_eq condition _
  · exact matchInt_eq condition _
  · exact matchString_eq condition _
  · rfl

theorem conditionMatches_decoded {type operator : String} {value : RawMessage} {field : ProfileField}
    {expected : Expected} (hfield : fieldOfType type = some field)
    (hvalue : Expected.decode value field = some expected) (profile : UserProfile) :
    conditionMatches profile ⟨type, operator, value⟩ = expected.holds operator (field.value profile) := by
  rw [conditionMatches_eq]
  simp only [hfield, hvalue, Expected.evaluate]

section Operators

variable {field : ProfileField} {value : RawMessage} {expected : Expected}

theorem decode_number {n : Int} (h : Expected.decode value field = some (.number n)) (profile : UserProfile) :
    ∃ actual, field.value profile = .number actual := by
  cases field with
  | country =>
    simp only [Expected.decode, Option.or_eq_some_iff, Option.map_eq_some_iff] at h
    rcases h with ⟨s, -, hs⟩ | ⟨-, list, -, hlist⟩
    · cases hs
    · cases hlist
  | serverID | vipLevel | totalRecharge | corpsLevel => exact ⟨_, rfl⟩

theorem holds_of_not_number (h : ∀ n, expected ≠ .number n) (a b : String) (actual : FieldValue) :
    expected.holds a actual = expected.holds b actual := by
  cases expected with
  | number n => exact absurd rfl (h n)
  | numbers list => cases actual <;> rfl
  | text s => cases actual <;> rfl
  | texts list => cases actual <;> rfl

theorem compareInt64_ne (actual n : Int) : compareInt64 actual n "ne" = !compareInt64 actual n "eq" := by
  simp [compareInt64]

theorem compareInt64_gt (actual n : Int) : compareInt64 actual n "gt" = !compareInt64 actual n "lte" := by
  simp [compareInt64, ← decide_not]

theorem compareInt64_lt (actual n : Int) : compareInt64 actual n "lt" = !compareInt64 actual n "gte" := by
  simp [compareInt64, ← decide_not]

end Operators

theorem operators_negate (type : String) (field : ProfileField) (value : RawMessage) (expected : Expected)
    (hfield : fieldOfType type = some field) (hvalue : Expected.decode value field = some expected)
    (profile : UserProfile) :
    let matched (operator : String) : Prop := conditionMatches profile ⟨type, operator, value⟩ = true
    ((matched "ne" ↔ ¬ matched "eq") ↔ ∃ n, expected = .number n) ∧
    ∀ n, expected = .number n → (matched "gt" ↔ ¬ matched "lte") ∧ (matched "lt" ↔ ¬ matched "gte") := by
  simp only [conditionMatches_decoded hfield hvalue]
  by_cases hnumber : ∃ n, expected = .number n
  · obtain ⟨n, rfl⟩ := hnumber
    obtain ⟨actual, hactual⟩ := decode_number hvalue profile
    simp [hactual, Expected.holds, compareInt64_ne, compareInt64_gt, compareInt64_lt]
  · have hsame := holds_of_not_number (fun n he => hnumber ⟨n, he⟩) "ne" "eq" (field.value profile)
    refine ⟨iff_of_false ?_ hnumber, fun n he => absurd ⟨n, he⟩ hnumber⟩
    rw [hsame]
    exact iff_not_self

theorem vip_operators_negate :
    (conditionMatches default ⟨"vip", "ne", .value (.int 5)⟩ = true ↔
      ¬ conditionMatches default ⟨"vip", "eq", .value (.int 5)⟩ = true) :=
  (operators_negate "vip" .vipLevel (.value (.int 5)) (.number 5) (by decide) rfl default).1.mpr ⟨5, rfl⟩

def serverOneChina : UserProfile := { (default : UserProfile) with serverID := 1, country := "CN" }

theorem ne_matches_as_eq :
    (conditionMatches serverOneChina ⟨"server", "ne", .value (.arr [.int 1, .int 2])⟩ = true ∧
      conditionMatches serverOneChina ⟨"server", "eq", .value (.arr [.int 1, .int 2])⟩ = true) ∧
    conditionMatches serverOneChina ⟨"country", "ne", .value (.str "CN")⟩ = true ∧
      conditionMatches serverOneChina ⟨"country", "eq", .value (.str "CN")⟩ = true := by
  decide +kernel

def Condition.compiled (condition : Condition) : CompiledCondition :=
  ⟨condition.type, condition.operator, condition.value⟩

def Condition.isServer (condition : Condition) : Bool := condition.type = "server" ∨ condition.type = "server_id"

theorem unmarshalInt_eq_some {raw : RawMessage} {n : Int} :
    unmarshalInt raw = some n ↔
      (raw = .value .null ∧ n = 0) ∨ (raw = .value (.int n) ∧ inInt64 n = true) := by
  cases raw with
  | empty | malformed text => simp [unmarshalInt, unmarshal]
  | value v =>
    cases v with
    | int m =>
      simp only [unmarshalInt, unmarshal, decodeInt, Option.ite_none_right_eq_some, Option.some.injEq,
        RawMessage.value.injEq, Json.int.injEq, reduceCtorEq, false_and, false_or]
      constructor
      · rintro ⟨hm, rfl⟩
        exact ⟨rfl, hm⟩
      · rintro ⟨rfl, hm⟩
        exact ⟨hm, rfl⟩
    | null =>
      simp only [unmarshalInt, unmarshal, decodeInt, Option.some.injEq, RawMessage.value.injEq, reduceCtorEq,
        true_and, false_and, or_false]
      exact eq_comm
    | bool b | frac literal | str t | arr items | obj fields => simp [unmarshalInt, unmarshal, decodeInt]

theorem compareInt64_of_unknown {actual n : Int} {operator : String}
    (h : (Expected.number n).interprets operator = false) : compareInt64 actual n operator = false := by
  simp only [Expected.interprets, List.mem_cons, List.not_mem_nil, decide_eq_false_iff_not, not_or] at h
  simp [compareInt64, h]

theorem compareInt64_zero_never {operator : String} :
    (∀ s, inInt64 s = true → compareInt64 s 0 operator = false) ↔
      (Expected.number 0).interprets operator = false := by
  refine ⟨fun hnever => ?_, fun hunknown s _ => compareInt64_of_unknown hunknown⟩
  by_contra hknown
  have hzero := hnever 0 (by decide)
  have hone := hnever 1 (by decide)
  have hminus := hnever (-1) (by decide)
  simp only [Expected.interprets, Bool.not_eq_false, decide_eq_true_eq, List.mem_cons, List.not_mem_nil,
    or_false] at hknown
  rcases hknown with rfl | rfl | rfl | rfl | rfl | rfl | rfl <;> simp [compareInt64] at hzero hone hminus

def Condition.equates (operator : String) (n : Int) : Bool :=
  operator = "" || operator = "eq" || (operator = "gte" && n = 9223372036854775807) ||
    (operator = "lte" && n = -9223372036854775808)

theorem compareInt64_equates {operator : String} {n : Int} (hn : inInt64 n = true) :
    (∀ s, inInt64 s = true → (s = n ↔ compareInt64 s n operator = true)) ↔
      Condition.equates operator n = true := by
  simp only [inInt64, Bool.and_eq_true, decide_eq_true_eq] at hn ⊢
  simp only [Condition.equates, Bool.or_eq_true, Bool.and_eq_true, decide_eq_true_eq]
  constructor
  · intro hsame
    have hself := (hsame n hn).mp rfl
    have hknown : (Expected.number n).interprets operator = true := by
      by_contra hunknown
      rw [compareInt64_of_unknown (by simpa using hunknown)] at hself
      cases hself
    simp only [Expected.interprets, decide_eq_true_eq, List.mem_cons, List.not_mem_nil, or_false] at hknown
    rcases hknown with rfl | rfl | rfl | rfl | rfl | rfl | rfl
    · simp
    · simp
    · simp [compareInt64] at hself
    · simp [compareInt64] at hself
    · -- the next integer satisfies the operator, unless there is none
      by_contra hne
      have hlt : n ≠ 9223372036854775807 := by simpa using hne
      have hnext := (hsame (n + 1) (by omega)).mpr (by simp [compareInt64])
      omega
    · simp [compareInt64] at hself
    · by_contra hne
      have hlt : n ≠ -9223372036854775808 := by simpa using hne
      have hnext := (hsame (n - 1) (by omega)).mpr (by simp [compareInt64])
      omega
  · rintro (((rfl | rfl) | ⟨rfl, rfl⟩) | ⟨rfl, rfl⟩) s hs
    · simp [compareInt64]
    · simp [compareInt64]
    · simp only [compareInt64, String.reduceEq, or_self, if_false, if_true, decide_eq_true_eq]
      omega
    · simp only [compareInt64, String.reduceEq, or_self, if_false, if_true, decide_eq_true_eq]
      omega

/-- A single integer is compared for equality; `null`, which the index takes for no servers and `matchInt` for
server 0, with an operator that never holds. -/
def Condition.indexable (condition : Condition) : Bool :=
  match unmarshalInt condition.value, unmarshalInts condition.value with
  | none, _ => true
  | some n, some _ => !(Expected.number n).interprets condition.operator
  | some n, none => equates condition.operator n

theorem indexable_iff {condition : Condition} (hserver : condition.isServer = true) :
    (∀ s, inInt64 s = true → (s ∈ conditionServerIDs condition ↔ matchInt condition.compiled s = true)) ↔
      condition.indexable = true := by
  have htype : ¬ (condition.type ≠ "server" ∧ condition.type ≠ "server_id") := by
    rintro ⟨hserver', hserverID⟩
    simp [Condition.isServer, hserver', hserverID] at hserver
  unfold conditionServerIDs matchInt Condition.indexable
  rw [if_neg htype]
  simp only [Condition.compiled]
  cases hint : unmarshalInt condition.value with
  | none => cases unmarshalInts condition.value <;> simp
  | some n =>
    rcases unmarshalInt_eq_some.mp hint with ⟨hnull, rfl⟩ | ⟨hvalue, hn⟩
    · have hints : unmarshalInts condition.value = some [] := by rw [hnull]; rfl
      simp only [hints, List.not_mem_nil, false_iff, Bool.not_eq_true, Bool.not_eq_true']
      exact compareInt64_zero_never
    · have hints : unmarshalInts condition.value = none := by rw [hvalue]; rfl
      simp only [hints, List.mem_singleton]
      exact compareInt64_equates hn

theorem serverIDs_singleton (condition : Condition) :
    serverIDsFromConditions [condition] = conditionServerIDs condition := by
  simp [serverIDsFromConditions]

theorem server_index_matches (condition : Condition) (hserver : condition.isServer = true) :
    ((∀ serverID, inInt64 serverID = true →
        (serverID ∈ serverIDsFromConditions [condition] ↔ matchInt condition.compiled serverID = true)) ↔
      condition.indexable = true) ∧
    (condition.indexable = true → ∀ (mails : List GlobalMail) (mail : GlobalMail) (version : Int)
      (builtAt : Time) (serverID : Int), mail ∈ mails → condition ∈ mail.conditions → inInt64 serverID = true →
      (∀ other ∈ mail.conditions, other.isServer = true → matchInt other.compiled serverID = true) →
      mail.id ∈ (CacheSnapshot.build version mails builtAt).mailIDsByServer serverID) := by
  rw [serverIDs_singleton]
  refine ⟨indexable_iff hserver, ?_⟩
  intro hindexable mails mail version builtAt serverID hmail hcondition hid hall
  rw [CacheSnapshot.mem_mailIDsByServer]
  refine ⟨mail, hmail, rfl, List.mem_flatMap.mpr ⟨condition, hcondition, ?_⟩⟩
  exact ((indexable_iff hserver).mpr hindexable serverID hid).mpr (hall condition hcondition hserver)

theorem server_list_indexed :
    2 ∈ serverIDsFromConditions [⟨1, 1, "server", "in", .value (.arr [.int 1, .int 2])⟩] ∧
      0 ∉ serverIDsFromConditions [⟨1, 1, "server", "in", .value .null⟩] := by
  constructor
  · exact ((server_index_matches ⟨1, 1, "server", "in", .value (.arr [.int 1, .int 2])⟩ (by decide)).1.mpr
      (by decide) 2 (by decide)).mpr (by decide)
  · intro hindexed
    have hmatched := ((server_index_matches ⟨1, 1, "server", "in", .value .null⟩ (by decide)).1.mpr
      (by decide) 0 (by decide)).mp hindexed
    exact absurd hmatched (by decide)

theorem server_index_disagrees :
    (3 ∈ serverIDsFromConditions [⟨1, 1, "server", "ne", .value (.int 3)⟩] ∧
      matchInt ⟨"server", "ne", .value (.int 3)⟩ 3 = false) ∧
    (4 ∉ serverIDsFromConditions [⟨1, 1, "server", "ne", .value (.int 3)⟩] ∧
      matchInt ⟨"server", "ne", .value (.int 3)⟩ 4 = true) ∧
    0 ∉ serverIDsFromConditions [⟨1, 1, "server", "eq", .value .null⟩] ∧
      matchInt ⟨"server", "eq", .value .null⟩ 0 = true := by
  decide +kernel

end GlobalMailSystem
