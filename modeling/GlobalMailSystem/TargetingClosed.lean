import GlobalMailSystem.ConditionMeaning
import GlobalMailSystem.PlayerService

namespace GlobalMailSystem

def Condition.Evaluable (condition : Condition) : Prop :=
  ∃ field expected, fieldOfType condition.type = some field ∧
    Expected.decode condition.value field = some expected ∧ expected.interprets condition.operator = true

def Expected.barren : Expected → Bool
  | number _ => true
  | numbers list => list.isEmpty
  | text _ => false
  | texts list => list.isEmpty

/-- The type is a known one, and the value decodes into a single number or an empty list if at all. -/
def Condition.Closed (condition : Condition) : Prop :=
  ∃ field, fieldOfType condition.type = some field ∧
    ∀ expected, Expected.decode condition.value field = some expected → expected.barren = true

section Unevaluable

variable {field : ProfileField} {value : RawMessage} {expected : Expected} {operator : String}

theorem holds_barren (hdecoded : Expected.decode value field = some expected)
    (hbarren : expected.barren = true) (hunknown : expected.interprets operator = false) (profile : UserProfile) :
    expected.holds operator (field.value profile) = false := by
  cases expected with
  | number n =>
    obtain ⟨actual, hactual⟩ := decode_number hdecoded profile
    rw [hactual]
    exact compareInt64_of_unknown hunknown
  | numbers list =>
    obtain rfl : list = [] := by simpa [Expected.barren] using hbarren
    cases field.value profile <;> simp [Expected.holds]
  | text s => cases hbarren
  | texts list =>
    obtain rfl : list = [] := by simpa [Expected.barren] using hbarren
    cases field.value profile <;> simp [Expected.holds]

theorem exists_number (hfield : field ≠ .country) (n : Int) : ∃ profile, field.value profile = .number n := by
  cases field with
  | serverID => exact ⟨{ (default : UserProfile) with serverID := n }, rfl⟩
  | vipLevel => exact ⟨{ (default : UserProfile) with vipLevel := n }, rfl⟩
  | totalRecharge => exact ⟨{ (default : UserProfile) with totalRecharge := n }, rfl⟩
  | corpsLevel => exact ⟨{ (default : UserProfile) with corpsLevel := n }, rfl⟩
  | country => exact absurd rfl hfield

theorem exists_text (s : String) : ∃ profile, ProfileField.country.value profile = .text s :=
  ⟨{ (default : UserProfile) with country := s }, rfl⟩

theorem decode_country (hdecoded : Expected.decode value .country = some expected) :
    (∃ s, expected = .text s) ∨ ∃ list, expected = .texts list := by
  simp only [Expected.decode, Option.or_eq_some_iff, Option.map_eq_some_iff] at hdecoded
  rcases hdecoded with ⟨s, -, rfl⟩ | ⟨-, list, -, rfl⟩
  · exact Or.inl ⟨s, rfl⟩
  · exact Or.inr ⟨list, rfl⟩

theorem decode_numeric (hfield : field ≠ .country) (hdecoded : Expected.decode value field = some expected) :
    (∃ n, expected = .number n) ∨ ∃ list, expected = .numbers list := by
  cases field with
  | country => exact absurd rfl hfield
  | totalRecharge =>
    simp only [Expected.decode, Option.or_eq_some_iff, Option.map_eq_some_iff] at hdecoded
    rcases hdecoded with ⟨n, -, rfl⟩ | ⟨-, n, -, rfl⟩ <;> exact Or.inl ⟨n, rfl⟩
  | serverID | vipLevel | corpsLevel =>
    simp only [Expected.decode, Option.or_eq_some_iff, Option.map_eq_some_iff] at hdecoded
    rcases hdecoded with ⟨n, -, rfl⟩ | ⟨-, list, -, rfl⟩
    · exact Or.inl ⟨n, rfl⟩
    · exact Or.inr ⟨list, rfl⟩

theorem holds_of_not_barren (hdecoded : Expected.decode value field = some expected)
    (hbarren : expected.barren = false) (operator : String) :
    ∃ profile, expected.holds operator (field.value profile) = true := by
  by_cases hfield : field = .country
  · subst hfield
    rcases decode_country hdecoded with ⟨s, rfl⟩ | ⟨list, rfl⟩
    · obtain ⟨profile, hprofile⟩ := exists_text s
      exact ⟨profile, by simp [hprofile, Expected.holds]⟩
    · obtain ⟨s, rest, rfl⟩ := List.exists_cons_of_ne_nil (l := list) (by rintro rfl; cases hbarren)
      obtain ⟨profile, hprofile⟩ := exists_text s
      exact ⟨profile, by simp [hprofile, Expected.holds]⟩
  · rcases decode_numeric hfield hdecoded with ⟨n, rfl⟩ | ⟨list, rfl⟩
    · cases hbarren
    · obtain ⟨n, rest, rfl⟩ := List.exists_cons_of_ne_nil (l := list) (by rintro rfl; cases hbarren)
      obtain ⟨profile, hprofile⟩ := exists_number hfield n
      exact ⟨profile, by simp [hprofile, Expected.holds]⟩

theorem conditionMatches_closed {condition : Condition} (h : ¬ condition.Evaluable) (hclosed : condition.Closed)
    (profile : UserProfile) : conditionMatches profile condition.compiled = false := by
  obtain ⟨field, hfield, hdecodes⟩ := hclosed
  rw [conditionMatches_eq]
  simp only [Condition.compiled, hfield]
  cases hvalue : Expected.decode condition.value field with
  | none => rfl
  | some expected =>
    have hunknown : expected.interprets condition.operator = false := by
      by_contra hknown
      exact h ⟨field, expected, hfield, hvalue, by simpa using hknown⟩
    exact holds_barren hvalue (hdecodes expected hvalue) hunknown profile

theorem closed_of_never {condition : Condition}
    (hnever : ∀ profile, conditionMatches profile condition.compiled = false) : condition.Closed := by
  cases hfield : fieldOfType condition.type with
  | none =>
    -- a type nothing evaluates is skipped
    have hnone := hnever default
    rw [conditionMatches_eq] at hnone
    simp only [Condition.compiled, hfield] at hnone
    cases hnone
  | some field =>
    refine ⟨field, hfield, fun expected hvalue => ?_⟩
    by_contra hbarren
    obtain ⟨profile, hholds⟩ := holds_of_not_barren hvalue (by simpa using hbarren) condition.operator
    have hfalse := hnever profile
    rw [Condition.compiled, conditionMatches_decoded hfield hvalue, hholds] at hfalse
    cases hfalse

theorem conditionsMatch_closed {conditions : List Condition} {condition : Condition}
    (hmem : condition ∈ conditions) (h : ¬ condition.Evaluable) (hclosed : condition.Closed)
    (profile : UserProfile) : conditionsMatch (compileConditions conditions) profile = false := by
  rw [conditionsMatch, List.all_eq_false]
  refine ⟨condition.compiled, List.mem_map.mpr ⟨condition, hmem, rfl⟩, ?_⟩
  rw [conditionMatches_closed h hclosed profile]
  exact Bool.false_ne_true

end Unevaluable

namespace PlayerMail

theorem mem_visibleMails_built {snapshot : CacheSnapshot} {version : Int} {mails : List GlobalMail} {builtAt : Time}
    (hbuilt : snapshot = .build version mails builtAt) {profile : UserProfile} {now : Time} {mail : GlobalMail}
    (h : mail ∈ snapshot.visibleMails profile now) :
    snapshot.mailsByID mail.id = some mail ∧ mail.Eligible profile now := by
  obtain ⟨id, -, hvisible⟩ := List.mem_filterMap.mp h
  rw [hbuilt] at hvisible ⊢
  obtain ⟨hfound, heligible⟩ := CacheSnapshot.visible?_build.mp hvisible
  rw [(CacheSnapshot.build_mailsByID_mem hfound).2]
  exact ⟨hfound, heligible⟩

theorem claim_invisible {s : PlayerServer} {r : Readings} {profile : UserProfile} {mailID : Int}
    (h : visibleMail (s.refreshIfStale r.refreshedAt r.token).snapshot profile r.checkedAt mailID = none)
    (lootIndexes : List Int) :
    claimGlobalMail s r profile mailID lootIndexes =
      (s.refreshIfStale r.refreshedAt r.token, .error errMailNotVisible) := by
  simp only [claimGlobalMail, updateGlobalMailState, h]

end PlayerMail

open PlayerMail

theorem claim_unmatched {mail : GlobalMail} {profile : UserProfile}
    (hfalse : conditionsMatch (compileConditions mail.conditions) profile = false) (s : PlayerServer) (r : Readings)
    (hfound : (s.refreshIfStale r.refreshedAt r.token).snapshot.mailsByID mail.id = some mail) :
    mail ∉ (s.refreshIfStale r.refreshedAt r.token).snapshot.visibleMails profile r.checkedAt ∧
    ∀ lootIndexes, claimGlobalMail s r profile mail.id lootIndexes =
      (s.refreshIfStale r.refreshedAt r.token, .error errMailNotVisible) := by
  obtain ⟨version, mails, builtAt, hbuilt⟩ := (s.refreshIfStale r.refreshedAt r.token).built
  have hineligible : ¬ mail.Eligible profile r.checkedAt := by
    rintro ⟨-, -, htrue⟩
    rw [hfalse] at htrue
    cases htrue
  refine ⟨fun hvisible => hineligible (mem_visibleMails_built hbuilt hvisible).2, ?_⟩
  apply claim_invisible
  apply List.find?_eq_none.mpr
  intro other hother hid
  obtain ⟨hotherFound, heligible⟩ := mem_visibleMails_built hbuilt hother
  have hid : other.id = mail.id := by simpa using hid
  rw [hid, hfound] at hotherFound
  exact hineligible (Option.some.inj hotherFound ▸ heligible)

theorem targeting_fails_closed (condition : Condition) (h : ¬ condition.Evaluable) :
    (∀ (conditions : List Condition) (profile : UserProfile), condition ∈ conditions →
      conditionsMatch (compileConditions conditions) profile = false ∧
      ∀ (s : PlayerServer) (r : Readings) (mail : GlobalMail), mail.conditions = conditions →
        (s.refreshIfStale r.refreshedAt r.token).snapshot.mailsByID mail.id = some mail →
        mail ∉ (s.refreshIfStale r.refreshedAt r.token).snapshot.visibleMails profile r.checkedAt ∧
        ∀ lootIndexes, claimGlobalMail s r profile mail.id lootIndexes =
          (s.refreshIfStale r.refreshedAt r.token, .error errMailNotVisible)) ↔
    condition.Closed := by
  constructor
  · intro hall
    apply closed_of_never
    intro profile
    have hfalse := (hall [condition] profile List.mem_cons_self).1
    simpa [conditionsMatch, compileConditions, Condition.compiled] using hfalse
  · intro hclosed conditions profile hmem
    have hfalse := conditionsMatch_closed hmem h hclosed profile
    refine ⟨hfalse, ?_⟩
    rintro s r mail rfl hfound
    exact claim_unmatched hfalse s r hfound

def rangedVip : Condition := ⟨1, 20, "vip", "range", .value (.int 5)⟩

theorem rangedVip_decodes {field : ProfileField} (h : fieldOfType rangedVip.type = some field) :
    Expected.decode rangedVip.value field = some (.number 5) := by
  have hvip : fieldOfType rangedVip.type = some .vipLevel := by decide
  rw [← Option.some.inj (hvip.symm.trans h)]
  rfl

theorem rangedVip_fails : conditionsMatch (compileConditions [rangedVip]) default = false := by
  refine ((targeting_fails_closed rangedVip ?_).mpr ?_ [rangedVip] default List.mem_cons_self).1
  · rintro ⟨field, expected, hfield, hvalue, hinterprets⟩
    rw [rangedVip_decodes hfield, Option.some.injEq] at hvalue
    rw [← hvalue] at hinterprets
    exact absurd hinterprets (by decide)
  · refine ⟨.vipLevel, by decide, fun expected hvalue => ?_⟩
    rw [rangedVip_decodes (by decide), Option.some.injEq] at hvalue
    rw [← hvalue]
    rfl

def oldPlayers : Condition := ⟨1, 20, "register_time", "lt", .value (.int 1700000000)⟩

theorem register_time_matches_everyone :
    ¬ oldPlayers.Evaluable ∧ ∀ profile, conditionsMatch (compileConditions [oldPlayers]) profile = true := by
  constructor
  · rintro ⟨field, expected, hfield, -⟩
    have hnone : fieldOfType oldPlayers.type = none := by decide
    rw [hnone] at hfield
    cases hfield
  · intro profile
    rfl

end GlobalMailSystem
