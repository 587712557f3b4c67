import GlobalMailSystem.Creations

namespace GlobalMailSystem.Relay

open Publisher Transition

def Label.carries (key : String) (p : Nat) : Label → Bool
  | .publishBegin q cmd _ _ _ _ => q = p && cmd.idempotencyKey = key
  | _ => false

def carriesKey (ls : List Label) (key : String) (p : Nat) : Bool := ls.any (Label.carries key p)

def request (cmd : PublishCommand) : PublishPayload :=
  ⟨(defaultAction cmd).mail, (defaultAction cmd).conditions, (defaultAction cmd).action⟩

def CollisionFree (sha256 : PublishPayload → String) (ls : List Label) : Prop :=
  ∀ p q cmd cmd', Began ls p cmd → Began ls q cmd' →
    sha256 (request cmd) = sha256 (request cmd') → request cmd = request cmd'

structure Records (sha256 : PublishPayload → String) (cmd : PublishCommand) (mail : GlobalMail)
    (record : PublishIdempotencyRecord) : Prop where
  key : record.key = cmd.idempotencyKey
  requestHash : record.requestHash = sha256 (request cmd)
  response : record.responseSnapshot = mail

section Calls

variable {sha256 : PublishPayload → String} {config : Nat → Config}

theorem carriesKey_began {ls : List Label} {key : String} {p : Nat} (h : carriesKey ls key p = true) :
    ∃ cmd, Began ls p cmd ∧ cmd.idempotencyKey = key := by
  obtain ⟨l, hl, hcarries⟩ := List.any_eq_true.mp h
  cases l with
  | publishBegin q cmd now newMailID eventID failure =>
    simp only [Label.carries, Bool.and_eq_true, decide_eq_true_eq] at hcarries
    obtain ⟨rfl, hkey⟩ := hcarries
    exact ⟨cmd, ⟨now, newMailID, eventID, failure, hl⟩, hkey⟩
  | publishCreate | publishCrash | fetch | work | crash => cases hcarries

theorem publishRows_record (cmd : PublishCommand) (hkey : cmd.idempotencyKey ≠ "") (now : Time)
    (newMailID eventID : Int) :
    ∃ record, (publishRows sha256 (defaultAction cmd) now newMailID eventID).record = some record ∧
      Records sha256 cmd (publishRows sha256 (defaultAction cmd) now newMailID eventID).mail record := by
  refine ⟨_, if_neg hkey, rfl, rfl, rfl⟩

theorem publisherStart_replays {db : Database} {cmd : PublishCommand} {now : Time}
    {newMailID eventID : Int} {failure : Option String} {mail : GlobalMail}
    (h : publisherStart sha256 db cmd now newMailID eventID failure = .returned (.ok mail)) :
    ∃ record ∈ db.idempotency.rows, Records sha256 cmd mail record := by
  cases failure with
  | some err => cases h
  | none =>
    cases hprepare : prepare sha256 db cmd now newMailID eventID with
    | fail err => simp [publisherStart, hprepare] at h
    | create rows => simp [publisherStart, hprepare] at h
    | replay found =>
      simp only [publisherStart, hprepare] at h
      cases h
      obtain ⟨record, hrecord, hkey, hhash, hresponse⟩ := prepare_replay hprepare
      exact ⟨record, hrecord, hkey, hhash, hresponse⟩

theorem createResult_ok {s : Store} {auto : AutoIncrement} {rows : Rows} {outcome : Outcome} {mail : GlobalMail}
    (h : (createResult s auto rows outcome).2 = .returned (.ok mail)) :
    mail = rows.mail ∧ ∃ db, createGlobalMailWithOutbox s.db auto rows = some db ∧
      (createResult s auto rows outcome).1.db = db := by
  cases outcome with
  | ok =>
    cases hcreate : createGlobalMailWithOutbox s.db auto rows with
    | none => simp [createResult, hcreate] at h
    | some db =>
      simp only [createResult, hcreate] at h ⊢
      cases h
      exact ⟨rfl, db, rfl, by simp [Store.act, hcreate]⟩
  | failed | lost => cases h

theorem mem_act_idempotency {s : Store} {a : Action} {record : PublishIdempotencyRecord}
    (h : record ∈ s.db.idempotency.rows) : record ∈ (s.act a).db.idempotency.rows := by
  cases a with
  | create auto rows =>
    simp only [Store.act]
    split
    · exact h
    · rename_i db hcreate
      change record ∈ db.idempotency.rows
      rw [(create_rows hcreate).idempotency]
      exact List.mem_append_left _ h
  | fetch | write | accept | markPublished | markFailed => exact h

theorem step_idempotency {w w' : World} {l : Label} (h : step sha256 config w l = some w')
    {record : PublishIdempotencyRecord} (hr : record ∈ w.store.db.idempotency.rows) :
    record ∈ w'.store.db.idempotency.rows := by
  rcases step_store h with hs | ⟨a, _, hs⟩
  · rwa [hs]
  · rw [hs]
    exact mem_act_idempotency hr

theorem recorded_run {ls : List Label} {w : World} (h : run (step sha256 config) init ls = some w)
    {p : Nat} {cmd : PublishCommand} {mail : GlobalMail} (hp : Began ls p cmd)
    (hkey : cmd.idempotencyKey ≠ "") (hok : w.publishers p = .returned (.ok mail)) :
    ∃ record ∈ w.store.db.idempotency.rows, Records sha256 cmd mail record := by
  refine run_history (P := fun as u => ∀ p cmd mail, Began as p cmd → cmd.idempotencyKey ≠ "" →
    u.publishers p = .returned (.ok mail) →
      ∃ record ∈ u.store.db.idempotency.rows, Records sha256 cmd mail record) ?_ ?_ h
    p cmd mail hp hkey hok
  · intro as u l v hrun hu hl p cmd mail hp hkey hok
    cases step_move hl p with
    | other hother hsame =>
      obtain ⟨record, hmem, hrec⟩ := hu p cmd mail (began_other hother hp) hkey (hsame ▸ hok)
      exact ⟨record, step_idempotency hl hmem, hrec⟩
    | @started cmd' now newMailID eventID failure hidle hstore hstart =>
      have hcmd : cmd = cmd' := began_unique (run_snoc hrun hl) hp
        (began_snoc.mpr (Or.inr ⟨now, newMailID, eventID, failure, rfl⟩))
      subst hcmd
      rw [hstore]
      exact publisherStart_replays (hstart.symm.trans hok)
    | @created auto rows outcome hcreating hstore hresult =>
      obtain ⟨cmd', now, newMailID, eventID, hbegan, rfl⟩ := drafted_run hrun hcreating
      have hcmd : cmd = cmd' := began_unique (run_snoc hrun hl) hp hbegan.mono
      subst hcmd
      obtain ⟨rfl, db, hcreate, hdb⟩ := createResult_ok (hresult.symm.trans hok)
      obtain ⟨record, hrecord, hrec⟩ := publishRows_record cmd hkey now newMailID eventID
      refine ⟨record, ?_, hrec⟩
      rw [hstore, hdb, (create_rows hcreate).idempotency, hrecord]
      exact List.mem_append_right _ (List.mem_singleton.mpr rfl)
    | crashed _ hcrash =>
      rw [hcrash] at hok
      cases hok
  · rintro p cmd mail ⟨_, _, _, _, hmem⟩
    cases hmem

theorem creations_record {ls : List Label} {w : World}
    (h : run (step sha256 config) init ls = some w) {c : Creation} {cmd : PublishCommand}
    (hc : c ∈ creations sha256 config ls) (hp : Began ls c.call cmd) (hkey : cmd.idempotencyKey ≠ "") :
    ∃ record, c.rows.record = some record ∧ Records sha256 cmd c.rows.mail record := by
  obtain ⟨cmd', now, newMailID, eventID, hbegan, hrows⟩ := creations_drafted h hc
  rw [hrows]
  rw [began_unique h hp hbegan]
  rw [began_unique h hp hbegan] at hkey
  exact publishRows_record cmd' hkey now newMailID eventID

theorem countP_key_le_one (t : Table PublishIdempotencyRecord.key) (key : String) :
    t.rows.countP (fun record => decide (record.key = key)) ≤ 1 := by
  have hcount := List.nodup_iff_count_le_one.mp t.unique key
  rw [List.count, List.countP_map] at hcount
  exact hcount

theorem created_once {ls : List Label} {w : World} (h : run (step sha256 config) init ls = some w)
    {key : String} (hkey : key ≠ "") :
    ((creations sha256 config ls).countP fun c => carriesKey ls key c.call) ≤ 1 := by
  have hrecord : ∀ c ∈ creations sha256 config ls, carriesKey ls key c.call = true →
      (c.rows.record.any fun record => decide (record.key = key)) = true := by
    intro c hc hcarries
    obtain ⟨cmd, hbegan, rfl⟩ := carriesKey_began hcarries
    obtain ⟨record, hsome, hrec⟩ := creations_record h hc hbegan hkey
    simp [hsome, hrec.key]
  calc ((creations sha256 config ls).countP fun c => carriesKey ls key c.call)
      ≤ (creations sha256 config ls).countP fun c =>
          c.rows.record.any fun record => decide (record.key = key) := List.countP_mono_left hrecord
    _ = w.store.db.idempotency.rows.countP fun record => decide (record.key = key) := by
          rw [(accounts_run h).idempotency, List.countP_filterMap]
          refine List.countP_congr fun c _ => ?_
          cases c.rows.record <;> rfl
    _ ≤ 1 := countP_key_le_one _ key

theorem same_response {ls : List Label} {w : World} (h : run (step sha256 config) init ls = some w)
    {p q : Nat} {cmd cmd' : PublishCommand} {mail mail' : GlobalMail} (hp : Began ls p cmd)
    (hq : Began ls q cmd') (hsame : cmd.idempotencyKey = cmd'.idempotencyKey)
    (hkey : cmd.idempotencyKey ≠ "") (hok : w.publishers p = .returned (.ok mail))
    (hok' : w.publishers q = .returned (.ok mail')) : mail = mail' := by
  obtain ⟨record, hmem, hrec⟩ := recorded_run h hp hkey hok
  obtain ⟨record', hmem', hrec'⟩ := recorded_run h hq (hsame ▸ hkey) hok'
  have hone : record = record' :=
    w.store.db.idempotency.row_unique hmem hmem' (hrec.key.trans (hsame.trans hrec'.key.symm))
  rw [← hrec.response, ← hrec'.response, hone]

theorem same_request {ls : List Label} {w : World} (h : run (step sha256 config) init ls = some w)
    (hfree : CollisionFree sha256 ls) {c : Creation} {q : Nat} {cmd cmd' : PublishCommand}
    {mail : GlobalMail} (hc : c ∈ creations sha256 config ls) (hp : Began ls c.call cmd)
    (hq : Began ls q cmd') (hsame : cmd.idempotencyKey = cmd'.idempotencyKey)
    (hkey : cmd.idempotencyKey ≠ "") (hok : w.publishers q = .returned (.ok mail)) :
    request cmd' = request cmd := by
  obtain ⟨record, hsome, hrec⟩ := creations_record h hc hp hkey
  obtain ⟨record', hmem', hrec'⟩ := recorded_run h hq (hsame ▸ hkey) hok
  have hmem : record ∈ w.store.db.idempotency.rows := by
    rw [(accounts_run h).idempotency]
    exact List.mem_filterMap.mpr ⟨_, hc, hsome⟩
  have hone : record' = record :=
    w.store.db.idempotency.row_unique hmem' hmem (hrec'.key.trans (hsame.symm.trans hrec.key.symm))
  apply hfree q c.call cmd' cmd hq hp
  rw [← hrec.requestHash, ← hrec'.requestHash, hone]

theorem failed_unchanged {as bs : List Label} {l : Label} {u v w : World} {p : Nat} {err : String}
    (hl : step sha256 config u l = some v) (hrest : run (step sha256 config) v bs = some w)
    (hcall : l.call = some p) (hp : w.publishers p = .returned (.error err))
    (hcrash : .publishCrash p ∉ as ++ l :: bs)
    (hlost : ∀ auto err, .publishCreate p auto (.lost err) ∉ as ++ l :: bs) : v.store.db = u.store.db := by
  -- a call that ends with an error has not changed a table, unless the answer of its commit was lost
  cases step_move hl p with
  | other hother => exact absurd hcall hother
  | started _ hstore => rw [hstore]
  | crashed hstore => rw [hstore]
  | @created auto rows outcome _ hstore hresult =>
    rw [hstore]
    cases outcome with
    | failed err => rfl
    | lost err => exact absurd (List.mem_append_right _ List.mem_cons_self) (hlost auto err)
    | ok =>
      simp only [createResult] at hresult ⊢
      split at hresult
      · rfl
      · have hstays := returned_stays hresult
          (fun hmem => hcrash (List.mem_append_right _ (List.mem_cons_of_mem _ hmem))) hrest
        rw [hstays] at hp
        cases hp

end Calls

theorem publish_once (sha256 : PublishPayload → String) (config : Nat → Config) (ls : List Label)
    (w : World) (h : run (step sha256 config) init ls = some w) (hfree : CollisionFree sha256 ls)
    (key : String) (hkey : key ≠ "") :
    Accounts (creations sha256 config ls) w.store.db ∧
    ((creations sha256 config ls).countP fun c => carriesKey ls key c.call) ≤ 1 ∧
    (∀ p q mail mail', carriesKey ls key p = true → carriesKey ls key q = true →
      w.publishers p = .returned (.ok mail) → w.publishers q = .returned (.ok mail') →
        mail.id = mail'.id) ∧
    (∀ c cmd q cmd', c ∈ creations sha256 config ls → Began ls c.call cmd →
      cmd.idempotencyKey = key → Began ls q cmd' → cmd'.idempotencyKey = key →
        request cmd' ≠ request cmd → ∀ mail, w.publishers q ≠ .returned (.ok mail)) ∧
    (∀ p err, w.publishers p = .returned (.error err) → .publishCrash p ∉ ls →
      (∀ auto err', .publishCreate p auto (.lost err') ∉ ls) → ∀ as l bs u v, ls = as ++ l :: bs →
        run (step sha256 config) init as = some u → step sha256 config u l = some v →
          l.call = some p → v.store.db = u.store.db) := by
  refine ⟨accounts_run h, created_once h hkey, ?_, ?_, ?_⟩
  · intro p q mail mail' hp hq hok hok'
    obtain ⟨cmd, hbegan, hcmd⟩ := carriesKey_began hp
    obtain ⟨cmd', hbegan', hcmd'⟩ := carriesKey_began hq
    rw [same_response h hbegan hbegan' (hcmd.trans hcmd'.symm) (hcmd ▸ hkey) hok hok']
  · intro c cmd q cmd' hc hp hcmd hq hcmd' hdiffers mail hok
    exact hdiffers (same_request h hfree hc hp hq (hcmd.trans hcmd'.symm) (hcmd ▸ hkey) hok)
  · rintro p err hp hcrash hlost as l bs u v rfl has hl hcall
    obtain ⟨u', has', hrest⟩ := run_append.mp h
    cases Option.some.inj (has.symm.trans has')
    obtain ⟨v', hl', hbs⟩ := run_cons.mp hrest
    cases Option.some.inj (hl.symm.trans hl')
    exact failed_unchanged hl hbs hcall hp hcrash hlost

section Race

def keyedNotice (title : String) : PublishCommand := ⟨{ noticeMail with title }, [], "", "k-1"⟩

def keyRace : List Label :=
  [.publishBegin 0 (keyedNotice "notice") 0 100 7 none, .publishBegin 1 (keyedNotice "notice") 0 101 8 none,
    .publishCreate 0 .first .ok, .publishCreate 1 .first .ok, .publishBegin 2 (keyedNotice "notice") minute 102 9 none,
    .publishBegin 3 (keyedNotice "other") minute 103 10 none]

def afterKeyRace : World :=
  (run (step (fun payload => payload.mail.title) twoWorkers) init keyRace).get (by decide)

theorem keyRace_collisionFree : CollisionFree (fun payload => payload.mail.title) keyRace := by
  have hcommands {p : Nat} {cmd : PublishCommand} (h : Began keyRace p cmd) :
      ∃ title, cmd = keyedNotice title := by
    obtain ⟨now, newMailID, eventID, failure, hmem⟩ := h
    simp only [keyRace, List.mem_cons, Label.publishBegin.injEq, reduceCtorEq, List.not_mem_nil,
      or_false, false_or] at hmem
    rcases hmem with ⟨_, rfl, _⟩ | ⟨_, rfl, _⟩ | ⟨_, rfl, _⟩ | ⟨_, rfl, _⟩
    all_goals exact ⟨_, rfl⟩
  intro p q cmd cmd' hp hq hhash
  obtain ⟨title, rfl⟩ := hcommands hp
  obtain ⟨title', rfl⟩ := hcommands hq
  have htitle : title = title' := hhash
  rw [htitle]

theorem keyRace_once :
    run (step (fun payload => payload.mail.title) twoWorkers) init keyRace = some afterKeyRace ∧
      ((creations (fun payload => payload.mail.title) twoWorkers keyRace).countP fun c =>
        carriesKey keyRace "k-1" c.call) ≤ 1 ∧
      ∀ mail, afterKeyRace.publishers 3 ≠ .returned (.ok mail) := by
  have hrun : run (step (fun payload => payload.mail.title) twoWorkers) init keyRace =
      some afterKeyRace := (Option.some_get _).symm
  obtain ⟨_, honce, _, hother, _⟩ :=
    publish_once _ _ keyRace _ hrun keyRace_collisionFree "k-1" (by decide)
  refine ⟨hrun, honce, ?_⟩
  have hcreated : ∃ auto rows, ⟨0, auto, rows⟩ ∈
      creations (fun payload => payload.mail.title) twoWorkers keyRace := ⟨_, _, List.mem_cons_self⟩
  obtain ⟨auto, rows, hrows⟩ := hcreated
  apply hother _ (keyedNotice "notice") 3 (keyedNotice "other") hrows
    ⟨0, 100, 7, none, by simp [keyRace]⟩ rfl ⟨minute, 103, 10, none, by simp [keyRace]⟩ rfl
  intro he
  have htitle := congrArg (fun payload => payload.mail.title) he
  exact absurd htitle (by decide)

end Race

end GlobalMailSystem.Relay
