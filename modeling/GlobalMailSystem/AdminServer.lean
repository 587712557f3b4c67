import GlobalMailSystem.DeliveredOnce
import GlobalMailSystem.PublishOnce

namespace GlobalMailSystem.Admin

open Publisher Transition

structure PublishGlobalMailRequest where
  idempotencyKey : String
  operatorID : Int
  title : String
  content : String
  sender : String
  category : String
  startTime : Time
  expireTime : Time
  conditions : List Condition

-- `body` is what the JSON decoder makes of the body, `headerKey` the header `Idempotency-Key`
structure HttpRequest where
  method : String
  body : Except String PublishGlobalMailRequest
  headerKey : String

inductive ResponseBody
  | text (message : String)
  | mail (mail : GlobalMail)

structure Response where
  status : Nat
  body : ResponseBody

def publishCommand (req : PublishGlobalMailRequest) (headerKey : String) : PublishCommand :=
  { mail := { (default : GlobalMail) with
      operatorID := req.operatorID, title := req.title, content := req.content, sender := req.sender
      category := req.category, startTime := req.startTime, expireTime := req.expireTime }
    conditions := req.conditions
    action := "publish"
    idempotencyKey := if req.idempotencyKey = "" then headerKey else req.idempotencyKey }

def handlePublishGlobalMail (r : HttpRequest) : Except Response PublishCommand :=
  if r.method ≠ "POST" then .error ⟨405, .text "method not allowed"⟩
  else
    match r.body with
    | .error err => .error ⟨400, .text err⟩
    | .ok req => .ok (publishCommand req r.headerKey)

def publishResponse : Except String GlobalMail → Response
  | .error err => ⟨400, .text err⟩
  | .ok mail => ⟨201, .mail mail⟩

structure World where
  relay : Relay.World
  player : PlayerMail.World

inductive Label
  -- a request whose `Publish`, if it comes to that, is call `p`
  | request (p : Nat) (r : HttpRequest) (now : Time) (newMailID eventID : Int) (failure : Option String)
  | relay (l : Relay.Label)
  | player (l : PlayerMail.Label)

def World.withRelay (w : World) (relay : Relay.World) : World :=
  ⟨relay, { w.player with mails := relay.store.db.mails }⟩

/-- Mails come into MySQL by requests to the admin server only. -/
def Label.direct : Label → Bool
  | .relay (.publishBegin ..) => true
  | .player (.addMail _) => true
  | _ => false

def Label.relaySteps : Label → List Relay.Label
  | .request p r now newMailID eventID failure =>
    match handlePublishGlobalMail r with
    | .error _ => []
    | .ok cmd => [.publishBegin p cmd now newMailID eventID failure]
  | .relay l => [l]
  | .player _ => []

def step (sha256 : PublishPayload → String) (config : Nat → Relay.Config) (w : World) (l : Label) : Option World :=
  if l.direct then none
  else
    match l with
    | .player l => (PlayerMail.step w.player l).map fun player => { w with player }
    | l => (run (Relay.step sha256 config) w.relay l.relaySteps).map w.withRelay

def init : World := ⟨Relay.init, PlayerMail.init⟩

def Asked (ls : List Label) (p : Nat) (req : PublishGlobalMailRequest) (headerKey : String) : Prop :=
  ∃ now newMailID eventID failure, .request p ⟨"POST", .ok req, headerKey⟩ now newMailID eventID failure ∈ ls

section Projection

variable {sha256 : PublishPayload → String} {config : Nat → Relay.Config} {w w' : World} {l : Label} {ls : List Label}

theorem handle_eq_ok {r : HttpRequest} {cmd : PublishCommand} (h : handlePublishGlobalMail r = .ok cmd) :
    ∃ req, r = ⟨"POST", .ok req, r.headerKey⟩ ∧ cmd = publishCommand req r.headerKey := by
  obtain ⟨method, body, headerKey⟩ := r
  simp only [handlePublishGlobalMail] at h
  split_ifs at h with hmethod
  cases body with
  | error err => cases h
  | ok req =>
    cases h
    exact ⟨req, by rw [not_not.mp hmethod], rfl⟩

inductive Moves (sha256 : PublishPayload → String) (config : Nat → Relay.Config) (w : World) : Label → World → Prop
  | player {l : PlayerMail.Label} {player : PlayerMail.World} (hadd : ∀ mail, l ≠ .addMail mail)
      (h : PlayerMail.step w.player l = some player) : Moves sha256 config w (.player l) { w with player }
  | relay {l : Label} {relay : Relay.World} (hdirect : l.direct = false)
      (h : run (Relay.step sha256 config) w.relay l.relaySteps = some relay) :
    Moves sha256 config w l (w.withRelay relay)

theorem step_moves (h : step sha256 config w l = some w') : Moves sha256 config w l w' := by
  unfold step at h
  split_ifs at h with hdirect
  split at h
  · obtain ⟨player, hplayer, rfl⟩ := Option.map_eq_some_iff.mp h
    refine .player ?_ hplayer
    rintro mail rfl
    exact hdirect rfl
  · obtain ⟨relay, hrelay, rfl⟩ := Option.map_eq_some_iff.mp h
    exact .relay (Bool.eq_false_of_not_eq_true hdirect) hrelay

theorem step_relay (h : step sha256 config w l = some w') :
    run (Relay.step sha256 config) w.relay l.relaySteps = some w'.relay := by
  cases step_moves h with
  | player _ _ => rfl
  | relay _ hrelay => exact hrelay

theorem run_relay (h : run (step sha256 config) w ls = some w') :
    run (Relay.step sha256 config) w.relay (ls.flatMap Label.relaySteps) = some w'.relay := by
  apply run_history (P := fun as u => run (Relay.step sha256 config) w.relay (as.flatMap Label.relaySteps) =
    some u.relay) ?_ rfl h
  intro as u l v _ hu hl
  rw [List.flatMap_append, List.flatMap_singleton]
  exact run_append.mpr ⟨u.relay, hu, step_relay hl⟩

theorem direct_of_step (h : step sha256 config w l = some w') : l.direct = false := by
  cases step_moves h with
  | @player l _ hadd _ =>
    cases l with
    | addMail mail => exact absurd rfl (hadd mail)
    | _ => rfl
  | relay hdirect _ => exact hdirect

theorem run_direct (h : run (step sha256 config) w ls = some w') : ∀ l ∈ ls, l.direct = false := by
  apply run_history (P := fun as _ => ∀ l ∈ as, l.direct = false) ?_ (fun l hl => absurd hl List.not_mem_nil) h
  intro as u l v _ hdirect hl l' hl'
  rcases List.mem_append.mp hl' with hl' | hl'
  · exact hdirect l' hl'
  · rw [List.mem_singleton.mp hl']
    exact direct_of_step hl

theorem asked_of_began (hdirect : ∀ l ∈ ls, l.direct = false) {p : Nat} {cmd : PublishCommand}
    (h : Relay.Began (ls.flatMap Label.relaySteps) p cmd) :
    ∃ req headerKey, Asked ls p req headerKey ∧ cmd = publishCommand req headerKey := by
  obtain ⟨now, newMailID, eventID, failure, hmem⟩ := h
  obtain ⟨l, hl, hsteps⟩ := List.mem_flatMap.mp hmem
  cases l with
  | request q r now' newMailID' eventID' failure' =>
    simp only [Label.relaySteps] at hsteps
    split at hsteps
    · cases hsteps
    · rename_i cmd' hcmd
      cases List.mem_singleton.mp hsteps
      obtain ⟨req, hr, rfl⟩ := handle_eq_ok hcmd
      exact ⟨req, r.headerKey, ⟨now, newMailID, eventID, failure, hr ▸ hl⟩, rfl⟩
  | relay l =>
    have hdirect := hdirect _ hl
    rw [← List.mem_singleton.mp hsteps] at hdirect
    cases hdirect
  | player l => cases hsteps

theorem mail_asked (h : run (step sha256 config) init ls = some w) {mail : GlobalMail}
    (hmail : mail ∈ w.relay.store.db.mails.rows) :
    ∃ p req headerKey now newMailID auto, Asked ls p req headerKey ∧
      mail = storedMail auto (publishedMail (defaultAction (publishCommand req headerKey)) now newMailID) := by
  have hrun := run_relay h
  obtain ⟨c, hcreated, rfl⟩ := (Relay.accounts_run hrun).mail_row hmail
  obtain ⟨cmd, now, newMailID, eventID, hbegan, hrows⟩ := Relay.creations_drafted hrun hcreated
  obtain ⟨req, headerKey, hasked, rfl⟩ := asked_of_began (run_direct h) hbegan
  exact ⟨c.call, req, headerKey, now, newMailID, c.auto, hasked, by rw [hrows]; rfl⟩

end Projection

section Players

variable {sha256 : PublishPayload → String} {config : Nat → Relay.Config} {w w' : World} {l : Label}

structure Shared (w : World) : Prop where
  relay : Relay.Inv w.relay
  player : PlayerMail.Inv w.player
  mails : w.player.mails = w.relay.store.db.mails

theorem player_grown {player : PlayerMail.World} (hw : PlayerMail.Inv player) {mails : Table GlobalMail.id}
    (hgrows : ∀ mail ∈ player.mails.rows, mail ∈ mails.rows) : PlayerMail.Inv { player with mails } :=
  PlayerMail.inv_of_extends ⟨hgrows, fun call hcall => ⟨call.pc, hcall⟩⟩ hw.snapshots hw.calls hw.backpack

theorem player_mails {player player' : PlayerMail.World} {l : PlayerMail.Label} (hl : ∀ mail, l ≠ .addMail mail)
    (h : PlayerMail.step player l = some player') : player'.mails = player.mails := by
  cases PlayerMail.step_inv h with
  | addMail => exact absurd rfl (hl _)
  | install => rfl
  | start => rfl
  | getState => rfl
  | grant => rfl
  | save => rfl
  | stop => rfl

theorem shared_step (hw : Shared w) (h : step sha256 config w l = some w') : Shared w' := by
  cases step_moves h with
  | player hadd hplayer =>
    exact ⟨hw.relay, PlayerMail.inv_step hw.player hplayer, (player_mails hadd hplayer).trans hw.mails⟩
  | @relay _ relay _ hrelay =>
    have hinv : Relay.Inv relay := run_invariant (fun _ _ _ hs hl => (Relay.inv_step hs hl).1) hw.relay hrelay
    have hgrows := Relay.grows_run hw.relay hrelay
    refine ⟨hinv, player_grown hw.player ?_, rfl⟩
    rw [hw.mails]
    exact hgrows.mails

theorem shared_run {ls : List Label} (h : run (step sha256 config) init ls = some w) : Shared w :=
  run_invariant (fun _ _ _ hs hl => shared_step hs hl) ⟨Relay.inv_init, PlayerMail.inv_init, rfl⟩ h

end Players

section Answers

variable {sha256 : PublishPayload → String} {config : Nat → Relay.Config}

def Stored (sha256 : PublishPayload → String) (config : Nat → Relay.Config) (ls : List Relay.Label) (mail : GlobalMail) :
    Prop :=
  ∃ c ∈ Relay.creations sha256 config ls, c.rows.mail = mail

theorem Stored.append {ls : List Relay.Label} {w : Relay.World} {mail : GlobalMail} (h : Stored sha256 config ls mail)
    (hrun : run (Relay.step sha256 config) Relay.init ls = some w) (more : List Relay.Label) :
    Stored sha256 config (ls ++ more) mail := by
  obtain ⟨c, hc, hmail⟩ := h
  refine ⟨c, ?_, hmail⟩
  rw [Relay.creations, trace_append hrun]
  exact List.mem_append_left _ hc

theorem record_stored {ls : List Relay.Label} {w : Relay.World}
    (h : run (Relay.step sha256 config) Relay.init ls = some w) {record : PublishIdempotencyRecord}
    (hmem : record ∈ w.store.db.idempotency.rows) : Stored sha256 config ls record.responseSnapshot := by
  have hacc := Relay.accounts_run h
  rw [hacc.idempotency] at hmem
  obtain ⟨c, hc, hrecord⟩ := List.mem_filterMap.mp hmem
  obtain ⟨cmd, now, newMailID, eventID, _, hrows⟩ := Relay.creations_drafted h hc
  refine ⟨c, hc, ?_⟩
  rw [hrows] at hrecord ⊢
  simp only [publishRows] at hrecord ⊢
  split_ifs at hrecord
  cases hrecord
  rfl

theorem returned_stored {ls : List Relay.Label} {w : Relay.World}
    (h : run (Relay.step sha256 config) Relay.init ls = some w) {p : Nat} {mail : GlobalMail}
    (hp : w.publishers p = .returned (.ok mail)) : Stored sha256 config ls mail := by
  refine run_history (P := fun as u => ∀ p mail, u.publishers p = .returned (.ok mail) →
    Stored sha256 config as mail) ?_ (fun p mail hp => by cases hp) h p mail hp
  intro as u l v hrun hu hl p mail hp
  cases Relay.step_move hl p with
  | other _ hsame => exact (hu p mail (hsame ▸ hp)).append hrun _
  | started _ hstore hstart =>
    obtain ⟨record, hrecord, hrec⟩ := Relay.publisherStart_replays (hstart.symm.trans hp)
    rw [← hrec.response]
    exact (record_stored hrun hrecord).append hrun _
  | @created auto rows outcome hcreating hstore hresult =>
    have hreturned := hresult.symm.trans hp
    obtain ⟨rfl, db, hcreate, -⟩ := Relay.createResult_ok hreturned
    have hok : outcome.executed = true := by
      cases outcome with
      | ok => rfl
      | failed | lost => cases hreturned
    refine ⟨⟨p, auto, rows⟩, ?_, rfl⟩
    rw [Relay.creations_snoc hrun hl]
    simp [Relay.creation, hcreating, hcreate, hok]
  | crashed _ hcrash =>
    rw [hcrash] at hp
    cases hp

theorem Stored.tables {ls : List Relay.Label} {w : Relay.World} {mail : GlobalMail}
    (hrun : run (Relay.step sha256 config) Relay.init ls = some w) (h : Stored sha256 config ls mail) :
    ∃ auto, storedMail auto mail ∈ w.store.db.mails.rows ∧
      (∀ condition ∈ storedConditions auto mail, condition ∈ w.store.db.conditions.rows) ∧
      ∃ row ∈ w.store.db.outbox.rows, ∃ changed, Relay.Announces row changed ∧
        row.aggregateID = mail.id ∧ row.version = mail.version := by
  obtain ⟨c, hc, rfl⟩ := h
  have hacc := Relay.accounts_run hrun
  have hwell := Relay.creations_wellFormed hrun hc
  obtain ⟨row, hrow, he⟩ := hacc.event_row hc
  have hsame := Relay.announcement_inj he
  obtain ⟨changed, hannounced⟩ := (Relay.inv_run hrun).announced row hrow
  refine ⟨c.auto, ?_, fun condition hcondition => ?_, row, hrow, changed, hannounced,
    hsame.aggregateID.trans hwell.aggregate, hsame.version.trans hwell.version⟩
  · rw [hacc.mails]
    exact List.mem_map_of_mem hc
  · rw [hacc.conditions]
    exact List.mem_flatMap.mpr ⟨c, hc, hcondition⟩

end Answers

theorem created_answers_stored (sha256 : PublishPayload → String) (config : Nat → Relay.Config) {ls more : List Label}
    {w w' : World} (h : run (step sha256 config) init ls = some w) {p : Nat} {result : Except String GlobalMail}
    (hp : w.relay.publishers p = .returned result) (hstatus : (publishResponse result).status = 201)
    (h' : run (step sha256 config) w more = some w') :
    ∃ mail auto, (publishResponse result).body = .mail mail ∧ storedMail auto mail ∈ w'.relay.store.db.mails.rows ∧
      (∀ condition ∈ storedConditions auto mail, condition ∈ w'.relay.store.db.conditions.rows) ∧
      (mail.id ≠ 0 → w'.relay.store.db.mails.find? mail.id =
        some { mail with conditions := storedConditions auto mail }) ∧
      ∃ row ∈ w'.relay.store.db.outbox.rows, ∃ changed, Relay.Announces row changed ∧
        row.aggregateID = mail.id ∧ row.version = mail.version := by
  cases result with
  | error err => cases hstatus
  | ok mail =>
    have hrun := run_relay (run_append.mpr ⟨w, h, h'⟩)
    have hstored := (returned_stored (run_relay h) hp).append (run_relay h) (more.flatMap Label.relaySteps)
    rw [← List.flatMap_append] at hstored
    obtain ⟨auto, hmail, hconditions, hevent⟩ := hstored.tables hrun
    refine ⟨mail, auto, rfl, hmail, hconditions, fun hkeyed => ?_, hevent⟩
    rw [storedMail_of_ne hkeyed] at hmail
    exact Table.find?_eq_some.mpr ⟨hmail, rfl⟩

def notice : PublishGlobalMailRequest :=
  ⟨"", 1, "maintenance", "back at six", "gm", "", 0, 90 * minute, [⟨0, 0, "server", "eq", .value (.int 1)⟩]⟩

def noticeRequest : HttpRequest := ⟨"POST", .ok notice, "k1"⟩

def publishNotice : List Label := [.request 0 noticeRequest 0 100 7 none, .relay (.publishCreate 0 .first .ok)]

def answeredWorld : World := (run (step (fun _ => "") fun _ => ⟨"", 0, 0⟩) init publishNotice).get (by decide)

theorem answeredWorld_run : run (step (fun _ => "") fun _ => ⟨"", 0, 0⟩) init publishNotice = some answeredWorld :=
  (Option.some_get _).symm

theorem answeredWorld_stored :
    ∃ (mail : GlobalMail) (auto : AutoIncrement), mail.title = "maintenance" ∧ mail.id = 100 ∧ mail.conditions.map Condition.id = [0] ∧
      answeredWorld.relay.store.db.mails.find? 100 = some { mail with conditions := storedConditions auto mail } := by
  have hreturned : answeredWorld.relay.publishers 0 =
      .returned (.ok (publishedMail (publishCommand notice "k1") 0 100)) := rfl
  have hmore : run (step (fun _ => "") fun _ => ⟨"", 0, 0⟩) answeredWorld [] = some answeredWorld := rfl
  obtain ⟨mail, auto, hbody, -, -, hfind, -⟩ := created_answers_stored _ _ answeredWorld_run hreturned rfl hmore
  cases hbody
  exact ⟨_, auto, rfl, rfl, rfl, hfind (by decide)⟩

end GlobalMailSystem.Admin
