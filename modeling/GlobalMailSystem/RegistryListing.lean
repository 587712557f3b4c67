import GlobalMailSystem.ServiceRegistry

namespace GlobalMailSystem.Registry

open Transition

def ProcessPC.lease? : ProcessPC → Option Nat
  | .put l => some l
  | .registered l => some l
  | _ => none

def SameName (process : Process) (configured : Instance) : Prop :=
  process.configured.serviceName = configured.serviceName ∧ process.configured.instanceID = configured.instanceID

instance (process : Process) (configured : Instance) : Decidable (SameName process configured) :=
  inferInstanceAs (Decidable (_ ∧ _))

/-- A process starts under a plain name that no running process has, and no status is updated. -/
def Orderly (w : World) : Label → Prop
  | .start configured _ => Plain configured.serviceName ∧ Plain configured.instanceID ∧
      ∀ process ∈ w.processes, process.running = true → ¬ SameName process configured
  | .update _ (.put _ _) => False
  | _ => True

instance (w : World) : (label : Label) → Decidable (Orderly w label)
  | .start _ _ => inferInstanceAs (Decidable (_ ∧ _ ∧ _))
  | .update _ (.put _ _) => isFalse id
  | .update _ (.get _) => isTrue trivial
  | .tick _ => isTrue trivial
  | .process _ _ => isTrue trivial
  | .revoke _ => isTrue trivial
  | .updateStatus _ _ _ => isTrue trivial

def Backed (cfg : Config) (w : World) (entry : KeyValue) (p : Nat) : Prop :=
  ∃ (process : Process) (l : Nat) (lease : Lease), w.processes[p]? = some process ∧ entry = ⟨process.key cfg, process.value, some l⟩ ∧
    w.leases[l]? = some lease ∧ lease.owner = p ∧ lease.live = true

structure Listing (cfg : Config) (w : World) : Prop where
  plain : ∀ process ∈ w.processes, Plain process.configured.serviceName ∧ Plain process.configured.instanceID
  apart : ∀ (p q : Nat) (process other : Process), w.processes[p]? = some process → w.processes[q]? = some other →
    process.running = true → other.running = true → SameName process other.configured → p = q
  leased : ∀ (p : Nat) (process : Process) (l : Nat), w.processes[p]? = some process → process.pc.lease? = some l →
    ∃ lease : Lease, w.leases[l]? = some lease ∧ lease.owner = p
  backed : ∀ entry ∈ w.kv.rows, ∃ p, Backed cfg w entry p
  present : ∀ (p : Nat) (process : Process) (l : Nat) (lease : Lease), w.processes[p]? = some process → process.pc = .registered l →
    w.leases[l]? = some lease → lease.live = true → ⟨process.key cfg, process.value, some l⟩ ∈ w.kv.rows
  expired : ∀ lease ∈ w.leases, lease.live = false → lease.expireAt ≤ w.clock

theorem plain_ne_empty {name : String} (h : Plain name) : name ≠ "" := by
  rintro rfl
  exact h.nonempty rfl

section Names

variable {cfg : Config} {process other : Process}

theorem value_serviceName (h : Plain process.configured.serviceName) :
    process.value.serviceName = process.configured.serviceName :=
  if_neg (plain_ne_empty h)

theorem key_eq (h : Plain process.configured.serviceName) : process.key cfg =
    instanceKey cfg.serviceKeyPrefix process.configured.serviceName process.configured.instanceID := by
  rw [Process.key, value_serviceName h]
  rfl

theorem sameName_of_key
    (h : Plain process.configured.serviceName ∧ Plain process.configured.instanceID)
    (h' : Plain other.configured.serviceName ∧ Plain other.configured.instanceID)
    (hkey : process.key cfg = other.key cfg) : SameName process other.configured := by
  rw [key_eq h.1, key_eq h'.1] at hkey
  exact instanceKey_inj h.1 h.2 h'.1 h'.2 hkey

end Names

section Steps

variable {cfg : Config} {w w' : World} {p q : Nat} {process other : Process} {pc : ProcessPC}

theorem setPC_cases (hp : w.processes[p]? = some process)
    (h : (w.setPC p process pc).processes[q]? = some other) :
    (q = p ∧ other = { process with pc := pc }) ∨ (q ≠ p ∧ w.processes[q]? = some other) := by
  have hlt := (List.getElem?_eq_some_iff.mp hp).1
  by_cases hq : p = q
  · subst hq
    rw [World.setPC, List.getElem?_set_self hlt] at h
    exact Or.inl ⟨rfl, (Option.some.inj h).symm⟩
  · rw [World.setPC, List.getElem?_set_ne hq] at h
    exact Or.inr ⟨Ne.symm hq, h⟩

theorem setPC_other (h : q ≠ p) : (w.setPC p process pc).processes[q]? = w.processes[q]? :=
  List.getElem?_set_ne (Ne.symm h)

theorem setPC_self (hp : w.processes[p]? = some process) :
    (w.setPC p process pc).processes[p]? = some { process with pc := pc } :=
  List.getElem?_set_self (List.getElem?_eq_some_iff.mp hp).1

theorem Backed.setPC {entry : KeyValue} (hp : w.processes[p]? = some process) (h : Backed cfg w entry q) :
    Backed cfg (w.setPC p process pc) entry q := by
  obtain ⟨owner, l, lease, hq, he, hl, howner, hlive⟩ := h
  by_cases hsame : q = p
  · subst hsame
    have hprocess : process = owner := Option.some.inj (hp.symm.trans hq)
    subst hprocess
    exact ⟨_, l, lease, setPC_self hp, he, hl, howner, hlive⟩
  · exact ⟨owner, l, lease, (setPC_other hsame).trans hq, he, hl, howner, hlive⟩

theorem Listing.setPC (hw : Listing cfg w) (hp : w.processes[p]? = some process) (hrun : process.running = true)
    (hlease : ∀ l, pc.lease? = some l → ∃ lease : Lease, w.leases[l]? = some lease ∧ lease.owner = p)
    (hpresent : ∀ l, pc = .registered l → ⟨process.key cfg, process.value, some l⟩ ∈ w.kv.rows) :
    Listing cfg (w.setPC p process pc) := by
  refine ⟨?_, ?_, ?_, ?_, ?_, hw.expired⟩
  · intro other hother
    rcases List.mem_or_eq_of_mem_set hother with hother | rfl
    · exact hw.plain other hother
    · exact hw.plain process (List.mem_of_getElem? hp)
  · intro p₁ p₂ x y hx hy hxrun hyrun hsame
    rcases setPC_cases hp hx with ⟨rfl, rfl⟩ | ⟨_, hx'⟩ <;> rcases setPC_cases hp hy with ⟨rfl, rfl⟩ | ⟨_, hy'⟩
    · rfl
    · exact hw.apart _ _ process y hp hy' hrun hyrun hsame
    · exact hw.apart _ _ x process hx' hp hxrun hrun hsame
    · exact hw.apart _ _ x y hx' hy' hxrun hyrun hsame
  · intro p' x l hx hl
    rcases setPC_cases hp hx with ⟨rfl, rfl⟩ | ⟨_, hx⟩
    · exact hlease l hl
    · exact hw.leased p' x l hx hl
  · intro entry hentry
    obtain ⟨q, hq⟩ := hw.backed entry hentry
    exact ⟨q, hq.setPC hp⟩
  · intro p' x l lease hx hpc hl hlive
    rcases setPC_cases hp hx with ⟨rfl, rfl⟩ | ⟨_, hx⟩
    · exact hpresent l hpc
    · exact hw.present p' x l lease hx hpc hl hlive

theorem Listing.exit (hw : Listing cfg w) (hp : w.processes[p]? = some process) (hrun : process.running = true) :
    Listing cfg (w.setPC p process .exited) :=
  hw.setPC hp hrun (fun _ h => by cases h) (fun _ h => by cases h)

theorem Listing.leases (hw : Listing cfg w) {leases : List Lease}
    (hkept : ∀ (l : Nat) (lease : Lease), w.leases[l]? = some lease → ∃ lease' : Lease, leases[l]? = some lease' ∧
      lease'.owner = lease.owner ∧ lease'.live = lease.live)
    (hfrom : ∀ (p : Nat) (process : Process) (l : Nat), w.processes[p]? = some process → process.pc.lease? = some l → l < w.leases.length)
    (hexpired : ∀ lease ∈ leases, lease.live = false → lease.expireAt ≤ w.clock) :
    Listing cfg { w with leases := leases } := by
  refine ⟨hw.plain, hw.apart, ?_, ?_, ?_, hexpired⟩
  · intro p process l hp hpc
    obtain ⟨lease, hl, howner⟩ := hw.leased p process l hp hpc
    obtain ⟨lease', hl', howner', _⟩ := hkept l lease hl
    exact ⟨lease', hl', howner'.trans howner⟩
  · intro entry hentry
    obtain ⟨p, process, l, lease, hp, he, hl, howner, hlive⟩ := hw.backed entry hentry
    obtain ⟨lease', hl', howner', hlive'⟩ := hkept l lease hl
    exact ⟨p, process, l, lease', hp, he, hl', howner'.trans howner, hlive'.trans hlive⟩
  · intro p process l lease' hp hpc hl' hlive'
    have hlt := hfrom p process l hp (by rw [hpc]; rfl)
    obtain ⟨lease'', hl'', _, hlive''⟩ := hkept l _ (List.getElem?_eq_getElem hlt)
    have he : lease'' = lease' := Option.some.inj (hl''.symm.trans hl')
    apply hw.present p process l _ hp hpc (List.getElem?_eq_getElem hlt)
    rw [← hlive'', he, hlive']

theorem Listing.lease_lt (hw : Listing cfg w) (p : Nat) (process : Process) (l : Nat)
    (hp : w.processes[p]? = some process) (hpc : process.pc.lease? = some l) : l < w.leases.length := by
  obtain ⟨lease, hl, _⟩ := hw.leased p process l hp hpc
  exact (List.getElem?_eq_some_iff.mp hl).1

theorem Listing.granted (hw : Listing cfg w) (p : Nat) : Listing cfg (w.granted cfg p) := by
  refine hw.leases ?_ hw.lease_lt ?_
  · intro l lease hl
    refine ⟨lease, ?_, rfl, rfl⟩
    rw [List.getElem?_append_left (List.getElem?_eq_some_iff.mp hl).1, hl]
  · intro lease hlease hdead
    rcases List.mem_append.mp hlease with hlease | hlease
    · exact hw.expired lease hlease hdead
    · rw [List.mem_singleton.mp hlease] at hdead
      cases hdead

theorem Listing.renewed {l : Nat} {lease : Lease} (hw : Listing cfg w) (hl : w.leases[l]? = some lease)
    (hlive : lease.live = true) : Listing cfg (w.renewed cfg l lease) := by
  have hlt := (List.getElem?_eq_some_iff.mp hl).1
  refine hw.leases ?_ hw.lease_lt ?_
  · intro l' lease' hl'
    by_cases hsame : l = l'
    · subst hsame
      have he : lease = lease' := Option.some.inj (hl.symm.trans hl')
      subst he
      exact ⟨_, List.getElem?_set_self hlt, rfl, rfl⟩
    · exact ⟨lease', by rw [List.getElem?_set_ne hsame, hl'], rfl, rfl⟩
  · intro lease' hlease' hdead
    rcases List.mem_or_eq_of_mem_set hlease' with hlease' | rfl
    · exact hw.expired lease' hlease' hdead
    · exact absurd hlive (by simpa using hdead)

theorem Listing.key_ne (hw : Listing cfg w) (hp : w.processes[p]? = some process) (hrun : process.running = true)
    (hq : w.processes[q]? = some other) (hother : other.running = true) (hne : q ≠ p) :
    other.key cfg ≠ process.key cfg := by
  intro hkey
  have hname := sameName_of_key (hw.plain other (List.mem_of_getElem? hq)) (hw.plain process (List.mem_of_getElem? hp)) hkey
  exact hne (hw.apart q p other process hq hp hother hrun hname)

theorem Listing.put {l : Nat} {lease : Lease} (hw : Listing cfg w) (hp : w.processes[p]? = some process)
    (hpc : process.pc = .put l) (hl : w.leases[l]? = some lease) (hlive : lease.live = true) :
    Listing cfg (w.put ⟨process.key cfg, process.value, some l⟩) := by
  refine ⟨hw.plain, hw.apart, hw.leased, ?_, ?_, hw.expired⟩
  · intro entry hentry
    rcases Table.mem_upsert.mp hentry with rfl | ⟨hentry, _⟩
    · obtain ⟨lease', hl', howner⟩ := hw.leased p process l hp (by rw [hpc]; rfl)
      have he : lease' = lease := Option.some.inj (hl'.symm.trans hl)
      exact ⟨p, process, l, lease, hp, rfl, hl, he ▸ howner, hlive⟩
    · exact hw.backed entry hentry
  · intro q other l' lease' hq hother hl' hlive'
    apply Table.mem_upsert.mpr
    refine Or.inr ⟨hw.present q other l' lease' hq hother hl' hlive', ?_⟩
    have hne : q ≠ p := by
      rintro rfl
      rw [Option.some.inj (hq.symm.trans hp), hpc] at hother
      cases hother
    exact hw.key_ne hp (by simp [Process.running, hpc]) hq (by simp [Process.running, hother]) hne

theorem Listing.filter (hw : Listing cfg w) {keep : KeyValue → Bool}
    (h : ∀ (p : Nat) (process : Process) (l : Nat) (lease : Lease), w.processes[p]? = some process → process.pc = .registered l → w.leases[l]? = some lease →
      lease.live = true → keep ⟨process.key cfg, process.value, some l⟩ = true) :
    Listing cfg { w with kv := w.kv.filterRows keep } := by
  refine ⟨hw.plain, hw.apart, hw.leased, ?_, ?_, hw.expired⟩
  · intro entry hentry
    exact hw.backed entry (Table.mem_filterRows.mp hentry).1
  · intro p process l lease hp hpc hl hlive
    exact Table.mem_filterRows.mpr ⟨hw.present p process l lease hp hpc hl hlive, h p process l lease hp hpc hl hlive⟩

theorem Listing.unregistered {l : Nat} (hw : Listing cfg w) (hp : w.processes[p]? = some process)
    (hpc : process.pc = .registered l) :
    Listing cfg ((w.delete (instanceKey cfg.serviceKeyPrefix process.configured.serviceName
      process.configured.instanceID)).setPC p process .exited) := by
  have hrun : process.running = true := by simp [Process.running, hpc]
  rw [← key_eq (hw.plain process (List.mem_of_getElem? hp)).1]
  apply (hw.exit hp hrun).filter
  intro q other l' lease hq hother _ _
  rcases setPC_cases hp hq with ⟨_, rfl⟩ | ⟨hne, hq⟩
  · cases hother
  · have hkey := hw.key_ne hp hrun hq (by simp [Process.running, hother]) hne
    simpa using hkey

theorem Listing.revoked {l : Nat} {lease : Lease} (hw : Listing cfg w) (hl : w.leases[l]? = some lease)
    (hdue : lease.expireAt ≤ w.clock) : Listing cfg (w.revoked l lease) := by
  have hlt := (List.getElem?_eq_some_iff.mp hl).1
  have hother {l' : Nat} (hne : l' ≠ l) : (w.revoked l lease).leases[l']? = w.leases[l']? :=
    List.getElem?_set_ne (Ne.symm hne)
  have hself : (w.revoked l lease).leases[l]? = some { lease with live := false } := List.getElem?_set_self hlt
  refine ⟨hw.plain, hw.apart, ?_, ?_, ?_, ?_⟩
  · intro p process l' hp hpc
    obtain ⟨lease', hl', howner⟩ := hw.leased p process l' hp hpc
    by_cases hsame : l' = l
    · subst hsame
      rw [hl] at hl'
      cases hl'
      exact ⟨_, hself, howner⟩
    · exact ⟨lease', (hother hsame).trans hl', howner⟩
  · intro entry hentry
    obtain ⟨hentry, hlease⟩ := Table.mem_filterRows.mp hentry
    obtain ⟨p, process, l', lease', hp, rfl, hl', howner, hlive⟩ := hw.backed entry hentry
    have hne : l' ≠ l := by simpa using hlease
    exact ⟨p, process, l', lease', hp, rfl, (hother hne).trans hl', howner, hlive⟩
  · intro p process l' lease' hp hpc hl' hlive
    have hne : l' ≠ l := by
      rintro rfl
      rw [hself] at hl'
      cases hl'
      cases hlive
    rw [hother hne] at hl'
    exact Table.mem_filterRows.mpr ⟨hw.present p process l' lease' hp hpc hl' hlive, by simpa using hne⟩
  · intro lease' hlease' hdead
    rcases List.mem_or_eq_of_mem_set hlease' with hlease' | rfl
    · exact hw.expired lease' hlease' hdead
    · exact hdue

theorem started_cases {configured : Instance} {now : Time}
    (h : (w.processes ++ [⟨configured, now, .grant⟩])[q]? = some other) :
    w.processes[q]? = some other ∨ (q = w.processes.length ∧ other = ⟨configured, now, .grant⟩) := by
  rw [List.getElem?_append] at h
  split_ifs at h with hlt
  · exact Or.inl h
  · obtain ⟨hq, he⟩ := List.getElem?_eq_some_iff.mp h
    simp only [List.length_singleton] at hq
    refine Or.inr ⟨by omega, ?_⟩
    rw [← he]
    simp

theorem Listing.started {configured : Instance} {now : Time} (hw : Listing cfg w)
    (hok : Orderly w (.start configured now)) :
    Listing cfg { w with processes := w.processes ++ [⟨configured, now, .grant⟩] } := by
  obtain ⟨hservice, hid, hfresh⟩ := hok
  have hlt {p : Nat} {process : Process} (hp : w.processes[p]? = some process) :
      (w.processes ++ [⟨configured, now, .grant⟩])[p]? = some process := by
    rw [List.getElem?_append_left (List.getElem?_eq_some_iff.mp hp).1, hp]
  refine ⟨?_, ?_, ?_, ?_, ?_, hw.expired⟩
  · intro process hprocess
    rcases List.mem_append.mp hprocess with hprocess | hprocess
    · exact hw.plain process hprocess
    · rw [List.mem_singleton.mp hprocess]
      exact ⟨hservice, hid⟩
  · intro p q x y hx hy hxrun hyrun hsame
    rcases started_cases hx with hx | ⟨rfl, rfl⟩ <;> rcases started_cases hy with hy | ⟨rfl, rfl⟩
    · exact hw.apart p q x y hx hy hxrun hyrun hsame
    · exact absurd hsame (hfresh x (List.mem_of_getElem? hx) hxrun)
    · exact absurd ⟨hsame.1.symm, hsame.2.symm⟩ (hfresh y (List.mem_of_getElem? hy) hyrun)
    · rfl
  · intro p process l hp hpc
    rcases started_cases hp with hp | ⟨_, rfl⟩
    · exact hw.leased p process l hp hpc
    · cases hpc
  · intro entry hentry
    obtain ⟨p, process, l, lease, hp, hrest⟩ := hw.backed entry hentry
    exact ⟨p, process, l, lease, hlt hp, hrest⟩
  · intro p process l lease hp hpc hl hlive
    rcases started_cases hp with hp | ⟨_, rfl⟩
    · exact hw.present p process l lease hp hpc hl hlive
    · cases hpc

theorem listing_step {label : Label} (hw : Listing cfg w) (hok : Orderly w label) (h : step cfg w label = some w') :
    Listing cfg w' := by
  cases step_moves h with
  | ticked hclock =>
    exact ⟨hw.plain, hw.apart, hw.leased, hw.backed, hw.present, fun lease hl hd => (hw.expired lease hl hd).trans hclock⟩
  | started => exact hw.started hok
  | left hp hrun => exact hw.exit hp hrun
  | @granted p process _ hp hpc pc hnext =>
    refine (hw.granted p).setPC hp (by simp [Process.running, hpc]) ?_ ?_
    · intro l hl
      rcases hnext with rfl | rfl
      · cases hl
        exact ⟨_, List.getElem?_concat_length, rfl⟩
      · cases hl
    · rintro l rfl
      rcases hnext with hnext | hnext <;> cases hnext
  | @put p process _ l lease hp hpc hl hlive pc hnext =>
    refine (hw.put hp hpc hl hlive).setPC hp (by simp [Process.running, hpc]) ?_ ?_
    · intro l' hl'
      rcases hnext with rfl | rfl
      · cases hl'
        exact hw.leased p process l hp (by rw [hpc]; rfl)
      · cases hl'
    · rintro l' rfl
      rcases hnext with hnext | hnext <;> cases hnext
      exact Table.mem_upsert.mpr (Or.inl rfl)
  | renewed hp hpc hl hlive => exact hw.renewed hl hlive
  | idle => exact hw
  | unregistered hp hpc => exact hw.unregistered hp hpc
  | revoked hl hlive hdue => exact hw.revoked hl hdue
  | calls updates => exact ⟨hw.plain, hw.apart, hw.leased, hw.backed, hw.present, hw.expired⟩
  | updated hu hpc updates => exact hok.elim

theorem listing_init (cfg : Config) (clock : Time) : Listing cfg (World.init clock) :=
  ⟨fun _ h => (by cases h), fun _ _ _ _ h => (by cases h), fun _ _ _ h => (by cases h), fun _ h => (by cases h),
    fun _ _ _ _ h => (by cases h), fun _ h => (by cases h)⟩

theorem listing_run {labels : List Label} (hw : Listing cfg w) (hg : Guarded (step cfg) Orderly w labels)
    (h : run (step cfg) w labels = some w') : Listing cfg w' :=
  guarded_invariant (fun _ _ _ hs hok hl => listing_step hs hok hl) hw hg h

end Steps

section Reading

variable {cfg : Config} {w : World} {service : String}

theorem Listing.entry_service (hw : Listing cfg w) (hs : Plain service) {entry : KeyValue} (hentry : entry ∈ w.kv.rows) :
    ∃ p process, Backed cfg w entry p ∧ w.processes[p]? = some process ∧ entry.value = process.value ∧
      entry.key = instanceKey cfg.serviceKeyPrefix process.value.serviceName process.value.instanceID ∧
      ((servicePrefix cfg.serviceKeyPrefix service).toList <+: entry.key.toList ↔ process.value.serviceName = service) := by
  obtain ⟨p, process, l, lease, hp, rfl, hrest⟩ := hw.backed entry hentry
  obtain ⟨hname, hid⟩ := hw.plain process (List.mem_of_getElem? hp)
  refine ⟨p, process, ⟨process, l, lease, hp, rfl, hrest⟩, hp, rfl, rfl, ?_⟩
  rw [key_eq hname, prefix_iff_service hs hname hid, value_serviceName hname]
  exact eq_comm

theorem Listing.mem_listReady (hw : Listing cfg w) (hs : Plain service) {value : Instance} :
    value ∈ listReady cfg.serviceKeyPrefix w.kv service ↔
      value.serviceName = service ∧ value.status = "ready" ∧ ∃ entry ∈ w.kv.rows, entry.value = value := by
  rw [Registry.mem_listReady]
  constructor
  · rintro ⟨entry, hentry, hstart, rfl, hready⟩
    obtain ⟨p, process, _, _, hvalue, _, hiff⟩ := hw.entry_service hs hentry
    rw [hvalue] at hready ⊢
    exact ⟨hiff.mp hstart, hready, entry, hentry, hvalue⟩
  · rintro ⟨hservice, hready, entry, hentry, rfl⟩
    obtain ⟨p, process, _, _, hvalue, _, hiff⟩ := hw.entry_service hs hentry
    rw [hvalue] at hservice
    exact ⟨entry, hentry, hiff.mpr hservice, rfl, hready⟩

theorem Listing.listed_once (hw : Listing cfg w) (hs : Plain service) :
    ((listReady cfg.serviceKeyPrefix w.kv service).map Instance.instanceID).Nodup := by
  -- one instance an id: two entries of a service with one id have one key
  let rows := w.kv.rows.filter fun entry =>
    (servicePrefix cfg.serviceKeyPrefix service).toList.isPrefixOf entry.key.toList
  have hrows : (rows.map fun entry => entry.value.instanceID).Nodup := by
    have hnodup : rows.Nodup := List.Nodup.filter _ (List.Nodup.of_map _ w.kv.unique)
    apply List.Nodup.map_on ?_ hnodup
    intro a ha b hb hid
    obtain ⟨ha, hastart⟩ := List.mem_filter.mp ha
    obtain ⟨hb, hbstart⟩ := List.mem_filter.mp hb
    obtain ⟨p, process, _, _, hvalue, hkey, hiff⟩ := hw.entry_service hs ha
    obtain ⟨q, other, _, _, hvalue', hkey', hiff'⟩ := hw.entry_service hs hb
    rw [hvalue, hvalue'] at hid
    apply w.kv.row_unique ha hb
    rw [hkey, hkey', hiff.mp (List.isPrefixOf_iff_prefix.mp hastart), hid,
      hiff'.mp (List.isPrefixOf_iff_prefix.mp hbstart)]
  have hsorted : ((getPrefix w.kv (servicePrefix cfg.serviceKeyPrefix service)).map
      fun entry => entry.value.instanceID).Nodup :=
    ((List.perm_insertionSort _ rows).map _).nodup_iff.mpr hrows
  rw [show (fun entry : KeyValue => entry.value.instanceID) = Instance.instanceID ∘ KeyValue.value from rfl,
    ← List.map_map] at hsorted
  exact (List.filter_sublist.map _).nodup hsorted

end Reading

theorem registry_lists_registered {cfg : Config} {clock : Time} {labels : List Label} {w : World}
    (hg : Guarded (step cfg) Orderly (World.init clock) labels) (h : run (step cfg) (World.init clock) labels = some w)
    {service : String} (hs : Plain service) :
    (∀ value ∈ listReady cfg.serviceKeyPrefix w.kv service, value.serviceName = service ∧
      ∃ (p : Nat) (process : Process) (l : Nat) (lease : Lease), w.processes[p]? = some process ∧
        process.value = value ∧ w.leases[l]? = some lease ∧ lease.owner = p ∧ lease.live = true) ∧
    (∀ (p : Nat) (process : Process) (l : Nat) (lease : Lease), w.processes[p]? = some process →
      process.pc = .registered l → w.leases[l]? = some lease → lease.live = true →
      process.value.serviceName = service → process.value.status = "ready" →
      process.value ∈ listReady cfg.serviceKeyPrefix w.kv service) ∧
    ((listReady cfg.serviceKeyPrefix w.kv service).map Instance.instanceID).Nodup ∧
    ∀ lease ∈ w.leases, lease.live = false → lease.expireAt ≤ w.clock := by
  have hw := listing_run (listing_init cfg clock) hg h
  refine ⟨?_, ?_, hw.listed_once hs, hw.expired⟩
  · intro value hvalue
    obtain ⟨hservice, _, entry, hentry, hvalue⟩ := (hw.mem_listReady hs).mp hvalue
    obtain ⟨p, process, l, lease, hp, rfl, hrest⟩ := hw.backed entry hentry
    exact ⟨hservice, p, process, l, lease, hp, hvalue, hrest⟩
  · intro p process l lease hp hpc hl hlive hservice hready
    apply (hw.mem_listReady hs).mpr
    exact ⟨hservice, hready, _, hw.present p process l lease hp hpc hl hlive, rfl⟩

def playerServer : Instance := ⟨"playersrv", "p1", "10.0.0.1:9000", "10.0.0.1:9000", "", "", 0, "", "", 0⟩

def defaultConfig : Config := ⟨"/rh/services", 10 * second, 2 * second⟩

def registration (p : Nat) (configured : Instance) (now : Time) : List Label :=
  [.start configured now, .process p (.grant .ok), .process p (.put .ok)]

def registeredWorld : World :=
  (run (step defaultConfig) (World.init 0) (registration 0 playerServer 5)).get (by rfl)

theorem registeredWorld_run :
    run (step defaultConfig) (World.init 0) (registration 0 playerServer 5) = some registeredWorld :=
  (Option.some_get _).symm

theorem registeredWorld_listed : playerServer.prepared 5 ∈ listReady "/rh/services" registeredWorld.kv "playersrv" :=
  (registry_lists_registered (by decide +kernel) registeredWorld_run (by decide +kernel)).2.1 0
    ⟨playerServer, 5, .registered 0⟩ 0 ⟨0, 10 * second, true⟩ rfl rfl rfl rfl rfl rfl

end GlobalMailSystem.Registry
