import Mathlib.Algebra.Ring.Nat
import Mathlib.Data.List.Nodup

namespace GlobalMailSystem

/-- Rows of one database table; `unique` is its primary key constraint. -/
structure Table {ρ κ : Type} (key : ρ → κ) where
  rows : List ρ
  unique : (rows.map key).Nodup

namespace Table

variable {ρ κ : Type} {key : ρ → κ}

def empty : Table key := ⟨[], List.nodup_nil⟩

theorem row_unique (t : Table key) {r s : ρ} (hr : r ∈ t.rows) (hs : s ∈ t.rows)
    (h : key r = key s) : r = s :=
  List.inj_on_of_nodup_map t.unique hr hs h

def mapRows (t : Table key) (f : ρ → ρ) (hf : ∀ r, key (f r) = key r) : Table key :=
  ⟨t.rows.map f, by
    have he : (t.rows.map f).map key = t.rows.map key := by simp [Function.comp_def, hf]
    exact he ▸ t.unique⟩

theorem mem_mapRows {t : Table key} {f : ρ → ρ} {hf : ∀ r, key (f r) = key r} {r : ρ} :
    r ∈ (t.mapRows f hf).rows ↔ ∃ s ∈ t.rows, f s = r := by
  simp [mapRows]

def filterRows (t : Table key) (p : ρ → Bool) : Table key :=
  ⟨t.rows.filter p, (List.filter_sublist.map key).nodup t.unique⟩

theorem mem_filterRows {t : Table key} {p : ρ → Bool} {r : ρ} :
    r ∈ (t.filterRows p).rows ↔ r ∈ t.rows ∧ p r = true :=
  List.mem_filter

variable [DecidableEq κ]

def find? (t : Table key) (k : κ) : Option ρ := t.rows.find? fun r => key r = k

def insert (t : Table key) (r : ρ) : Option (Table key) :=
  if h : key r ∈ t.rows.map key then none
  else some ⟨t.rows ++ [r], by
    rw [List.map_append, List.nodup_append]
    refine ⟨t.unique, by simp, ?_⟩
    intro a ha b hb hab
    simp only [List.map_cons, List.map_nil, List.mem_singleton] at hb
    exact h (hb ▸ hab ▸ ha)⟩

def insertIgnore (t : Table key) (r : ρ) : Table key × Bool :=
  match t.insert r with
  | none => (t, false)
  | some t' => (t', true)

def updateWhere (t : Table key) (k : κ) (f : ρ → ρ) (hf : ∀ r, key (f r) = key r) : Table key :=
  t.mapRows (fun r => if key r = k then f r else r) (fun r => by split <;> simp [hf])

def upsert (t : Table key) (r : ρ) : Table key :=
  match t.insert r with
  | some t' => t'
  | none => t.mapRows (fun s => if key s = key r then r else s) (fun s => by
      split
      · exact Eq.symm ‹key s = key r›
      · rfl)

theorem find?_eq_some {t : Table key} {k : κ} {r : ρ} :
    t.find? k = some r ↔ r ∈ t.rows ∧ key r = k := by
  constructor
  · intro h
    exact ⟨List.mem_of_find?_eq_some h, by simpa using List.find?_some h⟩
  · rintro ⟨hr, hk⟩
    cases hf : t.find? k with
    | none =>
      have := List.find?_eq_none.mp hf r hr
      simp [hk] at this
    | some s =>
      have hs : s ∈ t.rows := List.mem_of_find?_eq_some hf
      have hks : key s = k := by simpa using List.find?_some hf
      rw [t.row_unique hr hs (hk.trans hks.symm)]

theorem find?_eq_none {t : Table key} {k : κ} :
    t.find? k = none ↔ ∀ r ∈ t.rows, key r ≠ k := by
  simp [find?]

theorem insert_eq_none {t : Table key} {r : ρ} :
    t.insert r = none ↔ ∃ s ∈ t.rows, key s = key r := by
  simp [insert]

theorem insert_eq_some {t t' : Table key} {r : ρ} (h : t.insert r = some t') :
    t'.rows = t.rows ++ [r] ∧ ∀ s ∈ t.rows, key s ≠ key r := by
  unfold insert at h
  split_ifs at h with hk
  simp only [Option.some.injEq] at h
  refine ⟨h ▸ rfl, fun s hs he => hk ?_⟩
  exact he ▸ List.mem_map_of_mem hs

def insertAll (t : Table key) (rs : List ρ) : Option (Table key) := rs.foldlM insert t

theorem insertAll_eq_some {t t' : Table key} {rs : List ρ} (h : t.insertAll rs = some t') :
    t'.rows = t.rows ++ rs := by
  induction rs generalizing t with
  | nil => simp_all [insertAll]
  | cons r rs ih =>
    simp only [insertAll, List.foldlM_cons, Option.bind_eq_bind, Option.bind_eq_some_iff] at h
    obtain ⟨u, hu, hrest⟩ := h
    rw [ih hrest, (insert_eq_some hu).1, List.append_assoc]
    rfl

theorem mem_insert {t t' : Table key} {r s : ρ} (h : t.insert r = some t') :
    s ∈ t'.rows ↔ s ∈ t.rows ∨ s = r := by
  rw [(insert_eq_some h).1]
  simp

theorem mem_insertIgnore {t : Table key} {r s : ρ} :
    s ∈ (t.insertIgnore r).1.rows ↔ s ∈ t.rows ∨ (s = r ∧ ∀ x ∈ t.rows, key x ≠ key r) := by
  unfold insertIgnore
  cases h : t.insert r with
  | none =>
    obtain ⟨x, hx, he⟩ := insert_eq_none.mp h
    constructor
    · exact Or.inl
    · rintro (hs | ⟨_, hn⟩)
      · exact hs
      · exact absurd he (hn x hx)
  | some t' =>
    simp only [mem_insert h]
    have hn := (insert_eq_some h).2
    constructor
    · rintro (hs | rfl)
      · exact Or.inl hs
      · exact Or.inr ⟨rfl, hn⟩
    · rintro (hs | ⟨rfl, _⟩)
      · exact Or.inl hs
      · exact Or.inr rfl

theorem insertIgnore_added {t : Table key} {r : ρ} :
    (t.insertIgnore r).2 = true ↔ ∀ x ∈ t.rows, key x ≠ key r := by
  unfold insertIgnore
  cases h : t.insert r with
  | none =>
    obtain ⟨x, hx, he⟩ := insert_eq_none.mp h
    simp only [Bool.false_eq_true, false_iff, not_forall]
    exact ⟨x, hx, fun hn => hn he⟩
  | some t' => simp only [true_iff]; exact (insert_eq_some h).2

theorem mem_updateWhere {t : Table key} {k : κ} {f : ρ → ρ} {hf : ∀ r, key (f r) = key r} {r : ρ} :
    r ∈ (t.updateWhere k f hf).rows ↔
      (r ∈ t.rows ∧ key r ≠ k) ∨ ∃ s ∈ t.rows, key s = k ∧ f s = r := by
  simp only [updateWhere, mem_mapRows]
  constructor
  · rintro ⟨s, hs, he⟩
    split_ifs at he with hk
    · exact Or.inr ⟨s, hs, hk, he⟩
    · exact Or.inl (he ▸ ⟨hs, hk⟩)
  · rintro (⟨hr, hk⟩ | ⟨s, hs, hk, he⟩)
    · exact ⟨r, hr, if_neg hk⟩
    · exact ⟨s, hs, (if_pos hk).trans he⟩

theorem find?_of_mem_iff {t t' : Table key} {k : κ}
    (h : ∀ r, key r = k → (r ∈ t'.rows ↔ r ∈ t.rows)) : t'.find? k = t.find? k := by
  apply Option.ext
  intro r
  rw [find?_eq_some, find?_eq_some]
  constructor
  · rintro ⟨hr, hk⟩
    exact ⟨(h r hk).mp hr, hk⟩
  · rintro ⟨hr, hk⟩
    exact ⟨(h r hk).mpr hr, hk⟩

theorem find?_mapRows {t : Table key} {f : ρ → ρ} (hf : ∀ r, key (f r) = key r) {k : κ} :
    (t.mapRows f hf).find? k = (t.find? k).map f := by
  apply Option.ext
  intro r
  rw [find?_eq_some, mem_mapRows, Option.map_eq_some_iff]
  constructor
  · rintro ⟨⟨s, hs, rfl⟩, hk⟩
    exact ⟨s, find?_eq_some.mpr ⟨hs, (hf s).symm.trans hk⟩, rfl⟩
  · rintro ⟨s, hs, rfl⟩
    obtain ⟨hs, hk⟩ := find?_eq_some.mp hs
    exact ⟨⟨s, hs, rfl⟩, (hf s).trans hk⟩

theorem find?_insertIgnore {t : Table key} {r : ρ} {k : κ} :
    (t.insertIgnore r).1.find? k =
      if key r = k then some ((t.find? k).getD r) else t.find? k := by
  split_ifs with hk
  · rw [find?_eq_some, mem_insertIgnore]
    cases hf : t.find? k with
    | none =>
      have hn := find?_eq_none.mp hf
      exact ⟨Or.inr ⟨rfl, fun x hx => hk ▸ hn x hx⟩, hk⟩
    | some s =>
      obtain ⟨hs, hks⟩ := find?_eq_some.mp hf
      exact ⟨Or.inl hs, hks⟩
  · apply find?_of_mem_iff
    intro s hs
    rw [mem_insertIgnore]
    constructor
    · rintro (h | ⟨rfl, _⟩)
      · exact h
      · exact absurd hs hk
    · exact Or.inl

theorem insertIgnore_added_iff {t : Table key} {r : ρ} :
    (t.insertIgnore r).2 = (t.find? (key r)).isNone := by
  rw [Bool.eq_iff_iff, insertIgnore_added, Option.isNone_iff_eq_none, find?_eq_none]

theorem find?_updateWhere {t : Table key} {k k' : κ} {f : ρ → ρ} {hf : ∀ r, key (f r) = key r} :
    (t.updateWhere k f hf).find? k' = if k' = k then (t.find? k').map f else t.find? k' := by
  split_ifs with hk
  · apply Option.ext
    intro r
    rw [find?_eq_some, mem_updateWhere, Option.map_eq_some_iff]
    constructor
    · rintro ⟨⟨_, hne⟩ | ⟨s, hs, hks, rfl⟩, hr⟩
      · exact absurd (hr.trans hk) hne
      · exact ⟨s, find?_eq_some.mpr ⟨hs, hks.trans hk.symm⟩, rfl⟩
    · rintro ⟨s, hs, rfl⟩
      obtain ⟨hs, hks⟩ := find?_eq_some.mp hs
      exact ⟨Or.inr ⟨s, hs, hks.trans hk, rfl⟩, (hf s).trans hks⟩
  · apply find?_of_mem_iff
    intro r hr
    rw [mem_updateWhere]
    constructor
    · rintro (⟨h, _⟩ | ⟨s, _, hks, rfl⟩)
      · exact h
      · exact absurd (hr.symm.trans ((hf s).trans hks)) hk
    · exact fun h => Or.inl ⟨h, fun he => hk (hr.symm.trans he)⟩

theorem mem_upsert {t : Table key} {r s : ρ} :
    s ∈ (t.upsert r).rows ↔ s = r ∨ (s ∈ t.rows ∧ key s ≠ key r) := by
  unfold upsert
  cases h : t.insert r with
  | some t' =>
    have hn := (insert_eq_some h).2
    simp only [mem_insert h]
    constructor
    · rintro (hs | rfl)
      · exact Or.inr ⟨hs, hn s hs⟩
      · exact Or.inl rfl
    · rintro (rfl | ⟨hs, _⟩)
      · exact Or.inr rfl
      · exact Or.inl hs
  | none =>
    obtain ⟨x, hx, he⟩ := insert_eq_none.mp h
    simp only [mem_mapRows]
    constructor
    · rintro ⟨y, hy, hys⟩
      split_ifs at hys with hk
      · exact Or.inl hys.symm
      · exact Or.inr (hys ▸ ⟨hy, hk⟩)
    · rintro (rfl | ⟨hs, hk⟩)
      · exact ⟨x, hx, if_pos he⟩
      · exact ⟨s, hs, if_neg hk⟩

theorem find?_upsert {t : Table key} {r : ρ} {k : κ} :
    (t.upsert r).find? k = if k = key r then some r else t.find? k := by
  split_ifs with hk
  · exact find?_eq_some.mpr ⟨mem_upsert.mpr (Or.inl rfl), hk.symm⟩
  · apply find?_of_mem_iff
    intro s hs
    rw [mem_upsert]
    constructor
    · rintro (rfl | ⟨h, -⟩)
      · exact absurd hs.symm hk
      · exact h
    · exact fun h => Or.inr ⟨h, fun he => hk (hs.symm.trans he)⟩

theorem sum_replaced {rows : List ρ} (hu : (rows.map key).Nodup) {x : ρ} (hx : x ∈ rows) (r : ρ) (f : ρ → Nat) :
    ((rows.map fun s => if key s = key x then r else s).map f).sum + f x = (rows.map f).sum + f r := by
  induction rows with
  | nil => cases hx
  | cons y rows ih =>
    rw [List.map_cons, List.nodup_cons] at hu
    simp only [List.map_cons, List.sum_cons]
    rcases List.mem_cons.mp hx with rfl | hx
    · have hsame : (rows.map fun s => if key s = key x then r else s) = rows.map id := by
        apply List.map_congr_left
        intro s hs
        apply if_neg
        intro he
        exact hu.1 (he ▸ List.mem_map_of_mem hs)
      rw [hsame, if_pos rfl, List.map_id]
      omega
    · have hne : key y ≠ key x := fun he => hu.1 (he ▸ List.mem_map_of_mem hx)
      have hrest := ih hu.2 hx
      rw [if_neg hne]
      omega

theorem sum_upsert (t : Table key) (r : ρ) (f : ρ → Nat) :
    ((t.upsert r).rows.map f).sum + (t.find? (key r)).elim 0 f = (t.rows.map f).sum + f r := by
  unfold upsert
  cases h : t.insert r with
  | some t' =>
    obtain ⟨hrows, hnew⟩ := insert_eq_some h
    rw [find?_eq_none.mpr hnew]
    simp [hrows]
  | none =>
    obtain ⟨x, hx, he⟩ := insert_eq_none.mp h
    rw [find?_eq_some.mpr ⟨hx, he⟩]
    simp only [mapRows, ← he, Option.elim_some]
    exact sum_replaced t.unique hx r f

end Table

end GlobalMailSystem
