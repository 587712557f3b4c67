import Mathlib.Data.List.Sort
import Mathlib.Data.List.GetD
import Mathlib.Data.Set.Defs

/-!
Binary search as in `sort.Search`, and the entry a position on a ring is sent to: the first one at or
after it, or the least one of all when the ring ends before.
-/

namespace GlobalMailSystem

namespace HashRing

/-- The loop of `sort.Search` on `[i, j)`. The interval gets shorter in every round, so `fuel` is
enough when it is not below the length. -/
def searchLoop (p : Nat → Bool) : Nat → Nat → Nat → Nat
  | 0, i, _ => i
  | fuel + 1, i, j =>
    if i < j then
      if p ((i + j) / 2) then searchLoop p fuel i ((i + j) / 2)
      else searchLoop p fuel ((i + j) / 2 + 1) j
    else i

def search (n : Nat) (p : Nat → Bool) : Nat := searchLoop p n 0 n

def Brackets (p : Nat → Bool) (n i j : Nat) : Prop :=
  i ≤ j ∧ j ≤ n ∧ (∀ k < i, p k = false) ∧ ∀ k, j ≤ k → k < n → p k = true

theorem searchLoop_brackets {p : Nat → Bool} {n : Nat}
    (hmono : ∀ a b, a ≤ b → b < n → p a = true → p b = true) (fuel i j : Nat) (hfuel : j - i ≤ fuel)
    (h : Brackets p n i j) : Brackets p n (searchLoop p fuel i j) (searchLoop p fuel i j) := by
  fun_induction searchLoop p fuel i j with
  | case1 i j =>
    have he : i = j := by have := h.1; omega
    exact he ▸ h
  | case2 fuel i j hlt hp ih =>
    obtain ⟨_, hjn, hlow, _⟩ := h
    apply ih (by omega)
    exact ⟨by omega, by omega, hlow, fun k hk hkn => hmono _ k hk hkn hp⟩
  | case3 fuel i j hlt hp ih =>
    obtain ⟨_, hjn, _, hhigh⟩ := h
    apply ih (by omega)
    refine ⟨by omega, hjn, fun k hk => ?_, hhigh⟩
    -- a true value at `k` would carry over to the midpoint
    by_contra hpk
    exact hp (hmono k _ (by omega) (by omega) (by simpa using hpk))
  | case4 fuel i j hlt =>
    have he : i = j := by have := h.1; omega
    exact he ▸ h

theorem search_brackets {p : Nat → Bool} {n : Nat}
    (hmono : ∀ a b, a ≤ b → b < n → p a = true → p b = true) :
    Brackets p n (search n p) (search n p) := by
  apply searchLoop_brackets hmono
  · omega
  · exact ⟨Nat.zero_le n, le_refl n, fun k hk => absurd hk (Nat.not_lt_zero k), fun k hk hkn => by omega⟩

variable {α : Type} [LinearOrder α]

def NoLater (x y z : α) : Prop := (x ≤ y ∧ (x ≤ z → y ≤ z)) ∨ (z < x ∧ y ≤ z)

theorem NoLater.antisymm {x y z : α} (hyz : NoLater x y z) (hzy : NoLater x z y) : y = z := by
  rcases hyz with ⟨hxy, hyz⟩ | ⟨hzx, hyz⟩
  · rcases hzy with ⟨hxz, hzy⟩ | ⟨hyx, _⟩
    · exact le_antisymm (hyz hxz) (hzy hxy)
    · exact absurd hyx (not_lt.mpr hxy)
  · rcases hzy with ⟨hxz, _⟩ | ⟨_, hzy⟩
    · exact absurd hzx (not_lt.mpr hxz)
    · exact le_antisymm hyz hzy

def IsSuccessor (S : Set α) (x y : α) : Prop := y ∈ S ∧ ∀ z ∈ S, NoLater x y z

theorem IsSuccessor.unique {S : Set α} {x y z : α} (hy : IsSuccessor S x y) (hz : IsSuccessor S x z) :
    y = z :=
  (hy.2 z hz.1).antisymm (hz.2 y hy.1)

theorem IsSuccessor.of_subset {S T : Set α} {x y : α} (h : IsSuccessor T x y) (hST : ∀ z ∈ S, z ∈ T)
    (hy : y ∈ S) : IsSuccessor S x y :=
  ⟨hy, fun z hz => h.2 z (hST z hz)⟩

theorem IsSuccessor.least {S : Set α} {x y : α} (h : IsSuccessor S x y) :
    (x ≤ y ∧ ∀ z ∈ S, x ≤ z → y ≤ z) ∨ ((∀ z ∈ S, z < x) ∧ ∀ z ∈ S, y ≤ z) := by
  by_cases hxy : x ≤ y
  · refine Or.inl ⟨hxy, fun z hz hxz => ?_⟩
    apply (h.2 z hz).elim
    · exact fun hle => hle.2 hxz
    · exact fun hle => hle.2
  · have hbefore : ∀ z ∈ S, z < x ∧ y ≤ z := fun z hz => (h.2 z hz).resolve_left fun hle => hxy hle.1
    exact Or.inr ⟨fun z hz => (hbefore z hz).1, fun z hz => (hbefore z hz).2⟩

def clockwise (ring : List α) (d x : α) : Nat :=
  let idx := search ring.length fun i => x ≤ ring.getD i d
  if idx = ring.length then 0 else idx

theorem getD_mono {ring : List α} (hsorted : ring.Pairwise (· ≤ ·)) (d : α) {i j : Nat} (hij : i ≤ j)
    (hj : j < ring.length) : ring.getD i d ≤ ring.getD j d := by
  rcases Nat.lt_or_eq_of_le hij with hlt | rfl
  · rw [List.getD_eq_getElem _ _ (hlt.trans hj), List.getD_eq_getElem _ _ hj]
    exact List.pairwise_iff_getElem.mp hsorted i j (hlt.trans hj) hj hlt
  · exact le_refl _

theorem clockwise_isSuccessor {ring : List α} (hsorted : ring.Pairwise (· ≤ ·)) (hne : ring ≠ [])
    (d x : α) : IsSuccessor {y | y ∈ ring} x (ring.getD (clockwise ring d x) d) := by
  have hpos : 0 < ring.length := List.length_pos_iff.mpr hne
  have hmem : ∀ i < ring.length, ring.getD i d ∈ ring := by
    intro i hi
    rw [List.getD_eq_getElem _ _ hi]
    exact List.getElem_mem hi
  obtain ⟨_, hle, hlow, hhigh⟩ := search_brackets (p := fun i => decide (x ≤ ring.getD i d)) (n := ring.length)
    (fun a b hab hb ha => by
      simp only [decide_eq_true_eq] at ha ⊢
      exact ha.trans (getD_mono hsorted d hab hb))
  simp only [decide_eq_false_iff_not, not_le, decide_eq_true_eq] at hlow hhigh
  simp only [clockwise]
  split_ifs with hend
  · -- every entry lies before `x`
    refine ⟨hmem 0 hpos, fun z hz => Or.inr ?_⟩
    obtain ⟨k, hk, rfl⟩ := List.mem_iff_getElem.mp hz
    rw [← List.getD_eq_getElem ring d hk]
    exact ⟨hlow k (by omega), getD_mono hsorted d (Nat.zero_le k) hk⟩
  · have hlt := lt_of_le_of_ne hle hend
    refine ⟨hmem _ hlt, fun z hz => Or.inl ⟨hhigh _ (le_refl _) hlt, fun hxz => ?_⟩⟩
    obtain ⟨k, hk, rfl⟩ := List.mem_iff_getElem.mp hz
    rw [← List.getD_eq_getElem ring d hk] at hxz ⊢
    apply getD_mono hsorted d _ hk
    by_contra hbelow
    exact absurd hxz (not_le.mpr (hlow k (by omega)))

end HashRing

end GlobalMailSystem
