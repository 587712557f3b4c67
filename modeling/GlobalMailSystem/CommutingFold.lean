import Mathlib.Data.List.Perm.Basic

/-!
Folds of a function whose steps commute and absorb repetition: only which steps are taken matters, not
their order or how often each is taken.
-/

namespace GlobalMailSystem

namespace CommutingFold

variable {α β : Type}

structure Commutes (f : β → α → β) (P : α → Prop) : Prop where
  swap : ∀ a c, P a → P c → ∀ b, f (f b a) c = f (f b c) a
  repeated : ∀ a, P a → ∀ b, f (f b a) a = f b a

variable {f : β → α → β} {P : α → Prop}

theorem foldl_perm (hf : Commutes f P) {l l' : List α} (hl : ∀ a ∈ l, P a) (h : l.Perm l') (b : β) :
    l.foldl f b = l'.foldl f b :=
  h.foldl_eq' (fun a ha c hc b => hf.swap a c (hl a ha) (hl c hc) b) b

theorem foldl_absorbs (hf : Commutes f P) {l : List α} (hl : ∀ a ∈ l, P a) {a : α} (ha : a ∈ l) (b : β) :
    f (l.foldl f b) a = l.foldl f b := by
  obtain ⟨s, t, rfl⟩ := List.append_of_mem ha
  have hlast : (s ++ a :: t).Perm ((s ++ t) ++ [a]) := by
    rw [List.append_assoc]
    exact (List.perm_append_singleton a t).symm.append_left s
  rw [foldl_perm hf hl hlast, List.foldl_append, List.foldl_cons, List.foldl_nil]
  exact hf.repeated a (hl a ha) _

theorem foldl_append_absorbs (hf : Commutes f P) {l l' : List α} (hl : ∀ a ∈ l, P a)
    (h : ∀ a ∈ l', a ∈ l) (b : β) : (l ++ l').foldl f b = l.foldl f b := by
  rw [List.foldl_append]
  induction l' with
  | nil => rfl
  | cons a l' ih =>
    rw [List.foldl_cons, foldl_absorbs hf hl (h a List.mem_cons_self)]
    exact ih fun c hc => h c (List.mem_cons_of_mem a hc)

theorem foldl_eq_of_mem_iff (hf : Commutes f P) {l l' : List α} (hl : ∀ a ∈ l, P a)
    (h : ∀ a, a ∈ l ↔ a ∈ l') (b : β) : l.foldl f b = l'.foldl f b := by
  have hl' : ∀ a ∈ l', P a := fun a ha => hl a ((h a).mpr ha)
  have hboth : ∀ a ∈ l ++ l', P a := by
    intro a ha
    exact hl a ((List.mem_append.mp ha).elim id (h a).mpr)
  calc l.foldl f b
      = (l ++ l').foldl f b := (foldl_append_absorbs hf hl (fun a => (h a).mpr) b).symm
    _ = (l' ++ l).foldl f b := foldl_perm hf hboth List.perm_append_comm b
    _ = l'.foldl f b := foldl_append_absorbs hf hl' (fun a => (h a).mp) b

end CommutingFold

end GlobalMailSystem
