import Mathlib

namespace GlobalMailSystem.DecimalKey

def colonJoin (a b c : Int) : String := toString a ++ ":" ++ toString b ++ ":" ++ toString c

theorem colon_not_mem_nat (n : Nat) : ':' ∉ n.repr.toList := by
  intro h
  rw [Nat.toList_repr] at h
  have hd := Nat.isDigit_of_mem_toDigits (by omega) (by omega) h
  simp at hd

theorem colon_not_mem (n : Int) : ':' ∉ (toString n).toList := by
  rw [Int.toString_eq_repr, Int.repr_eq_if]
  split_ifs
  · exact colon_not_mem_nat _
  · rw [String.toList_append, List.mem_append]
    rintro (h | h)
    · simp at h
    · exact colon_not_mem_nat _ h

theorem toString_injective {a b : Int} (h : (toString a).toList = (toString b).toList) : a = b := by
  have he : toString a = toString b := String.toList_inj.mp h
  rw [Int.toString_eq_repr, Int.toString_eq_repr] at he
  exact Int.repr_injective he

theorem separator_split {α : Type} {x : α} {as bs as' bs' : List α} (ha : x ∉ as) (ha' : x ∉ as')
    (h : as ++ x :: bs = as' ++ x :: bs') : as = as' ∧ bs = bs' := by
  induction as generalizing as' with
  | nil =>
    cases as' with
    | nil => simpa using h
    | cons y ys =>
      simp only [List.nil_append, List.cons_append, List.cons.injEq] at h
      exact absurd (h.1 ▸ List.mem_cons_self) ha'
  | cons y as ih =>
    cases as' with
    | nil =>
      simp only [List.nil_append, List.cons_append, List.cons.injEq] at h
      exact absurd (h.1 ▸ List.mem_cons_self) ha
    | cons z zs =>
      simp only [List.cons_append, List.cons.injEq] at h
      obtain ⟨htail, hrest⟩ := ih (fun hx => ha (List.mem_cons_of_mem _ hx))
        (fun hx => ha' (List.mem_cons_of_mem _ hx)) h.2
      exact ⟨by rw [h.1, htail], hrest⟩

theorem colonJoin_toList (a b c : Int) :
    (colonJoin a b c).toList =
      (toString a).toList ++ ':' :: ((toString b).toList ++ ':' :: (toString c).toList) := by
  simp only [colonJoin, String.toList_append, List.append_assoc]
  rfl

theorem colonJoin_inj {a b c a' b' c' : Int} (h : colonJoin a b c = colonJoin a' b' c') :
    a = a' ∧ b = b' ∧ c = c' := by
  have hl := congrArg String.toList h
  rw [colonJoin_toList, colonJoin_toList] at hl
  obtain ⟨ha, hl⟩ := separator_split (colon_not_mem a) (colon_not_mem a') hl
  obtain ⟨hb, hc⟩ := separator_split (colon_not_mem b) (colon_not_mem b') hl
  exact ⟨toString_injective ha, toString_injective hb, toString_injective hc⟩

def labelled (name : List Char) : Option (List Char) → List Char
  | none => name
  | some argument => name ++ ':' :: argument

theorem labelled_inj {name name' : List Char} {argument argument' : Option (List Char)} (hname : ':' ∉ name)
    (hname' : ':' ∉ name') (h : labelled name argument = labelled name' argument') :
    name = name' ∧ argument = argument' := by
  cases argument with
  | none =>
    cases argument' with
    | none => exact ⟨h, rfl⟩
    | some text =>
      have h : name = name' ++ ':' :: text := h
      exact absurd (h ▸ List.mem_append_right _ List.mem_cons_self) hname
  | some text =>
    cases argument' with
    | none =>
      have h : name ++ ':' :: text = name' := h
      exact absurd (h ▸ List.mem_append_right _ List.mem_cons_self) hname'
    | some text' =>
      obtain ⟨hnames, hrest⟩ := separator_split hname hname' h
      exact ⟨hnames, congrArg some hrest⟩

end GlobalMailSystem.DecimalKey
