import Mathlib.Data.Set.Basic
import Mathlib.Logic.Function.Basic
import Mathlib.Order.Defs.PartialOrder

/-!
What a player's global mail is for, apart from tables, caches and clocks: each player has a slot for each
mail, with a mark, the loots recorded as claimed and the items handed out.
-/

namespace GlobalMailSystem.Mailbox

inductive Mark
  | unread
  | read
  | claimed
  | deleted
  deriving DecidableEq

variable {κ ι α : Type}

@[ext]
structure Slot (ι α : Type) where
  mark : Mark
  claimed : Set ι
  items : ι → Option α

inductive Deed (ι : Type)
  | read
  | claim (wanted : Set ι)
  | delete

namespace Slot

def fresh : Slot ι α := ⟨.unread, ∅, fun _ => none⟩

open scoped Classical in
noncomputable def deliver (s : Slot ι α) (loots : ι → Option α) (served : Set ι) : Slot ι α :=
  { s with items := fun i => if i ∈ served then (s.items i).or (loots i) else s.items i }

def served [LE ι] (loots : ι → Option α) (asked : Set ι) : Set ι :=
  {i ∈ asked | ∀ j ∈ asked, j ≤ i → (loots j).isSome}

open scoped Classical in
/-- A claim is recorded if every index it asks for anew has a loot. Those before the first that has none
are handed out all the same. -/
noncomputable def claim [LE ι] (loots : ι → Option α) (wanted : Set ι) (s : Slot ι α) : Slot ι α × Bool :=
  let given := s.deliver loots (served loots (wanted \ s.claimed))
  if ∀ i ∈ wanted \ s.claimed, (loots i).isSome then
    ({ given with mark := .claimed, claimed := s.claimed ∪ wanted }, true)
  else (given, false)

noncomputable def answer [LE ι] (s : Slot ι α) (offer : Option (ι → Option α)) (deed : Deed ι) : Slot ι α × Bool :=
  match offer, deed with
  | none, _ => (s, false)
  | some _, .read => (if s.mark = .unread then { s with mark := .read } else s, true)
  | some loots, .claim wanted => if s.mark = .deleted then (s, true) else s.claim loots wanted
  | some _, .delete => ({ s with mark := .deleted }, true)

end Slot

structure Request (κ ι α : Type) where
  key : κ
  offer : Option (ι → Option α)
  deed : Deed ι

abbrev Reply (ι : Type) := Option (Mark × Set ι)

def Slot.reply (answer : Slot ι α × Bool) : Reply ι :=
  if answer.2 then some (answer.1.mark, answer.1.claimed) else none

section Run

variable [DecidableEq κ] [LE ι]

noncomputable def call (box : κ → Slot ι α) (r : Request κ ι α) : (κ → Slot ι α) × Reply ι :=
  let answer := (box r.key).answer r.offer r.deed
  (Function.update box r.key answer.1, Slot.reply answer)

noncomputable def callAll (box : κ → Slot ι α) : List (Request κ ι α) → (κ → Slot ι α) × List (Reply ι)
  | [] => (box, [])
  | r :: rest =>
    let called := call box r
    let after := callAll called.1 rest
    (after.1, called.2 :: after.2)

end Run

namespace Slot

def Backed (s : Slot ι α) : Prop := ∀ i ∈ s.claimed, (s.items i).isSome

theorem deliver_keeps (s : Slot ι α) (loots : ι → Option α) (given : Set ι) {i : ι} (h : (s.items i).isSome) :
    (s.deliver loots given).items i = s.items i := by
  obtain ⟨item, hitem⟩ := Option.isSome_iff_exists.mp h
  simp [deliver, hitem]

theorem deliver_served (s : Slot ι α) {loots : ι → Option α} {given : Set ι} {i : ι} (hi : i ∈ given)
    (h : (loots i).isSome) : ((s.deliver loots given).items i).isSome := by
  simp [deliver, hi, h]

variable [LE ι]

theorem served_of_all {loots : ι → Option α} {asked : Set ι} (h : ∀ i ∈ asked, (loots i).isSome) :
    served loots asked = asked := by
  ext i
  exact ⟨And.left, fun hi => ⟨hi, fun j hj _ => h j hj⟩⟩

theorem backed_claim {s : Slot ι α} (h : s.Backed) (loots : ι → Option α) (wanted : Set ι) :
    (s.claim loots wanted).1.Backed := by
  have hkept (given : Set ι) : ∀ i ∈ s.claimed, ((s.deliver loots given).items i).isSome := by
    intro i hi
    rw [deliver_keeps _ _ _ (h i hi)]
    exact h i hi
  unfold claim
  split_ifs with hall
  · intro i hi
    by_cases hold : i ∈ s.claimed
    · exact hkept _ i hold
    · have hasked : i ∈ wanted \ s.claimed := ⟨hi.resolve_left hold, hold⟩
      apply deliver_served _ _ (hall i hasked)
      rwa [served_of_all hall]
  · exact hkept _

theorem backed_answer {s : Slot ι α} (h : s.Backed) (offer : Option (ι → Option α)) (deed : Deed ι) :
    (s.answer offer deed).1.Backed := by
  rcases offer with _ | loots
  · exact h
  · rcases deed with _ | wanted | _
    · simp only [answer]
      split_ifs <;> exact h
    · simp only [answer]
      split_ifs
      · exact h
      · exact backed_claim h loots wanted
    · exact h

end Slot

theorem backed_callAll [DecidableEq κ] [LE ι] {box : κ → Slot ι α} (h : ∀ k, (box k).Backed)
    (requests : List (Request κ ι α)) (k : κ) : ((callAll box requests).1 k).Backed := by
  induction requests generalizing box with
  | nil => exact h k
  | cons r rest ih =>
    apply ih
    intro k'
    simp only [call, Function.update_apply]
    split_ifs
    · exact Slot.backed_answer (h r.key) r.offer r.deed
    · exact h k'

end GlobalMailSystem.Mailbox
