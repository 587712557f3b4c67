import Mathlib.Data.List.Basic

/-!
Slash-separated paths as the Go package `path` cleans and joins them: empty and `.` elements are dropped,
`..` takes back the element before it, and none is left above the root.
-/

namespace GlobalMailSystem.SlashPath

def dotDot : List Char := ['.', '.']

def push (rooted : Bool) (kept : List (List Char)) (element : List Char) : List (List Char) :=
  if element = [] ∨ element = ['.'] then kept
  else if element = dotDot then
    match kept with
    | [] => if rooted then [] else [dotDot]
    | last :: rest => if last = dotDot then dotDot :: kept else rest
  else element :: kept

def elements (rooted : Bool) (path : List Char) : List (List Char) :=
  ((path.splitOn '/').foldl (push rooted) []).reverse

def rooted (path : List Char) : Bool := path.head? = some '/'

def render (rooted : Bool) (elements : List (List Char)) : List Char :=
  if rooted then '/' :: ['/'].intercalate elements
  else if elements = [] then ['.'] else ['/'].intercalate elements

def clean (path : List Char) : List Char := render (rooted path) (elements (rooted path) path)

def concat (parts : List (List Char)) : List Char :=
  parts.foldl (fun buf part => if buf = [] then part else buf ++ '/' :: part) []

def join (parts : List (List Char)) : List Char := if concat parts = [] then [] else clean (concat parts)

/-- A name that cleaning leaves alone and that is one element. -/
structure Plain (name : List Char) : Prop where
  nonempty : name ≠ []
  noSlash : '/' ∉ name
  notDot : name ≠ ['.']
  notDotDot : name ≠ dotDot

instance (name : List Char) : Decidable (Plain name) :=
  decidable_of_iff (name ≠ [] ∧ '/' ∉ name ∧ name ≠ ['.'] ∧ name ≠ dotDot)
    ⟨fun h => ⟨h.1, h.2.1, h.2.2.1, h.2.2.2⟩, fun h => ⟨h.nonempty, h.noSlash, h.notDot, h.notDotDot⟩⟩

section Names

variable {path name child : List Char}

theorem push_plain (h : Plain name) (rooted : Bool) (kept : List (List Char)) :
    push rooted kept name = name :: kept := by
  simp [push, h.nonempty, h.notDot, h.notDotDot]

theorem split_plain (h : Plain name) : name.splitOn '/' = [name] := by
  apply List.splitOnP_eq_singleton
  intro x hx
  simp only [beq_eq_false_iff_ne]
  exact fun he => h.noSlash (he ▸ hx)

theorem split_snoc (path : List Char) (h : Plain name) :
    (path ++ '/' :: name).splitOn '/' = path.splitOn '/' ++ [name] := by
  rw [← split_plain h]
  exact List.splitOnP_append_cons path name (by simp)

theorem elements_snoc (path : List Char) (h : Plain name) (rooted : Bool) :
    elements rooted (path ++ '/' :: name) = elements rooted path ++ [name] := by
  rw [elements, split_snoc path h, List.foldl_append, List.foldl_cons, List.foldl_nil, push_plain h, List.reverse_cons]
  rfl

theorem elements_plain (h : Plain name) (rooted : Bool) : elements rooted name = [name] := by
  rw [elements, split_plain h, List.foldl_cons, List.foldl_nil, push_plain h]
  rfl

theorem rooted_snoc (hpath : path ≠ []) (rest : List Char) : rooted (path ++ rest) = rooted path := by
  cases path with
  | nil => exact absurd rfl hpath
  | cons c path => rfl

theorem rooted_plain (h : Plain name) : rooted name = false := by
  cases name with
  | nil => exact absurd rfl h.nonempty
  | cons c name =>
    have hc : c ≠ '/' := fun he => h.noSlash (he ▸ List.mem_cons_self)
    simp [rooted, hc]

theorem intercalate_snoc {parts : List (List Char)} (hparts : parts ≠ []) (part : List Char) :
    ['/'].intercalate (parts ++ [part]) = ['/'].intercalate parts ++ '/' :: part := by
  induction parts with
  | nil => exact absurd rfl hparts
  | cons first parts ih =>
    cases parts with
    | nil => simp [List.intercalate]
    | cons second parts =>
      have hrest := ih (by simp)
      simp only [List.intercalate, List.cons_append, List.intersperse_cons_cons, List.flatten_cons] at hrest ⊢
      rw [hrest]
      simp

def stem (rooted : Bool) (before : List (List Char)) : List Char :=
  (if rooted then ['/'] else []) ++ if before = [] then [] else ['/'].intercalate before ++ ['/']

theorem render_snoc (rooted : Bool) (before : List (List Char)) (name : List Char) :
    render rooted (before ++ [name]) = stem rooted before ++ name := by
  by_cases hbefore : before = []
  · cases rooted <;> simp [render, stem, hbefore, List.intercalate]
  · cases rooted <;> simp [render, stem, hbefore, intercalate_snoc hbefore]

theorem stem_snoc (rooted : Bool) (before : List (List Char)) (name : List Char) :
    stem rooted (before ++ [name]) = stem rooted before ++ name ++ ['/'] := by
  by_cases hbefore : before = []
  · cases rooted <;> simp [stem, hbefore, List.intercalate]
  · cases rooted <;> simp [stem, hbefore, intercalate_snoc hbefore]

end Names

theorem join_plain (base : List Char) : ∃ root : List Char, ∀ name child, Plain name → Plain child →
    join [base, name] = root ++ name ∧ join [base, name, child] = root ++ name ++ '/' :: child := by
  by_cases hbase : base = []
  · subst hbase
    refine ⟨[], fun name child hname hchild => ?_⟩
    have hone : concat [[], name] = name := by simp [concat]
    have htwo : concat [[], name, child] = name ++ '/' :: child := by simp [concat, hname.nonempty]
    constructor
    · rw [join, hone, if_neg hname.nonempty, clean, rooted_plain hname, elements_plain hname]
      simpa [stem] using render_snoc false [] name
    · rw [join, htwo, if_neg (by simp), clean, rooted_snoc hname.nonempty, rooted_plain hname,
        elements_snoc name hchild, elements_plain hname, render_snoc]
      simp [stem, List.intercalate]
  · refine ⟨stem (rooted base) (elements (rooted base) base), fun name child hname hchild => ?_⟩
    have hone : concat [base, name] = base ++ '/' :: name := by simp [concat, hbase]
    have htwo : concat [base, name, child] = (base ++ '/' :: name) ++ '/' :: child := by simp [concat, hbase]
    constructor
    · rw [join, hone, if_neg (by simp), clean, rooted_snoc hbase, elements_snoc base hname, render_snoc]
    · rw [join, htwo, if_neg (by simp), clean, rooted_snoc (by simp), rooted_snoc hbase, elements_snoc _ hchild,
        elements_snoc base hname, render_snoc, stem_snoc]
      simp

end GlobalMailSystem.SlashPath
