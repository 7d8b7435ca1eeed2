import Mathlib.Data.List.TakeWhile
import Mathlib.Tactic
import PageTest.Registry

/-! What a test is called that was registered without a name. The path of its callable is cut at the first angle
bracket; so the name is the last segment of the path if nothing further out has arguments, and otherwise that of
the first segment that has. -/

namespace PageTest.TestName

/-- The path of a callable or of a type. Every segment may have arguments, which are paths again. -/
inductive TypePath where
  | root (name : String) (args : List TypePath)
  /-- A type as what a trait makes of it. -/
  | qualified (type trait : TypePath)
  | sub (outer : TypePath) (name : String) (args : List TypePath)

namespace TypePath

mutual

def text : TypePath → List Char
  | .root name args => name.toList ++ generics args
  | .qualified type trait => '<' :: (text type ++ (" as ".toList ++ (text trait ++ ['>'])))
  | .sub outer name args => text outer ++ ':' :: ':' :: (name.toList ++ generics args)

/-- The arguments of a segment, in angle brackets. -/
def generics : List TypePath → List Char
  | [] => []
  | a :: rest => '<' :: (text a ++ further rest)

def further : List TypePath → List Char
  | [] => ['>']
  | a :: rest => ", ".toList ++ (text a ++ further rest)

end

/-- What a segment can be called. -/
structure IsName (s : String) : Prop where
  full : s ≠ ""
  plain : ∀ c ∈ s.toList, c ≠ '<' ∧ c ≠ ':'

/-- All segments have names. Nothing is asked of what stands in angle brackets. -/
def Named : TypePath → Prop
  | .root name _ => IsName name
  | .qualified _ _ => True
  | .sub outer name _ => outer.Named ∧ IsName name

/-- Nowhere in the path is an angle bracket. -/
def Bare : TypePath → Prop
  | .root _ args => args = []
  | .qualified _ _ => False
  | .sub outer _ args => outer.Bare ∧ args = []

end TypePath

open TypePath

/-- What a segment is called as a test: a closure is not called anything. -/
def called (name : String) : String := if name.toList.head? = some '\x7b' then "" else name

variable {outer : TypePath} {args : List TypePath} {name : String} {cs ds : List Char}

section Cut

/-- The path up to the first angle bracket. -/
def beforeArguments (cs : List Char) : List Char := cs.takeWhile (· ≠ '<')

theorem beforeArguments_append (h : ∀ c ∈ cs, c ≠ '<') : beforeArguments (cs ++ ds) = cs ++ beforeArguments ds :=
  List.takeWhile_append_of_pos fun c hc => decide_eq_true (h c hc)

theorem beforeArguments_generics (args : List TypePath) : beforeArguments (generics args) = [] := by
  cases args with
  | nil => rfl
  | cons a rest => rw [generics]; rfl

/-- Whatever comes after arguments is cut off with them. -/
theorem beforeArguments_generics_append (some : args ≠ []) (ds : List Char) :
    beforeArguments (generics args ++ ds) = [] := by
  obtain ⟨a, rest, rfl⟩ := List.exists_cons_of_ne_nil some
  rw [generics]
  rfl

theorem TypePath.IsName.noBracket (h : IsName name) : ∀ c ∈ name.toList, c ≠ '<' := fun c hc => (h.plain c hc).1

theorem text_sub (outer : TypePath) (name : String) (args : List TypePath) :
    (sub outer name args).text = (outer.text ++ ':' :: ':' :: name.toList) ++ generics args := by
  simp [text]

theorem TypePath.IsName.noBracket_sub (h : IsName name) (hc : ∀ c ∈ cs, c ≠ '<') :
    ∀ c ∈ cs ++ ':' :: ':' :: name.toList, c ≠ '<' := by
  refine List.forall_mem_append.2 ⟨hc, ?_⟩
  simpa using h.noBracket

theorem bare_text : ∀ {p : TypePath}, p.Named → p.Bare → ∀ c ∈ p.text, c ≠ '<'
  | .root name _, hn, rfl => by
    rw [text, generics, List.append_nil]
    exact hn.noBracket
  | .sub outer name _, ⟨ho, hn⟩, ⟨bare, rfl⟩ => by
    rw [text_sub, generics, List.append_nil]
    exact hn.noBracket_sub (bare_text ho bare)

/-- Of a path with an angle bracket nothing is left that comes after the bracket. -/
theorem beforeArguments_of_not_bare : ∀ {p : TypePath}, p.Named → ¬ p.Bare → ∀ ds,
    beforeArguments (p.text ++ ds) = beforeArguments p.text
  | .root name args, hn, bare, ds => by
    rw [text, List.append_assoc, beforeArguments_append hn.noBracket, beforeArguments_append hn.noBracket,
      beforeArguments_generics_append bare, beforeArguments_generics]
  | .qualified type trait, _, _, ds => by
    rw [text]
    rfl
  | .sub outer name args, ⟨ho, hn⟩, bare, ds => by
    by_cases hb : outer.Bare
    · have some : args ≠ [] := fun none => bare ⟨hb, none⟩
      have plain := hn.noBracket_sub (bare_text ho hb)
      rw [text_sub, List.append_assoc, beforeArguments_append plain, beforeArguments_append plain,
        beforeArguments_generics_append some, beforeArguments_generics]
    · rw [text, List.append_assoc, beforeArguments_of_not_bare ho hb, beforeArguments_of_not_bare ho hb]

end Cut

section Last

theorem afterLastColons_name (h : ∀ c ∈ cs, c ≠ ':') : afterLastColons cs = none := by
  induction cs with
  | nil => rfl
  | cons c cs ih =>
    obtain ⟨first, others⟩ := List.forall_mem_cons.1 h
    unfold afterLastColons
    rw [ih others]
    cases cs with
    | nil => rfl
    | cons d cs =>
      dsimp only
      split
      next same => exact absurd (List.cons.inj same).1 (others d List.mem_cons_self)
      next => rfl

theorem afterLastColons_append (h : ∀ c ∈ cs, c ≠ ':') (ds : List Char) :
    afterLastColons (ds ++ ':' :: ':' :: cs) = some cs := by
  induction ds with
  | nil =>
    have colon : afterLastColons (':' :: cs) = none := by
      unfold afterLastColons
      rw [afterLastColons_name h]
      dsimp only
      split
      next => exact absurd rfl (h ':' List.mem_cons_self)
      next => rfl
    rw [List.nil_append]
    unfold afterLastColons
    rw [colon]
    rfl
  | cons d ds ih =>
    rw [List.cons_append]
    unfold afterLastColons
    rw [ih]

theorem ofCallable_eq (path : List Char) :
    ofCallable (String.ofList path) = called (String.ofList (lastSegment (beforeArguments path))) := by
  unfold ofCallable called beforeArguments
  rw [String.toList_ofList, String.toList_ofList]
  split
  next rest brace => rw [brace]; rfl
  next other =>
    rw [if_neg]
    intro brace
    obtain ⟨rest, eq⟩ := List.head?_eq_some_iff.1 brace
    exact other rest eq

theorem lastSegment_name (h : IsName name) : lastSegment name.toList = name.toList := by
  rw [lastSegment, afterLastColons_name fun c hc => (h.plain c hc).2, Option.getD_none]

theorem lastSegment_sub (h : IsName name) (ds : List Char) :
    lastSegment (ds ++ ':' :: ':' :: name.toList) = name.toList := by
  rw [lastSegment, afterLastColons_append fun c hc => (h.plain c hc).2, Option.getD_some]

end Last

section Names

/-- The name of a test with a callable of that path. -/
def nameOf (p : TypePath) : String := ofCallable (String.ofList p.text)

theorem nameOf_root (h : IsName name) (args : List TypePath) : nameOf (.root name args) = called name := by
  rw [nameOf, ofCallable_eq, text, beforeArguments_append h.noBracket, beforeArguments_generics, List.append_nil,
    lastSegment_name h, String.ofList_toList]

theorem nameOf_qualified (type trait : TypePath) : nameOf (.qualified type trait) = "" := by
  rw [nameOf, ofCallable_eq, text]
  rfl

theorem nameOf_sub_bare (ho : outer.Named) (h : IsName name) (bare : outer.Bare) (args : List TypePath) :
    nameOf (.sub outer name args) = called name := by
  rw [nameOf, ofCallable_eq, text_sub, beforeArguments_append (h.noBracket_sub (bare_text ho bare)),
    beforeArguments_generics, List.append_nil, lastSegment_sub h, String.ofList_toList]

theorem nameOf_sub_not_bare (ho : outer.Named) (bare : ¬ outer.Bare) (args : List TypePath) :
    nameOf (.sub outer name args) = nameOf outer := by
  rw [nameOf, nameOf, ofCallable_eq, ofCallable_eq, text, beforeArguments_of_not_bare ho bare]

theorem called_eq_empty (h : IsName name) : called name = "" ↔ name.toList.head? = some '\x7b' := by
  unfold called
  split
  next brace => simp [brace]
  next other => simp [other, h.full]

/-- A test is called after the last segment of the path of its callable, without the arguments of that segment, if
no segment further out has arguments and the path does not begin with a qualified type; and it is called nothing if
and only if that segment is a closure. In every other path the last segment does not count: the test is called like
what encloses it, and that may be a type, or nothing at all. -/
theorem nameOf_last_segment (ho : outer.Named) (h : IsName name) (args : List TypePath) :
    nameOf (.root name args) = called name ∧
    (∀ type trait, nameOf (.qualified type trait) = "") ∧
    (outer.Bare → nameOf (.sub outer name args) = called name) ∧
    (¬ outer.Bare → nameOf (.sub outer name args) = nameOf outer) ∧
    (nameOf (.sub outer name args) = called name ↔ outer.Bare ∨ nameOf outer = called name) ∧
    (called name = "" ↔ name.toList.head? = some '\x7b') := by
  refine ⟨nameOf_root h args, nameOf_qualified, fun bare => nameOf_sub_bare ho h bare args,
    fun bare => nameOf_sub_not_bare ho bare args, ?_, called_eq_empty h⟩
  by_cases bare : outer.Bare
  · simp [bare, nameOf_sub_bare ho h bare args]
  · simp [bare, nameOf_sub_not_bare ho bare args]

/-- A function of a type with arguments: the test is called like the type. -/
theorem nameOf_last_segment_suite :
    let suite : TypePath := .sub (.root "suite" []) "Suite" [.root "u8" []]
    String.ofList (TypePath.text (.sub suite "check" [])) = "suite::Suite<u8>::check" ∧
    nameOf (.sub suite "check" []) = "Suite" ∧ called "check" = "check" := by
  intro suite
  have isName : ∀ s ∈ ["suite", "Suite", "check"], IsName s := by
    intro s hs
    simp only [List.mem_cons, List.not_mem_nil, or_false] at hs
    rcases hs with rfl | rfl | rfl <;> exact ⟨by decide, by simp⟩
  have named : suite.Named := ⟨isName "suite" (by simp), isName "Suite" (by simp)⟩
  have bare : ¬ suite.Bare := fun h => by cases h.2
  obtain ⟨-, -, -, enclosed, -⟩ := nameOf_last_segment named (isName "check" (by simp)) []
  exact ⟨by decide, (enclosed bare).trans (by decide), by decide⟩

end Names

end PageTest.TestName
