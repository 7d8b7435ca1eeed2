import PageTest.Page.Events
import Mathlib.Tactic

/-! The walk from an element to the root and the search for all that is attached below it. Where parents
come before their children both come to an end by themselves, and the bounds of the model are never reached. -/

namespace PageTest

namespace Page

variable {α : Type} {p : Page α} {h k : Nat}

def Attached (p : Page α) (h : Nat) : Prop := ∃ e, p.elements[h]? = some e ∧ e.attached = true

/-- What holds of the arena at any time. -/
structure Sound (p : Page α) : Prop where
  older : ∀ h k, p.parentOf h = some k → k < h
  upward : ∀ h k, p.Attached h → p.parentOf h = some k → p.Attached k
  indexed : ∀ entry ∈ p.ids, p.Attached entry.2

/-! What is found at a handle -/

theorem get?_eq_some {e : Element} : p.get? h = some e ↔ p.elements[h]? = some e ∧ e.attached = true := by
  simp [get?, Option.filter_eq_some_iff]

theorem Attached.get (ha : p.Attached h) : ∃ e, p.get h = .ok e := by
  obtain ⟨e, he⟩ := ha
  exact ⟨e, by simp [Page.get, get?_eq_some.2 he]⟩

theorem attached_of_get {e : Element} (hg : p.get h = .ok e) : p.Attached h := by
  unfold Page.get at hg
  split at hg
  next e he => exact ⟨e, get?_eq_some.1 he⟩
  next => simp at hg

theorem get_of_detached (hd : ¬ p.Attached h) : p.get h = .error (.detached h) := by
  cases hg : p.get h with
  | ok e => exact absurd (attached_of_get hg) hd
  | error e =>
    unfold Page.get at hg
    split at hg
    next => simp at hg
    next => exact hg.symm

theorem Attached.lt (ha : p.Attached h) : h < p.elements.length := by
  obtain ⟨e, he, -⟩ := ha
  exact (List.getElem?_eq_some_iff.1 he).1

theorem lt_of_parentOf (hp : p.parentOf h = some k) : h < p.elements.length := by
  by_contra hlt
  rw [parentOf, List.getElem?_eq_none (by omega)] at hp
  simp at hp

theorem mem_attachedChildren {c : Nat} :
    c ∈ p.attachedChildren h ↔ p.Attached c ∧ p.parentOf c = some h := by
  unfold attachedChildren Attached parentOf
  rw [List.mem_filter, List.mem_range]
  constructor
  · rintro ⟨hc, hf⟩
    rw [List.getElem?_eq_getElem hc] at hf ⊢
    simpa using hf
  · rintro ⟨⟨e, he, ha⟩, hp⟩
    refine ⟨(List.getElem?_eq_some_iff.1 he).1, ?_⟩
    simpa [he, ha] using hp

/-! The walk to the root -/

/-- The walk from an element to the root, link by link, meets these. -/
inductive Climbs (p : Page α) : Nat → List Nat → Prop
  | root {h : Nat} : p.parentOf h = none → Climbs p h []
  | up {h k : Nat} {above : List Nat} : p.parentOf h = some k → Climbs p k above → Climbs p h (k :: above)

theorem Sound.climbs_within (hs : p.Sound) (fuel : Nat) (h : Nat) (hf : h ≤ fuel) :
    p.Climbs h (p.ancestorsWithin fuel h) := by
  induction fuel generalizing h with
  | zero =>
    have hroot : p.parentOf h = none := by
      cases hp : p.parentOf h with
      | none => rfl
      | some k => have := hs.older h k hp; omega
    exact .root hroot
  | succ fuel ih =>
    unfold ancestorsWithin
    cases hp : p.parentOf h with
    | none => exact .root hp
    | some k =>
      have hk := hs.older h k hp
      exact .up hp (ih k (by omega))

/-- The walk ends, wherever it begins. -/
theorem Sound.climbs (hs : p.Sound) (h : Nat) : p.Climbs h (p.ancestors h) := by
  by_cases hlt : h < p.elements.length
  · exact hs.climbs_within p.elements.length h hlt.le
  · have hroot : p.parentOf h = none := by
      cases hp : p.parentOf h with
      | none => rfl
      | some k => exact absurd (lt_of_parentOf hp) hlt
    have hnil : p.ancestors h = [] := by
      unfold ancestors
      cases p.elements.length with
      | zero => rfl
      | succ n => simp [ancestorsWithin, hroot]
    rw [hnil]
    exact .root hroot

/-! The search for all that is below an element -/

/-- The search takes one element after another from the front of a list, to the end of which it puts those
attached below it, until there are none left; it takes them in this order. -/
inductive Drains (p : Page α) : List Nat → List Nat → Prop
  | done : Drains p [] []
  | next {h : Nat} {rest out : List Nat} :
      Drains p (rest ++ p.attachedChildren h) out → Drains p (h :: rest) (h :: out)

namespace Drains

variable {todo out : List Nat}

/-- What holds of those that the search begins with, and goes on to those below, holds of all. -/
theorem forall_mem {P : Nat → Prop} (hd : p.Drains todo out) (ht : ∀ i ∈ todo, P i)
    (hc : ∀ i, P i → ∀ c ∈ p.attachedChildren i, P c) : ∀ i ∈ out, P i := by
  induction hd with
  | done => exact ht
  | @next h rest out _ ih =>
    have hh : P h := ht h (by simp)
    intro i hi
    rcases List.mem_cons.1 hi with rfl | hi
    · exact hh
    · refine ih (fun j hj => ?_) i hi
      rcases List.mem_append.1 hj with hj | hj
      · exact ht j (by simp [hj])
      · exact hc h hh j hj

theorem subset (hd : p.Drains todo out) : todo ⊆ out := by
  induction hd with
  | done => exact List.Subset.refl _
  | next _ ih => exact List.cons_subset_cons _ fun i hi => ih (List.mem_append_left _ hi)

/-- Nothing that is attached below is left out. -/
theorem closed (hd : p.Drains todo out) : ∀ i ∈ out, ∀ c ∈ p.attachedChildren i, c ∈ out := by
  induction hd with
  | done => simp
  | next hd ih =>
    intro i hi c hc
    refine List.mem_cons_of_mem _ ?_
    rcases List.mem_cons.1 hi with rfl | hi
    · exact hd.subset (List.mem_append_right _ hc)
    · exact ih i hi c hc

end Drains

/-- The search below `root` has taken some, and some are still to be taken. -/
structure Front (p : Page α) (root : Nat) (taken todo : List Nat) : Prop where
  distinct : (taken ++ todo).Nodup
  inside : ∀ i ∈ taken ++ todo, i < p.elements.length
  below : ∀ i ∈ taken ++ todo, root ≤ i ∧ (i = root ∨ ∃ k ∈ taken, p.parentOf i = some k)

namespace Front

variable {root : Nat} {taken todo rest : List Nat}

/-- A child is found once: when its parent is taken. -/
theorem step (hf : p.Front root taken (h :: rest)) (hs : p.Sound) :
    p.Front root (taken ++ [h]) (rest ++ p.attachedChildren h) := by
  have hh := hf.below h (by simp)
  have heq : taken ++ [h] ++ (rest ++ p.attachedChildren h) = taken ++ h :: rest ++ p.attachedChildren h := by simp
  have hchild (c : Nat) (hc : c ∈ p.attachedChildren h) : h < c ∧ p.parentOf c = some h :=
    ⟨hs.older c h (mem_attachedChildren.1 hc).2, (mem_attachedChildren.1 hc).2⟩
  refine ⟨?_, ?_, ?_⟩
  · rw [heq, List.nodup_append]
    refine ⟨hf.distinct, List.nodup_range.filter _, ?_⟩
    rintro i hi c hc rfl
    obtain ⟨hlt, hp⟩ := hchild i hc
    rcases (hf.below i hi).2 with rfl | ⟨k, hk, hpk⟩
    · omega
    · obtain rfl := Option.some.inj (hp.symm.trans hpk)
      exact (List.nodup_append.1 hf.distinct).2.2 h hk h (by simp) rfl
  · rw [heq]
    intro i hi
    rcases List.mem_append.1 hi with hi | hi
    · exact hf.inside i hi
    · exact (mem_attachedChildren.1 hi).1.lt
  · rw [heq]
    intro i hi
    rcases List.mem_append.1 hi with hi | hi
    · refine ⟨(hf.below i hi).1, (hf.below i hi).2.imp_right ?_⟩
      rintro ⟨k, hk, hpk⟩
      exact ⟨k, by simp [hk], hpk⟩
    · obtain ⟨hlt, hp⟩ := hchild i hi
      exact ⟨by omega, .inr ⟨h, by simp, hp⟩⟩

theorem length_le (hf : p.Front root taken todo) : taken.length + todo.length ≤ p.elements.length := by
  have hsub : taken ++ todo ⊆ List.range p.elements.length := fun i hi => List.mem_range.2 (hf.inside i hi)
  simpa using (hf.distinct.subperm hsub).length_le

/-- As many elements as there are is more than enough to go on with. -/
theorem drains (hf : p.Front root taken todo) (hs : p.Sound) (fuel : Nat)
    (hn : p.elements.length ≤ taken.length + fuel) : p.Drains todo (p.subtreeOf fuel todo) := by
  induction fuel generalizing taken todo with
  | zero =>
    have hlen := hf.length_le
    have hnil : todo = [] := List.eq_nil_of_length_eq_zero (by omega)
    subst hnil
    exact .done
  | succ fuel ih =>
    cases todo with
    | nil => exact .done
    | cons h rest =>
      have hstep := hf.step hs
      have hlen : (taken ++ [h]).length = taken.length + 1 := by simp
      exact .next (ih hstep (by omega))

end Front

/-- The search below an attached element ends. -/
theorem Sound.drains (hs : p.Sound) (ha : p.Attached h) : p.Drains [h] (p.subtree h) := by
  have hf : p.Front h [] [h] := ⟨by simp, by simpa using ha.lt, by simp⟩
  exact hf.drains hs p.elements.length (by simp)

/-- All that it finds is attached. -/
theorem Sound.attached_subtree (hs : p.Sound) (ha : p.Attached h) : ∀ i ∈ p.subtree h, p.Attached i := by
  refine (hs.drains ha).forall_mem (by simpa using ha) ?_
  intro i _ c hc
  exact (mem_attachedChildren.1 hc).1

end Page

end PageTest
