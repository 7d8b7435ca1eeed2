import PageTest.Proofs.Page.Arena

/-! Removing an element. The search below it finds what is attached below it and nothing else, so that a removal
detaches one set of handles, which does not depend on what else is detached: hence two removals can change places.
A handle that was given out is refused from then on exactly if it is in one of these sets. -/

namespace PageTest

namespace Page

variable {α : Type} {p q : Page α} {es : List (Edit α)} {h i k n : Nat}

/-- The element is `h` or below it: the links up from it lead there. -/
def Under (p : Page α) (i h : Nat) : Prop := Relation.ReflTransGen (fun a b => p.parentOf a = some b) i h

/-! What is below an element -/

theorem Sound.attached_of_under (hs : p.Sound) (ha : p.Attached i) (hu : p.Under i h) : p.Attached h := by
  induction hu with
  | refl => exact ha
  | tail _ hlink ih => exact hs.upward _ _ ih hlink

/-- The search finds what is attached below, and nothing else. -/
theorem Sound.mem_subtree (hs : p.Sound) (ha : p.Attached h) : i ∈ p.subtree h ↔ p.Attached i ∧ p.Under i h := by
  have hd := hs.drains ha
  constructor
  · refine hd.forall_mem (P := fun j => p.Attached j ∧ p.Under j h) ?_ ?_ i
    · intro j hj
      obtain rfl := List.mem_singleton.1 hj
      exact ⟨ha, .refl⟩
    · intro j hj c hc
      obtain ⟨hatt, hlink⟩ := mem_attachedChildren.1 hc
      exact ⟨hatt, hj.2.head hlink⟩
  · rintro ⟨hatt, hu⟩
    induction hu using Relation.ReflTransGen.head_induction_on with
    | refl => exact hd.subset (by simp)
    | head hlink _ ih =>
      have hparent := ih (hs.upward _ _ hatt hlink)
      exact hd.closed _ hparent _ (mem_attachedChildren.2 ⟨hatt, hlink⟩)

theorem under_congr (hlinks : ∀ i, q.parentOf i = p.parentOf i) : q.Under i h ↔ p.Under i h := by
  unfold Under
  simp only [hlinks]

/-- Links lead to older elements, so that it does not matter what the links of younger ones are. -/
theorem Sound.under_of_older (hs : p.Sound) (hlinks : ∀ j < n, q.parentOf j = p.parentOf j) (hi : i < n)
    (hu : p.Under i h) : q.Under i h := by
  induction hu using Relation.ReflTransGen.head_induction_on with
  | refl => exact .refl
  | @head j k hlink _ ih =>
    have hlt := hs.older j k hlink
    exact (ih (by omega)).head ((hlinks j hi).trans hlink)

theorem Sound.under_push (hs : p.Sound) {parent : Option Nat} {tag id : String} {checkbox : Bool}
    (hparent : ∀ k, parent = some k → p.Attached k) (hi : i < p.elements.length) :
    (p.push parent tag id checkbox).2.Under i h ↔ p.Under i h := by
  have hlinks (j : Nat) (hj : j < p.elements.length) :
      (p.push parent tag id checkbox).2.parentOf j = p.parentOf j := by
    rw [parentOf_push, if_neg (by omega)]
  constructor
  · exact (hs.push hparent).under_of_older (fun j hj => (hlinks j hj).symm) hi
  · exact hs.under_of_older hlinks hi

/-! A page without some of its elements -/

open Classical in
/-- The page with some handles detached, and with no ids that lead there; all else stays. -/
noncomputable def without (p : Page α) (gone : Set Nat) : Page α :=
  { p with
    elements := p.elements.mapIdx fun i e => if i ∈ gone then { e with attached := false } else e
    ids := p.ids.filter fun entry => entry.2 ∉ gone }

section Without

variable {gone gone' : Set Nat}

open Classical in
theorem getElem?_without (i : Nat) : (p.without gone).elements[i]? =
    p.elements[i]?.map fun e => if i ∈ gone then { e with attached := false } else e := by
  simp only [without, List.getElem?_mapIdx]

theorem parentOf_without (i : Nat) : (p.without gone).parentOf i = p.parentOf i := by
  unfold parentOf
  rw [getElem?_without]
  cases p.elements[i]? with
  | none => rfl
  | some e =>
    simp only [Option.map_some, Option.bind_some]
    split_ifs
    · rfl
    · rfl

theorem attached_without : (p.without gone).Attached i ↔ p.Attached i ∧ i ∉ gone := by
  unfold Attached
  rw [getElem?_without]
  by_cases hi : i ∈ gone
  · simp [hi]
  · simp [hi]

theorem mem_ids_without {entry : String × Nat} :
    entry ∈ (p.without gone).ids ↔ entry ∈ p.ids ∧ entry.2 ∉ gone := by
  simp [without, List.mem_filter]

theorem without_without : (p.without gone).without gone' = p.without (gone ∪ gone') := by
  have helements : ((p.without gone).without gone').elements = (p.without (gone ∪ gone')).elements := by
    refine List.ext_getElem? fun i => ?_
    rw [getElem?_without, getElem?_without, getElem?_without, Option.map_map]
    congr 1
    funext e
    by_cases h : i ∈ gone <;> by_cases h' : i ∈ gone' <;> simp [h, h']
  have hids : ((p.without gone).without gone').ids = (p.without (gone ∪ gone')).ids := by
    simp only [without, List.filter_filter]
    refine List.filter_congr fun entry _ => ?_
    by_cases h : entry.2 ∈ gone <;> by_cases h' : entry.2 ∈ gone' <;> simp [h, h']
  exact congrArg₂ (fun elements ids => { p with elements, ids }) helements hids

end Without

/-- What is found below an element is detached; what else is below it has been detached before. -/
theorem Sound.remove_eq (hs : p.Sound) (ha : p.Attached h) :
    p.remove h = .ok (p.without {i | p.Under i h}) := by
  cases hr : p.remove h with
  | error e =>
    obtain ⟨e, he⟩ := ha.get
    simp [Page.remove, he] at hr
  | ok q =>
    have helements : q.elements = (p.without {i | p.Under i h}).elements := by
      refine List.ext_getElem? fun i => ?_
      rw [getElem?_remove hr, getElem?_without]
      cases hi : p.elements[i]? with
      | none => rfl
      | some e =>
        cases hb : e.attached with
        | false => simp [← hb]
        | true =>
          have hatt : p.Attached i := ⟨e, hi, hb⟩
          have hmem : i ∈ p.subtree h ↔ p.Under i h := by rw [hs.mem_subtree ha, and_iff_right hatt]
          by_cases hu : p.Under i h <;> simp [hmem, hu]
    have hids : q.ids = (p.without {i | p.Under i h}).ids := by
      rw [(remove_eq_ok hr).2]
      refine List.filter_congr fun entry hentry => ?_
      simp [hs.mem_subtree ha, hs.indexed entry hentry]
    have hq := (remove_eq_ok hr).2
    rw [hq]
    rw [hq] at helements hids
    exact congrArg Except.ok (congrArg₂ (fun elements ids => { p with elements, ids }) helements hids)

/-- Nothing is attached below an element that is not. -/
theorem Sound.without_of_detached (hs : p.Sound) (hd : ¬ p.Attached h) : p.without {i | p.Under i h} = p := by
  have hnot (i : Nat) (hatt : p.Attached i) : ¬ p.Under i h := fun hu => hd (hs.attached_of_under hatt hu)
  have helements : (p.without {i | p.Under i h}).elements = p.elements := by
    refine List.ext_getElem? fun i => ?_
    rw [getElem?_without]
    cases hi : p.elements[i]? with
    | none => rfl
    | some e =>
      cases hb : e.attached with
      | false => simp [← hb]
      | true => simp [hnot i ⟨e, hi, hb⟩]
  have hids : (p.without {i | p.Under i h}).ids = p.ids := by
    refine List.filter_eq_self.2 fun entry hentry => ?_
    simp [hnot entry.2 (hs.indexed entry hentry)]
  exact congrArg₂ (fun elements ids => { p with elements, ids }) helements hids

/-! Removals that skip what is not attached -/

/-- Removes an element if it is attached. -/
def prune (p : Page α) (h : Nat) : Page α :=
  match p.remove h with
  | .ok q => q
  | .error _ => p

theorem Sound.prune_eq (hs : p.Sound) (h : Nat) : p.prune h = p.without {i | p.Under i h} := by
  unfold prune
  by_cases ha : p.Attached h
  · rw [hs.remove_eq ha]
  · rw [hs.without_of_detached ha]
    cases hr : p.remove h with
    | error e => rfl
    | ok q => exact absurd (remove_eq_ok hr).1 ha

theorem Sound.prune (hs : p.Sound) (h : Nat) : (p.prune h).Sound := by
  unfold Page.prune
  cases hr : p.remove h with
  | error e => exact hs
  | ok q => exact hs.remove hr

theorem Sound.prune_prune (hs : p.Sound) (h k : Nat) :
    (p.prune h).prune k = p.without ({i | p.Under i h} ∪ {i | p.Under i k}) := by
  have hunder : {i | (p.prune h).Under i k} = {i | p.Under i k} := by
    rw [hs.prune_eq h]
    ext i
    exact under_congr parentOf_without
  rw [(hs.prune h).prune_eq k, hunder, hs.prune_eq h, without_without]

/-! What the page refuses -/

/-- What can be asked of an element. -/
inductive Request where
  | tag
  | display
  | value
  | checked
  | setDisplay (v : String)
  | setValue (v : String)
  | setChecked (b : Bool)
  | remove
  | addChild (tag id : String) (checkbox : Bool)
  | dispatch (kind : String) (bubbles : Bool)

def refused {β : Type} : Except PageError β → Option PageError
  | .error e => some e
  | .ok _ => none

/-- Why the page refuses what is asked of an element, if it does. -/
def refusal? (p : Page α) (h : Nat) : Request → Option PageError
  | .tag => refused (p.tag h)
  | .display => refused (p.display h)
  | .value => refused (p.value h)
  | .checked => refused (p.checked h)
  | .setDisplay v => refused (p.setDisplay h v)
  | .setValue v => refused (p.setValue h v)
  | .setChecked b => refused (p.setChecked h b)
  | .remove => refused (p.remove h)
  | .addChild tag id checkbox => refused (p.insert (some h) tag id checkbox)
  | .dispatch kind bubbles => refused (p.dispatch ⟨h, kind, bubbles⟩)

/-- Whatever is asked, it is asked whether the element is attached first. -/
theorem refusal?_detached (request : Request) :
    p.refusal? h request = some (.detached h) ↔ ¬ p.Attached h := by
  by_cases ha : p.Attached h
  · obtain ⟨e, he⟩ := ha.get
    cases hv : e.value <;> cases hb : e.checked <;> cases request <;>
      simp [refusal?, refused, Page.tag, Page.display, Page.value, Page.checked, Page.setDisplay, Page.setValue,
        Page.setChecked, Page.remove, Page.insert, Page.dispatch, Except.map, he, hv, hb, ha]
  · have he := get_of_detached ha
    cases request <;>
      simp [refusal?, refused, Page.tag, Page.display, Page.value, Page.checked, Page.setDisplay, Page.setValue,
        Page.setChecked, Page.remove, Page.insert, Page.dispatch, Except.map, he, ha]

/-! Handles of the past -/

/-- The elements that removals were asked for, in order. -/
def removals (es : List (Edit α)) : List Nat := es.filterMap Edit.removed?

namespace Edited

theorem lt_of_mem_removals (hp : Page.empty.Edited es p) : ∀ i ∈ removals es, i < p.elements.length := by
  induction hp with
  | start => simp [removals]
  | @step es q r e _ he ih =>
    have hle := (change_of_edit he).later.length
    intro i hi
    rw [removals, List.filterMap_append, List.mem_append] at hi
    rcases hi with hi | hi
    · exact lt_of_lt_of_le (ih i hi) hle
    · rcases edit_cases he with ⟨parent, tag, id, checkbox, rfl, -, -⟩ | ⟨h, rfl, hr⟩ | ⟨-, hnone, -⟩
      · simp [Edit.removed?] at hi
      · obtain rfl : i = h := by simpa [Edit.removed?] using hi
        exact lt_of_lt_of_le (remove_eq_ok hr).1.lt hle
      · simp [hnone] at hi

/-- A handle is detached if it was never given out, or else if it is in what has been removed. -/
theorem detached_iff (hp : Page.empty.Edited es p) (d : Nat) :
    ¬ p.Attached d ↔ p.elements.length ≤ d ∨ ∃ h ∈ removals es, p.Under d h := by
  induction hp generalizing d with
  | start => simp [Attached, Page.empty]
  | @step es q r e hq he ih =>
    have hs := hq.sound
    rcases edit_cases he with ⟨parent, tag, id, checkbox, rfl, hparent, rfl⟩ | ⟨h, rfl, hr⟩ | ⟨-, hnone, ha⟩
    · have hsame : removals (es ++ [.create parent tag id checkbox]) = removals es := by
        simp [removals, Edit.removed?]
      have hlength : (q.push parent tag id checkbox).2.elements.length = q.elements.length + 1 := by simp [Page.push]
      rw [hsame, attached_push, hlength]
      rcases lt_trichotomy d q.elements.length with hlt | rfl | hgt
      · simp only [hs.under_push hparent hlt]
        rw [or_iff_right hlt.ne, ih]
        exact ⟨fun h => .inr (h.resolve_left (by omega)), fun h => .inr (h.resolve_left (by omega))⟩
      · -- what has been removed is older, and so is not the new element; its parent is attached
        simp only [true_or, not_true_eq_false, false_iff, not_or, not_exists, not_and]
        refine ⟨by omega, fun h hh hu => ?_⟩
        have hlt := hq.lt_of_mem_removals h hh
        rcases Relation.ReflTransGen.cases_head hu with heq | ⟨k, hlink, hu⟩
        · omega
        · rw [parentOf_push, if_pos rfl] at hlink
          have hk := hparent k hlink
          exact (ih k).2 (.inr ⟨h, hh, (hs.under_push hparent hk.lt).1 hu⟩) hk
      · have hnot : ¬ q.Attached d := fun hd => by have := hd.lt; omega
        simp [hgt.ne', hnot, Nat.succ_le_of_lt hgt]
    · have hmore : removals (es ++ [.remove h]) = removals es ++ [h] := by simp [removals, Edit.removed?]
      have hsub : d ∈ q.subtree h ↔ q.Attached d ∧ q.Under d h := hs.mem_subtree (remove_eq_ok hr).1
      have hunder (i : Nat) : r.Under d i ↔ q.Under d i := under_congr (parentOf_remove hr)
      simp only [hmore, attached_remove hr, length_remove hr, hunder, hsub, List.mem_append, List.mem_singleton]
      by_cases hd : q.Attached d
      · have hold := (ih d).not.1 (not_not.2 hd)
        grind
      · have hold := (ih d).1 hd
        grind
    · have hsame : removals (es ++ [e]) = removals es := by simp [removals, hnone]
      have hunder (i : Nat) : r.Under d i ↔ q.Under d i := under_congr ha.parentOf
      simp only [hsame, ha.attached, ha.length, hunder, ih]

end Edited

end Page

/-- Whatever was done to an empty page, by steps and by the handlers of their events: the search below an attached
element ends, and the element is removed. Those that were attached are so afterwards unless they are the element or
below it, the ids that led there are gone, and everything else is as it was. A handle is refused as detached,
whatever is asked of it, exactly if it was never given out or is below an element that was removed. And two
elements can be removed in any order, if one that went with the other is skipped. -/
theorem remove_subtree {es : List (Page.Edit Action)} {p : Page Action} (hp : Page.empty.Edited es p) :
    (∀ e, p.Attached e → p.Drains [e] (p.subtree e) ∧ ∃ q, p.remove e = .ok q ∧
      (∀ i, q.Attached i ↔ p.Attached i ∧ ¬ p.Under i e) ∧
      (∀ entry, entry ∈ q.ids ↔ entry ∈ p.ids ∧ ¬ p.Under entry.2 e) ∧
      q.elements.length = p.elements.length ∧
      (∀ (i : Nat) (a : Element), p.elements[i]? = some a → ∃ b, q.elements[i]? = some { a with attached := b }) ∧
      q.handlers = p.handlers ∧ q.listeners = p.listeners ∧ q.dispatched = p.dispatched) ∧
    (∀ (d : Nat) (request : Page.Request), p.refusal? d request = some (.detached d) ↔
      p.elements.length ≤ d ∨ ∃ h ∈ Page.removals es, p.Under d h) ∧
    (∀ a b, (p.prune a).prune b = (p.prune b).prune a) ∧
    ∀ (s : Scene) (now depth : Nat) (target : Option Nat) (step : PageStep), s.page = p →
      ∃ es', Page.empty.Edited (es ++ es') (s.perform now depth target step).1.page := by
  have hs := hp.sound
  refine ⟨?_, ?_, ?_, ?_⟩
  · intro e ha
    have hr := hs.remove_eq ha
    refine ⟨hs.drains ha, _, hr, fun _ => Page.attached_without, fun _ => Page.mem_ids_without,
      Page.length_remove hr, ?_, rfl, rfl, rfl⟩
    intro i a hi
    rw [Page.getElem?_remove hr, hi]
    by_cases hmem : i ∈ p.subtree e
    · exact ⟨false, by simp [hmem]⟩
    · exact ⟨a.attached, by simp [hmem]⟩
  · intro d request
    rw [Page.refusal?_detached, hp.detached_iff]
  · intro a b
    rw [hs.prune_prune, hs.prune_prune, Set.union_comm]
  · rintro s now depth target step rfl
    exact Scene.edited_perform hp now depth target step

/-- Two trees whose elements were created in turn: 1 and 4 below 0, 5 below 4, and 3 below 2. -/
def Demo.grove : Page Action where
  elements := [⟨"div", none, "block", none, none, true⟩, ⟨"p", some 0, "block", none, none, true⟩,
    ⟨"div", none, "block", none, none, true⟩, ⟨"input", some 2, "inline", some "", none, true⟩,
    ⟨"ul", some 0, "block", none, none, true⟩, ⟨"li", some 4, "block", none, none, true⟩]
  ids := [("a", 0), ("b", 2), ("item", 5)]
  handlers := []
  listeners := []
  dispatched := []

/-- With the first tree its list goes, and the other tree stays. -/
theorem remove_subtree_grove : ∃ q, Demo.grove.remove 0 = .ok q ∧ (∀ i, q.Attached i ↔ i = 2 ∨ i = 3) ∧
    ("item", 5) ∉ q.ids ∧ ("b", 2) ∈ q.ids ∧ Demo.grove.refusal? 6 .value = some (.detached 6) ∧
    Demo.grove.refusal? 5 .value ≠ some (.detached 5) ∧
    (Demo.grove.prune 4).prune 0 = (Demo.grove.prune 0).prune 4 := by
  have hedits : Page.empty.Edited [.create none "div" "a" false, .create (some 0) "p" "" false,
      .create none "div" "b" false, .create (some 2) "input" "" false, .create (some 0) "ul" "" false,
      .create (some 4) "li" "item" false] Demo.grove := Page.edited_of_foldlM rfl
  obtain ⟨hremove, hrefused, hprune, -⟩ := remove_subtree hedits
  have hroot : Demo.grove.Attached 0 := ⟨_, rfl, rfl⟩
  have hfound : Demo.grove.subtree 0 = [0, 1, 4, 5] := by decide +kernel
  obtain ⟨-, q, hq, hatt, hids, -⟩ := hremove 0 hroot
  have hall (i : Nat) : Demo.grove.Attached i ↔ i < 6 := by
    refine ⟨fun hi => hi.lt, fun hi => ?_⟩
    interval_cases i
    all_goals exact ⟨_, rfl, rfl⟩
  have hbelow (i : Nat) (hi : i < 6) : Demo.grove.Under i 0 ↔ i ∈ [0, 1, 4, 5] := by
    rw [← hfound, hedits.sound.mem_subtree hroot, and_iff_right ((hall i).2 hi)]
  refine ⟨q, hq, ?_, ?_, ?_, (hrefused 6 .value).2 (.inl le_rfl), ?_, hprune 4 0⟩
  · intro i
    rw [hatt, hall]
    by_cases hi : i < 6
    · rw [hbelow i hi]
      simp
      omega
    · omega
  · exact fun hmem => ((hids _).1 hmem).2 ((hbelow 5 (by decide)).2 (by decide))
  · exact (hids _).2 ⟨by simp [Demo.grove], fun hu => by simpa using (hbelow 2 (by decide)).1 hu⟩
  · rw [ne_eq, Page.refusal?_detached, not_not]
    exact (hall 5).2 (by decide)

end PageTest
