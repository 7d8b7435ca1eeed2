import PageTest.Proofs.Page.Changes
import PageTest.Proofs.Page.Walks

/-! The arena of elements in the course of time. Parents come before their children, whoever is attached
has an attached parent, and ids lead to attached elements only. Every change keeps this: it leaves the arena
in shape, adds an element or removes one with all that is below it. -/

namespace PageTest

/-- The element without its style and contents. -/
def Element.shape (e : Element) : String × Option Nat × Bool := (e.tag, e.parent, e.attached)

namespace Page

variable {α : Type} {p q r : Page α} {h : Nat}

/-- What becomes of the elements in the course of time. -/
structure Later (p q : Page α) : Prop where
  length : p.elements.length ≤ q.elements.length
  kept : ∀ (h : Nat) (e : Element), p.elements[h]? = some e →
    ∃ e', q.elements[h]? = some e' ∧ e'.tag = e.tag ∧ e'.parent = e.parent ∧
      (e'.attached = true → e.attached = true)

theorem Later.refl (p : Page α) : p.Later p := ⟨le_rfl, fun _ e he => ⟨e, he, rfl, rfl, id⟩⟩

theorem Later.trans (h₁ : p.Later q) (h₂ : q.Later r) : p.Later r := by
  refine ⟨h₁.length.trans h₂.length, ?_⟩
  intro h e he
  obtain ⟨e₁, he₁, htag₁, hparent₁, hatt₁⟩ := h₁.kept h e he
  obtain ⟨e₂, he₂, htag₂, hparent₂, hatt₂⟩ := h₂.kept h e₁ he₁
  exact ⟨e₂, he₂, htag₂.trans htag₁, hparent₂.trans hparent₁, fun ha => hatt₁ (hatt₂ ha)⟩

/-! Changes that leave the arena in shape -/

/-- The same elements in the same places, perhaps with other styles and contents, under the same ids. -/
structure Alike (p q : Page α) : Prop where
  shape : q.elements.map Element.shape = p.elements.map Element.shape
  ids : q.ids = p.ids

theorem Alike.same (he : q.elements = p.elements) (hi : q.ids = p.ids) : p.Alike q := ⟨by rw [he], hi⟩

theorem alike_modify {f : Element → Element} (hf : ∀ e, (f e).shape = e.shape) : p.Alike (p.modify h f) := by
  refine ⟨List.ext_getElem? fun i => ?_, rfl⟩
  simp only [modify, List.getElem?_map, List.getElem?_modify]
  by_cases hi : h = i
  · subst hi
    cases p.elements[h]? <;> simp [hf]
  · simp [hi]

/-- A change of one element, made if a question about it has an answer. -/
theorem alike_of_map {β : Type} {r : Except PageError β} {f : Element → Element}
    (hr : r.map (fun _ => p.modify h f) = .ok q) (hf : ∀ e, (f e).shape = e.shape) : p.Alike q := by
  cases r with
  | error e => simp [Except.map] at hr
  | ok b =>
    rw [← Except.ok.inj hr]
    exact alike_modify hf

namespace Alike

theorem length (ha : p.Alike q) : q.elements.length = p.elements.length := by
  simpa only [List.length_map] using congrArg List.length ha.shape

theorem getElem? (ha : p.Alike q) (i : Nat) :
    (q.elements[i]?).map Element.shape = (p.elements[i]?).map Element.shape := by
  rw [← List.getElem?_map, ← List.getElem?_map, ha.shape]

theorem attached (ha : p.Alike q) (i : Nat) : q.Attached i ↔ p.Attached i := by
  have hsh := ha.getElem? i
  unfold Attached
  cases hq : q.elements[i]? with
  | none =>
    rw [hq] at hsh
    have hp : p.elements[i]? = none := by simpa using hsh.symm
    simp [hp]
  | some e =>
    rw [hq] at hsh
    obtain ⟨e', hp, he⟩ := Option.map_eq_some_iff.1 hsh.symm
    have hatt : e'.attached = e.attached := congrArg (·.2.2) he
    simp [hp, hatt]

theorem parentOf (ha : p.Alike q) (i : Nat) : q.parentOf i = p.parentOf i := by
  have hsh := congrArg (Option.bind · (·.2.1)) (ha.getElem? i)
  simpa [Page.parentOf, Option.bind_map, Function.comp_def, Element.shape] using hsh

theorem sound (ha : p.Alike q) (hs : p.Sound) : q.Sound := by
  refine ⟨?_, ?_, ?_⟩
  · intro h k hp
    exact hs.older h k (ha.parentOf h ▸ hp)
  · intro h k hatt hp
    exact (ha.attached k).2 (hs.upward h k ((ha.attached h).1 hatt) (ha.parentOf h ▸ hp))
  · intro entry hentry
    exact (ha.attached _).2 (hs.indexed entry (ha.ids ▸ hentry))

theorem later (ha : p.Alike q) : p.Later q := by
  refine ⟨ha.length.ge, ?_⟩
  intro h e he
  have hsh := ha.getElem? h
  rw [he] at hsh
  obtain ⟨e', he', hs⟩ := Option.map_eq_some_iff.1 hsh
  refine ⟨e', he', congrArg (·.1) hs, congrArg (·.2.1) hs, ?_⟩
  intro hatt
  rwa [show e'.attached = e.attached from congrArg (·.2.2) hs] at hatt

end Alike

/-! Elements that are added -/

theorem mem_setId {id : String} {ids : List (String × Nat)} {entry : String × Nat} (hm : entry ∈ setId id h ids) :
    entry = (id, h) ∨ entry ∈ ids := by
  induction ids with
  | nil => exact .inl (List.mem_singleton.1 hm)
  | cons first rest ih =>
    unfold setId at hm
    split_ifs at hm
    · rcases List.mem_cons.1 hm with rfl | hm
      · exact .inl rfl
      · exact .inr (List.mem_cons_of_mem _ hm)
    · rcases List.mem_cons.1 hm with rfl | hm
      · exact .inr (List.mem_cons_self ..)
      · exact (ih hm).imp_right (List.mem_cons_of_mem _)

/-- An element is added at the top, or below an attached one. -/
theorem insert_eq_ok {parent : Option Nat} {tag id : String} {checkbox : Bool}
    (hi : p.insert parent tag id checkbox = .ok (h, q)) :
    (∀ k, parent = some k → p.Attached k) ∧ (h, q) = p.push parent tag id checkbox := by
  unfold insert at hi
  cases parent with
  | none => exact ⟨by simp, (Except.ok.inj hi).symm⟩
  | some k =>
    dsimp only at hi
    cases hg : p.get k with
    | error e => simp [hg] at hi
    | ok e =>
      rw [hg] at hi
      refine ⟨?_, (Except.ok.inj hi).symm⟩
      intro j hj
      obtain rfl := Option.some.inj hj
      exact attached_of_get hg

section Push

variable {parent : Option Nat} {tag id : String} {checkbox : Bool}

theorem getElem?_push (i : Nat) : (p.push parent tag id checkbox).2.elements[i]? =
    if i = p.elements.length then some (Element.fresh tag parent checkbox) else p.elements[i]? := by
  show (p.elements ++ [Element.fresh tag parent checkbox])[i]? = _
  split_ifs with hi
  · subst hi
    exact List.getElem?_concat_length
  · rw [List.getElem?_append]
    split_ifs with hlt
    · rfl
    · have h1 : 1 ≤ i - p.elements.length := by omega
      rw [List.getElem?_eq_none (by simpa using h1), List.getElem?_eq_none (by omega)]

theorem parentOf_push (i : Nat) : (p.push parent tag id checkbox).2.parentOf i =
    if i = p.elements.length then parent else p.parentOf i := by
  unfold parentOf
  rw [getElem?_push]
  split_ifs
  · rfl
  · rfl

theorem attached_push (i : Nat) :
    (p.push parent tag id checkbox).2.Attached i ↔ i = p.elements.length ∨ p.Attached i := by
  unfold Attached
  rw [getElem?_push]
  split_ifs with hi
  · simp [hi, Element.fresh]
  · simp [hi]

theorem Sound.push (hs : p.Sound) (hp : ∀ k, parent = some k → p.Attached k) :
    (p.push parent tag id checkbox).2.Sound := by
  refine ⟨?_, ?_, ?_⟩
  · intro h k hk
    rw [parentOf_push] at hk
    split_ifs at hk with hh
    · subst hh
      exact (hp k hk).lt
    · exact hs.older h k hk
  · intro h k hatt hk
    rw [parentOf_push] at hk
    rw [attached_push] at hatt ⊢
    split_ifs at hk with hh
    · exact .inr (hp k hk)
    · exact .inr (hs.upward h k (hatt.resolve_left hh) hk)
  · intro entry hentry
    rw [attached_push]
    have hmem : entry ∈ (if id = "" then p.ids else setId id p.elements.length p.ids) := hentry
    split_ifs at hmem
    · exact .inr (hs.indexed entry hmem)
    · rcases mem_setId hmem with rfl | hmem
      · exact .inl rfl
      · exact .inr (hs.indexed entry hmem)

theorem later_push : p.Later (p.push parent tag id checkbox).2 := by
  refine ⟨by simp [Page.push], ?_⟩
  intro h e he
  have hlt := (List.getElem?_eq_some_iff.1 he).1
  exact ⟨e, by rw [getElem?_push, if_neg (by omega), he], rfl, rfl, fun ha => ha⟩

end Push

/-! Elements that are removed -/

theorem remove_eq_ok (hr : p.remove h = .ok q) : p.Attached h ∧
    q = { p with
      elements := p.elements.mapIdx fun i e => if i ∈ p.subtree h then { e with attached := false } else e
      ids := p.ids.filter fun entry => entry.2 ∉ p.subtree h } := by
  unfold remove at hr
  cases hg : p.get h with
  | error e => simp [hg] at hr
  | ok e =>
    rw [hg] at hr
    exact ⟨attached_of_get hg, (Except.ok.inj hr).symm⟩

theorem length_remove (hr : p.remove h = .ok q) : q.elements.length = p.elements.length := by
  rw [(remove_eq_ok hr).2]
  simp

theorem getElem?_remove (hr : p.remove h = .ok q) (i : Nat) : q.elements[i]? =
    p.elements[i]?.map fun e => if i ∈ p.subtree h then { e with attached := false } else e := by
  rw [(remove_eq_ok hr).2]
  exact List.getElem?_mapIdx

theorem parentOf_remove (hr : p.remove h = .ok q) (i : Nat) : q.parentOf i = p.parentOf i := by
  unfold parentOf
  rw [getElem?_remove hr]
  cases p.elements[i]? with
  | none => rfl
  | some e =>
    simp only [Option.map_some, Option.bind_some]
    split_ifs
    · rfl
    · rfl

theorem attached_remove (hr : p.remove h = .ok q) (i : Nat) :
    q.Attached i ↔ p.Attached i ∧ i ∉ p.subtree h := by
  unfold Attached
  rw [getElem?_remove hr]
  by_cases hi : i ∈ p.subtree h
  · simp [hi]
  · simp [hi]

theorem Sound.remove (hs : p.Sound) (hr : p.remove h = .ok q) : q.Sound := by
  refine ⟨?_, ?_, ?_⟩
  · intro i k hk
    rw [parentOf_remove hr] at hk
    exact hs.older i k hk
  · intro i k hatt hk
    rw [parentOf_remove hr] at hk
    rw [attached_remove hr] at hatt ⊢
    refine ⟨hs.upward i k hatt.1 hk, ?_⟩
    -- the parent does not go without the child
    intro hmem
    exact hatt.2 ((hs.drains (remove_eq_ok hr).1).closed k hmem i (mem_attachedChildren.2 ⟨hatt.1, hk⟩))
  · intro entry hentry
    rw [(remove_eq_ok hr).2] at hentry
    obtain ⟨hmem, hout⟩ := List.mem_filter.1 hentry
    rw [attached_remove hr]
    exact ⟨hs.indexed entry hmem, by simpa using hout⟩

theorem later_remove (hr : p.remove h = .ok q) : p.Later q := by
  refine ⟨(length_remove hr).ge, ?_⟩
  intro i e he
  rw [getElem?_remove hr, he]
  refine ⟨_, rfl, ?_⟩
  split_ifs
  · exact ⟨rfl, rfl, by simp⟩
  · exact ⟨rfl, rfl, id⟩

/-! All changes -/

/-- An edit adds an element, removes some or leaves the elements and ids alone. -/
theorem edit_cases {e : Edit α} (he : p.edit e = .ok q) :
    (∃ parent tag id checkbox, e = .create parent tag id checkbox ∧ (∀ k, parent = some k → p.Attached k) ∧
      q = (p.push parent tag id checkbox).2) ∨
    (∃ h, e = .remove h ∧ p.remove h = .ok q) ∨ (e.id? = none ∧ e.removed? = none ∧ p.Alike q) := by
  cases e with
  | create parent tag id checkbox =>
    obtain ⟨⟨h, r⟩, hi, rfl⟩ := map_eq_ok he
    obtain ⟨hp, heq⟩ := insert_eq_ok hi
    exact .inl ⟨parent, tag, id, checkbox, rfl, hp, congrArg Prod.snd heq⟩
  | remove h => exact .inr (.inl ⟨h, rfl, he⟩)
  | display h v => exact .inr (.inr ⟨rfl, rfl, alike_of_map he fun _ => rfl⟩)
  | value h v => exact .inr (.inr ⟨rfl, rfl, alike_of_map he fun _ => rfl⟩)
  | checked h b => exact .inr (.inr ⟨rfl, rfl, alike_of_map he fun _ => rfl⟩)
  | record d =>
    obtain ⟨⟨r, actions⟩, hd, rfl⟩ := map_eq_ok he
    obtain rfl := dispatch_eq_ok hd
    exact .inr (.inr ⟨rfl, rfl, .same rfl rfl⟩)
  | handler | listen | fire | unlisten =>
    obtain rfl := Except.ok.inj he
    exact .inr (.inr ⟨rfl, rfl, .same rfl rfl⟩)

/-- A change leaves the elements and ids alone, adds an element or removes some. -/
theorem Change.cases_arena (hc : p.Change q) : p.Alike q ∨
    (∃ parent tag id checkbox, (∀ k, parent = some k → p.Attached k) ∧ q = (p.push parent tag id checkbox).2) ∨
    ∃ h, p.remove h = .ok q := by
  obtain ⟨e, he⟩ := hc.exists_edit
  rcases edit_cases he with ⟨parent, tag, id, checkbox, -, hpush⟩ | ⟨h, -, hr⟩ | ⟨-, -, ha⟩
  · exact .inr (.inl ⟨parent, tag, id, checkbox, hpush⟩)
  · exact .inr (.inr ⟨h, hr⟩)
  · exact .inl ha

theorem Change.sound (hc : p.Change q) (hs : p.Sound) : q.Sound := by
  rcases hc.cases_arena with ha | ⟨parent, tag, id, checkbox, hp, rfl⟩ | ⟨h, hr⟩
  · exact ha.sound hs
  · exact hs.push hp
  · exact hs.remove hr

theorem Change.later (hc : p.Change q) : p.Later q := by
  rcases hc.cases_arena with ha | ⟨parent, tag, id, checkbox, -, rfl⟩ | ⟨h, hr⟩
  · exact ha.later
  · exact later_push
  · exact later_remove hr

theorem Changes.sound (hc : p.Changes q) (hs : p.Sound) : q.Sound := by
  induction hc with
  | refl => exact hs
  | tail _ hc ih => exact hc.sound ih

theorem Changes.later (hc : p.Changes q) : p.Later q := by
  induction hc with
  | refl => exact .refl p
  | tail _ hc ih => exact ih.trans hc.later

theorem sound_empty : (empty : Page α).Sound := by
  refine ⟨?_, ?_, ?_⟩
  · intro h k hp
    simp [parentOf, empty] at hp
  · rintro h k ⟨e, he, -⟩
    simp [empty] at he
  · simp [empty]

theorem Edited.sound {es : List (Edit α)} (h : empty.Edited es p) : p.Sound := h.changes.sound sound_empty

/-! What a reader of the page can rely on -/

/-- A handle is the number of elements that were created before. -/
theorem handle_insert {parent : Option Nat} {tag id : String} {checkbox : Bool}
    (hi : p.insert parent tag id checkbox = .ok (h, q)) :
    h = p.elements.length ∧ q.elements = p.elements ++ [Element.fresh tag parent checkbox] := by
  obtain ⟨rfl, rfl⟩ := Prod.mk.inj (insert_eq_ok hi).2
  exact ⟨rfl, rfl⟩

theorem Later.attached (hl : p.Later q) (hlt : h < p.elements.length) (ha : q.Attached h) : p.Attached h := by
  obtain ⟨e, he, hatt⟩ := ha
  obtain ⟨e', he', -, -, hback⟩ := hl.kept h _ (List.getElem?_eq_getElem hlt)
  obtain rfl := Option.some.inj (he.symm.trans he')
  exact ⟨_, List.getElem?_eq_getElem hlt, hback hatt⟩

theorem Sound.attached_of_query {sel : String} (hs : p.Sound) (hq : p.query sel = .ok h) : p.Attached h := by
  unfold query at hq
  split at hq
  · split at hq
    next found hl =>
      obtain rfl := Except.ok.inj hq
      obtain ⟨before, after, hids, -⟩ := List.lookup_eq_some_iff.1 hl
      exact hs.indexed _ (by rw [hids]; exact List.mem_append_right _ (List.mem_cons_self ..))
    next => simp at hq
  · simp at hq

/-- An attached element answers questions, and events can be dispatched on it. -/
theorem Attached.usable (ha : p.Attached h) : (∃ t, p.tag h = .ok t) ∧ (∃ d, p.display h = .ok d) ∧
    ∀ kind bubbles, ∃ r, p.dispatch ⟨h, kind, bubbles⟩ = .ok r := by
  obtain ⟨e, he⟩ := ha.get
  refine ⟨⟨e.tag, by simp [tag, he, Except.map]⟩, ⟨e.display, by simp [Page.display, he, Except.map]⟩, ?_⟩
  intro kind bubbles
  unfold Page.dispatch
  simp only [he]
  exact ⟨_, rfl⟩

end Page

/-- Whatever was done to an empty page, by steps and by the handlers of their events: a new handle is the
number of elements created so far, and is not given again; parents come before their children, attached
elements have attached parents, and ids lead to attached elements; whatever is done next, elements stay in
their places below their parents, and one that is detached stays so. So a handle that was looked up can be
used, and the walk to the root and the search below an element end, the latter within the arena. -/
theorem arena_sound {p : Page Action} (hp : Page.empty.Changes p) :
    (∀ parent tag id checkbox h q, p.insert parent tag id checkbox = .ok (h, q) →
      h = p.elements.length ∧ q.elements = p.elements ++ [Element.fresh tag parent checkbox] ∧
      ∀ r, q.Changes r → ∀ parent tag id checkbox h' r', r.insert parent tag id checkbox = .ok (h', r') → h < h') ∧
    p.Sound ∧
    (∀ q, p.Changes q → p.Later q ∧ ∀ h, h < p.elements.length → ¬ p.Attached h → ¬ q.Attached h) ∧
    (∀ sel h, p.query sel = .ok h → (∃ t, p.tag h = .ok t) ∧ (∃ d, p.display h = .ok d) ∧
      ∀ kind bubbles, ∃ r, p.dispatch ⟨h, kind, bubbles⟩ = .ok r) ∧
    (∀ h, p.Climbs h (p.ancestors h)) ∧
    (∀ h, p.Attached h → p.Drains [h] (p.subtree h) ∧ ∀ i ∈ p.subtree h, i < p.elements.length) ∧
    ∀ (s : Scene) (now depth : Nat) (target : Option Nat) (step : PageStep), s.page = p →
      p.Changes (s.perform now depth target step).1.page := by
  have hs : p.Sound := hp.sound Page.sound_empty
  refine ⟨?_, hs, ?_, ?_, hs.climbs, ?_, ?_⟩
  · intro parent tag id checkbox h q hi
    obtain ⟨hh, hq⟩ := Page.handle_insert hi
    refine ⟨hh, hq, ?_⟩
    intro r hr parent' tag' id' checkbox' h' r' hi'
    have hlen : q.elements.length = p.elements.length + 1 := by simp [hq]
    have hle := hr.later.length
    have hh' := (Page.handle_insert hi').1
    omega
  · intro q hq
    refine ⟨hq.later, ?_⟩
    intro h hlt hdetached hatt
    exact hdetached (hq.later.attached hlt hatt)
  · intro sel h hq
    exact (hs.attached_of_query hq).usable
  · intro h ha
    exact ⟨hs.drains ha, fun i hi => (hs.attached_subtree ha i hi).lt⟩
  · rintro s now depth target step rfl
    exact Scene.changes_perform now depth target s step

/-- A form whose handlers remove the field an event was dispatched on, add to the form and dispatch again. -/
def Demo.shifting : Scene :=
  [.add "form" "form", .addInput "field" (some (.handle 0)),
    .on (.handle 0) "input" [.remove .target, .addChild (.handle 0) "p" "note", .dispatch (.handle 0) "change" true],
    .on (.handle 0) "change" [.add "div" "late"],
    .dispatch (.handle 1) "input" true].foldl (fun s step => (s.perform 0 9 none step).1) .empty

theorem Demo.shifting_changes : Page.empty.Changes shifting.page := by
  suffices h : ∀ (steps : List PageStep) (s : Scene),
      s.page.Changes (steps.foldl (fun s step => (s.perform 0 9 none step).1) s).page from h _ .empty
  intro steps
  induction steps with
  | nil => exact fun _ => .refl
  | cons step rest ih => exact fun s => (Scene.changes_perform 0 _ none s step).trans (ih _)

/-- The field is gone for good, and what came after it is there. -/
theorem arena_sound_demo : Demo.shifting.page.query "#field" = .error (.noMatch "#field") ∧
    Demo.shifting.page.query "#late" = .ok 3 ∧ (∃ d, Demo.shifting.page.display 3 = .ok d) ∧
    Demo.shifting.page.Climbs 1 [0] ∧ Demo.shifting.page.Drains [0] [0, 2] ∧
    ∀ q, Demo.shifting.page.Changes q → ¬ q.Attached 1 := by
  obtain ⟨-, -, hlater, hquery, hclimbs, hdrains, -⟩ := arena_sound Demo.shifting_changes
  have hlate : Demo.shifting.page.query "#late" = .ok 3 := by decide +kernel
  have hup : Demo.shifting.page.ancestors 1 = [0] := by decide +kernel
  have hdown : Demo.shifting.page.subtree 0 = [0, 2] := by decide +kernel
  have hform : Demo.shifting.page.Attached 0 := by
    obtain ⟨e, he⟩ : ∃ e, Demo.shifting.page.get? 0 = some e := Option.isSome_iff_exists.1 (by decide +kernel)
    exact ⟨e, Page.get?_eq_some.1 he⟩
  have hfield : ¬ Demo.shifting.page.Attached 1 := by
    rintro ⟨e, he⟩
    have hnone : Demo.shifting.page.get? 1 = none := by decide +kernel
    simp [Page.get?_eq_some.2 he] at hnone
  refine ⟨by decide +kernel, hlate, (hquery _ _ hlate).2.1, hup ▸ hclimbs 1, hdown ▸ (hdrains 0 hform).1, ?_⟩
  intro q hq
  exact (hlater q hq).2 1 (by decide +kernel) hfield

end PageTest
