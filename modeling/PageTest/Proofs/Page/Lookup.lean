import PageTest.Proofs.Page.Arena

/-! Looking elements up by their ids. Elements do not know their ids: the page keeps one element for each id, the
last that was created with it, and forgets that one when it is removed, even if an earlier one is still attached. -/

namespace PageTest

namespace Page

variable {α : Type} {p q : Page α} {es : List (Edit α)} {ids : List String} {id : String} {h k : Nat}

/-- The ids that elements were created with, in order, so that each stands at the place of its element. -/
def givenIds (es : List (Edit α)) : List String := es.filterMap Edit.id?

/-- The last element that was created with the id. -/
def Newest (ids : List String) (id : String) (h : Nat) : Prop :=
  ids[h]? = some id ∧ ∀ k, h < k → ids[k]? ≠ some id

/-- What the page knows of the ids that its elements were created with. -/
structure Indexed (ids : List String) (p : Page α) : Prop where
  length : p.elements.length = ids.length
  keys : (p.ids.map Prod.fst).Nodup
  mem : ∀ id h, (id, h) ∈ p.ids ↔ id ≠ "" ∧ Newest ids id h ∧ p.Attached h

/-! Who is newest -/

theorem Newest.unique (hh : Newest ids id h) (hk : Newest ids id k) : h = k := by
  apply le_antisymm
  · by_contra hlt
    exact hk.2 h (by omega) hh.1
  · by_contra hlt
    exact hh.2 k (by omega) hk.1

theorem Newest.lt (hh : Newest ids id h) : h < ids.length := (List.getElem?_eq_some_iff.1 hh.1).1

/-- Whoever has been created with an id, somebody is newest. -/
theorem exists_newest (hh : ids[h]? = some id) : ∃ k, h ≤ k ∧ Newest ids id k := by
  induction hn : ids.length - h using Nat.strong_induction_on generalizing h with
  | _ n ih =>
    by_cases hlast : ∀ k, h < k → ids[k]? ≠ some id
    · exact ⟨h, le_rfl, hh, hlast⟩
    · push Not at hlast
      obtain ⟨k, hlt, hk⟩ := hlast
      have hin := (List.getElem?_eq_some_iff.1 hk).1
      obtain ⟨m, hm, hnew⟩ := ih (ids.length - k) (by omega) hk rfl
      exact ⟨m, by omega, hnew⟩

theorem newest_concat (name : String) :
    Newest (ids ++ [name]) id h ↔ if id = name then h = ids.length else Newest ids id h := by
  have hnew : (ids ++ [name])[ids.length]? = some name := List.getElem?_concat_length
  have hold (k : Nat) (hk : k ≠ ids.length) : (ids ++ [name])[k]? = ids[k]? := by
    rcases Nat.lt_or_gt_of_ne hk with hlt | hgt
    · exact List.getElem?_append_left hlt
    · rw [List.getElem?_eq_none (by simpa using hgt), List.getElem?_eq_none (by omega)]
  split_ifs with hid
  · subst hid
    constructor
    · intro hh
      exact hh.unique ⟨hnew, fun k hk => by rw [List.getElem?_eq_none (by simpa using hk)]; simp⟩
    · rintro rfl
      exact ⟨hnew, fun k hk => by rw [List.getElem?_eq_none (by simpa using hk)]; simp⟩
  · have hother (k : Nat) : (ids ++ [name])[k]? = some id ↔ ids[k]? = some id := by
      by_cases hk : k = ids.length
      · subst hk
        rw [hnew, List.getElem?_eq_none le_rfl]
        simp [Ne.symm hid]
      · rw [hold k hk]
    simp only [Newest, ne_eq, hother]

/-! What the page knows -/

theorem keys_setId {l : List (String × Nat)} (hk : (l.map Prod.fst).Nodup) : ((setId id h l).map Prod.fst).Nodup := by
  induction l with
  | nil => simp [setId]
  | cons entry rest ih =>
    obtain ⟨hfresh, hrest⟩ := List.nodup_cons.1 hk
    unfold setId
    split_ifs with hid
    · exact List.nodup_cons.2 ⟨hid ▸ hfresh, hrest⟩
    · refine List.nodup_cons.2 ⟨?_, ih hrest⟩
      intro hmem
      obtain ⟨other, hother, heq⟩ := List.mem_map.1 hmem
      rcases mem_setId hother with rfl | hother
      · exact hid heq
      · exact hfresh (List.mem_map.2 ⟨other, hother, heq⟩)

/-- Only the entry of the id itself is replaced. -/
theorem mem_setId_iff {l : List (String × Nat)} (hk : (l.map Prod.fst).Nodup) {entry : String × Nat} :
    entry ∈ setId id h l ↔ entry = (id, h) ∨ entry.1 ≠ id ∧ entry ∈ l := by
  induction l with
  | nil => simp [setId]
  | cons first rest ih =>
    obtain ⟨hfresh, hrest⟩ := List.nodup_cons.1 hk
    have hdistinct (hmem : entry ∈ rest) : entry.1 ≠ first.1 := by
      intro heq
      exact hfresh (List.mem_map.2 ⟨entry, hmem, heq⟩)
    unfold setId
    split_ifs with hid
    · rw [List.mem_cons, List.mem_cons]
      constructor
      · rintro (rfl | hmem)
        · exact .inl rfl
        · exact .inr ⟨hid ▸ hdistinct hmem, .inr hmem⟩
      · rintro (rfl | ⟨hne, rfl | hmem⟩)
        · exact .inl rfl
        · exact absurd hid.symm hne
        · exact .inr hmem
    · rw [List.mem_cons, List.mem_cons, ih hrest]
      constructor
      · rintro (rfl | rfl | ⟨hne, hmem⟩)
        · exact .inr ⟨Ne.symm hid, .inl rfl⟩
        · exact .inl rfl
        · exact .inr ⟨hne, .inr hmem⟩
      · rintro (rfl | ⟨hne, rfl | hmem⟩)
        · exact .inr (.inl rfl)
        · exact .inl rfl
        · exact .inr (.inr ⟨hne, hmem⟩)

namespace Indexed

theorem alike (hi : Indexed ids p) (ha : p.Alike q) : Indexed ids q where
  length := ha.length.trans hi.length
  keys := ha.ids ▸ hi.keys
  mem id h := by rw [ha.ids, hi.mem, ha.attached]

theorem push (hi : Indexed ids p) (parent : Option Nat) (tag name : String) (checkbox : Bool) :
    Indexed (ids ++ [name]) (p.push parent tag name checkbox).2 := by
  have hentries : (p.push parent tag name checkbox).2.ids =
      if name = "" then p.ids else setId name p.elements.length p.ids := rfl
  refine ⟨by simp [Page.push, hi.length], ?_, ?_⟩
  · rw [hentries]
    split_ifs
    · exact hi.keys
    · exact keys_setId hi.keys
  · intro id h
    have hold (hnew : Newest ids id h) : (h = ids.length ∨ p.Attached h) ↔ p.Attached h :=
      or_iff_right hnew.lt.ne
    rw [hentries, newest_concat, attached_push, hi.length]
    by_cases hempty : name = ""
    · subst hempty
      rw [if_pos rfl, hi.mem]
      refine and_congr_right fun hid => ?_
      rw [if_neg hid]
      exact and_congr_right fun hnew => (hold hnew).symm
    · rw [if_neg hempty, mem_setId_iff hi.keys, hi.mem, Prod.mk.injEq]
      by_cases hid : id = name
      · subst hid
        have hlast : h = ids.length → h = ids.length ∨ p.Attached h := .inl
        simpa [hempty] using hlast
      · simp only [hid, false_and, false_or, ne_eq, not_false_eq_true, true_and, if_false]
        exact and_congr_right fun _ => and_congr_right fun hnew => (hold hnew).symm

theorem remove (hi : Indexed ids p) (hr : p.remove k = .ok q) : Indexed ids q := by
  have hq := (remove_eq_ok hr).2
  have hentries : q.ids = p.ids.filter fun entry => entry.2 ∉ p.subtree k := by rw [hq]
  refine ⟨(length_remove hr).trans hi.length, ?_, ?_⟩
  · rw [hentries]
    exact hi.keys.sublist (List.filter_sublist.map Prod.fst)
  · intro id h
    rw [hentries, List.mem_filter, hi.mem, attached_remove hr]
    simp [and_assoc]

theorem edit {e : Edit α} (hi : Indexed ids p) (he : p.edit e = .ok q) : Indexed (ids ++ givenIds [e]) q := by
  rcases edit_cases he with ⟨parent, tag, id, checkbox, rfl, -, rfl⟩ | ⟨h, rfl, hr⟩ | ⟨hid, -, ha⟩
  · exact hi.push parent tag id checkbox
  · have hnone : givenIds [Edit.remove (α := α) h] = [] := rfl
    rw [hnone, List.append_nil]
    exact hi.remove hr
  · simpa [givenIds, hid] using hi.alike ha

/-- Whatever was done to the page. -/
theorem of_edited (hp : Page.empty.Edited es p) : Indexed (givenIds es) p := by
  induction hp with
  | start => exact ⟨rfl, List.nodup_nil, by simp [Page.empty, givenIds, Newest]⟩
  | step _ he ih => simpa [givenIds] using ih.edit he

/-- There is one entry for an id, so it is found. -/
theorem lookup (hi : Indexed ids p) (hid : id ≠ "") :
    p.ids.lookup id = some h ↔ Newest ids id h ∧ p.Attached h := by
  constructor
  · intro hl
    obtain ⟨before, after, heq, -⟩ := List.lookup_eq_some_iff.1 hl
    exact ((hi.mem id h).1 (by simp [heq])).2
  · intro hh
    have hmem : (id, h) ∈ p.ids := (hi.mem id h).2 ⟨hid, hh⟩
    obtain ⟨found, hl⟩ : ∃ found, p.ids.lookup id = some found := by
      rw [← Option.isSome_iff_exists, List.lookup_isSome_iff]
      exact ⟨(id, h), hmem, by simp⟩
    obtain ⟨before, after, heq, -⟩ := List.lookup_eq_some_iff.1 hl
    have hfound := ((hi.mem id found).1 (by simp [heq])).2.1
    rw [hl, hfound.unique hh.1]

end Indexed

theorem query_id (p : Page α) (id : String) : p.query ("#" ++ id) =
    match p.ids.lookup id with
    | some h => .ok h
    | none => .error (.noMatch ("#" ++ id)) := by
  have hchars : ("#" ++ id).toList = '#' :: id.toList := by simp
  unfold query
  cases hl : p.ids.lookup id with
  | none => simp [hchars, hl]
  | some h => simp [hchars, hl]

theorem Indexed.query (hi : Indexed ids p) (hid : id ≠ "") :
    p.query ("#" ++ id) = .ok h ↔ Newest ids id h ∧ p.Attached h := by
  rw [query_id, ← hi.lookup hid]
  cases p.ids.lookup id with
  | none => simp
  | some found => simp

theorem Indexed.query_fails (hi : Indexed ids p) (hid : id ≠ "") :
    p.query ("#" ++ id) = .error (.noMatch ("#" ++ id)) ↔ ∀ h, Newest ids id h → ¬ p.Attached h := by
  have hfound (h : Nat) : (Newest ids id h → ¬ p.Attached h) ↔ p.ids.lookup id ≠ some h := by
    rw [ne_eq, hi.lookup hid, not_and]
  simp only [hfound, query_id]
  cases p.ids.lookup id with
  | none => simp
  | some found => simp

end Page

/-- Whatever was done to an empty page, by steps and by the handlers of their events: the last element that was
created with an id is found while it is attached, and nothing is found otherwise. So an attached element with
the id is missed exactly if a later one was created with it and is attached no more. -/
theorem query_newest {es : List (Page.Edit Action)} {p : Page Action} (hp : Page.empty.Edited es p) {id : String}
    (hid : id ≠ "") :
    (∀ h, p.query ("#" ++ id) = .ok h ↔ Page.Newest (Page.givenIds es) id h ∧ p.Attached h) ∧
    (p.query ("#" ++ id) = .error (.noMatch ("#" ++ id)) ↔
      ∀ h, Page.Newest (Page.givenIds es) id h → ¬ p.Attached h) ∧
    ((p.query ("#" ++ id) = .error (.noMatch ("#" ++ id)) ∧ ∃ h, (Page.givenIds es)[h]? = some id ∧ p.Attached h) ↔
      ∃ h k, h < k ∧ (Page.givenIds es)[h]? = some id ∧ p.Attached h ∧
        Page.Newest (Page.givenIds es) id k ∧ ¬ p.Attached k) ∧
    ∀ (s : Scene) (now depth : Nat) (target : Option Nat) (step : PageStep), s.page = p →
      ∃ es', Page.empty.Edited (es ++ es') (s.perform now depth target step).1.page := by
  have hi := Page.Indexed.of_edited hp
  refine ⟨fun h => hi.query hid, hi.query_fails hid, ?_, ?_⟩
  · rw [hi.query_fails hid]
    constructor
    · rintro ⟨hgone, h, hh, hatt⟩
      obtain ⟨k, hle, hnew⟩ := Page.exists_newest hh
      have hne : h ≠ k := by
        rintro rfl
        exact hgone h hnew hatt
      exact ⟨h, k, by omega, hh, hatt, hnew, hgone k hnew⟩
    · rintro ⟨h, k, -, hh, hatt, hnew, hgone⟩
      refine ⟨?_, h, hh, hatt⟩
      intro m hm
      exact hm.unique hnew ▸ hgone
  · rintro s now depth target step rfl
    exact Scene.edited_perform hp now depth target step

/-- Two elements with one id, the second of them removed. -/
def Demo.namesakes : Page Action where
  elements := [⟨"div", none, "block", none, none, true⟩, ⟨"div", none, "block", none, none, false⟩]
  ids := []
  handlers := []
  listeners := []
  dispatched := []

/-- The first is still attached, and is not found. -/
theorem query_newest_namesakes : Demo.namesakes.query "#x" = .error (.noMatch "#x") ∧
    Demo.namesakes.Attached 0 ∧ ¬ Demo.namesakes.Attached 1 ∧ ∀ h, Demo.namesakes.query "#x" ≠ .ok h := by
  have hedits : Page.empty.Edited [.create none "div" "x" false, .create none "div" "x" false, .remove 1]
      Demo.namesakes := Page.edited_of_foldlM rfl
  obtain ⟨hquery, hfails, hmissed, -⟩ := query_newest hedits (by decide : "x" ≠ "")
  have hfirst : Demo.namesakes.Attached 0 := ⟨_, rfl, rfl⟩
  have hsecond : ¬ Demo.namesakes.Attached 1 := by
    rintro ⟨e, he, ha⟩
    obtain rfl := Option.some.inj he
    simp at ha
  have hnew : Page.Newest ["x", "x"] "x" 1 := by
    refine ⟨rfl, fun k hk => ?_⟩
    rw [List.getElem?_eq_none (show ["x", "x"].length ≤ k from hk)]
    simp
  have hgone := (hmissed.2 ⟨0, 1, by decide, rfl, hfirst, hnew, hsecond⟩).1
  refine ⟨hgone, hfirst, hsecond, ?_⟩
  intro h hh
  exact (hfails.1 hgone) h ((hquery h).1 hh).1 ((hquery h).1 hh).2

end PageTest
