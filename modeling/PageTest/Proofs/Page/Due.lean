import PageTest.Proofs.Page.Arena

/-! Which handlers an event is due to, and in which order. Handlers are told apart by their places in the list of all
that were registered, so that one that was registered twice is due twice. -/

namespace PageTest.Page

variable {α : Type} {p : Page α} {d : Dispatch} {regs regs' : List Nat} {h i j k : Nat}

/-- The links up from `h` lead to `k`. -/
def Above (p : Page α) (h k : Nat) : Prop := Relation.TransGen (fun a b => p.parentOf a = some b) h k

/-- The element is the target of the event or, if it bubbles, an ancestor of the target. -/
def Reaches (p : Page α) (d : Dispatch) (k : Nat) : Prop := k = d.target ∨ d.bubbles = true ∧ p.Above d.target k

/-- Of two handlers the first is on an element further down, or on the same one and older. -/
def Sooner (p : Page α) (i j : Nat) : Prop :=
  ∃ r r', p.handlers[i]? = some r ∧ p.handlers[j]? = some r' ∧
    (p.Above r.element r'.element ∨ r.element = r'.element ∧ i < j)

/-- These are the handlers that an event is due to, in order. -/
structure Due (p : Page α) (d : Dispatch) (regs : List Nat) : Prop where
  distinct : regs.Nodup
  exact : ∀ i, i ∈ regs ↔ ∃ r, p.handlers[i]? = some r ∧ r.kind = d.kind ∧ p.Reaches d r.element
  ordered : regs.Pairwise p.Sooner

/-- What handlers do, one after another. -/
def actionsAt (p : Page α) (regs : List Nat) : List α := regs.filterMap fun i => p.handlers[i]?.map (·.action)

/-! The order of ancestors -/

theorem Sound.lt_of_above (hs : p.Sound) (ha : p.Above h k) : k < h := by
  induction ha with
  | single hlink => exact hs.older _ _ hlink
  | tail _ hlink ih => exact (hs.older _ _ hlink).trans ih

theorem Sound.sooner_asymm (hs : p.Sound) (hij : p.Sooner i j) : ¬ p.Sooner j i := by
  obtain ⟨r, r', hr, hr', hlt⟩ := hij
  rintro ⟨s', s, hs', hs'', hgt⟩
  obtain rfl := Option.some.inj (hr.symm.trans hs'')
  obtain rfl := Option.some.inj (hr'.symm.trans hs')
  rcases hlt with hup | ⟨heq, hlt⟩
  · have hlt := hs.lt_of_above hup
    rcases hgt with hdown | ⟨heq, -⟩
    · have := hs.lt_of_above hdown
      omega
    · omega
  · rcases hgt with hdown | ⟨-, hgt⟩
    · have := hs.lt_of_above hdown
      omega
    · omega

/-- There is only one such order. -/
theorem Due.unique (hd : p.Due d regs) (hs : p.Sound) (hd' : p.Due d regs') : regs' = regs := by
  have hperm : regs'.Perm regs := by
    rw [List.perm_ext_iff_of_nodup hd'.distinct hd.distinct]
    intro i
    rw [hd'.exact, hd.exact]
  refine hperm.eq_of_pairwise ?_ hd'.ordered hd.ordered
  intro i j _ _ hij hji
  exact absurd hji (hs.sooner_asymm hij)

theorem Climbs.mem_iff {above : List Nat} (hc : p.Climbs h above) : k ∈ above ↔ p.Above h k := by
  induction hc with
  | @root h hroot =>
    simp only [List.not_mem_nil, false_iff]
    intro ha
    obtain ⟨m, hlink, -⟩ := Relation.TransGen.head'_iff.1 ha
    simp [hroot] at hlink
  | @up h m above hlink _ ih =>
    rw [List.mem_cons, ih]
    constructor
    · rintro (rfl | ha)
      · exact .single hlink
      · exact .head hlink ha
    · intro ha
      obtain ⟨m', hlink', hrest⟩ := Relation.TransGen.head'_iff.1 ha
      obtain rfl := Option.some.inj (hlink.symm.trans hlink')
      rcases Relation.reflTransGen_iff_eq_or_transGen.1 hrest with heq | ha
      · exact .inl heq
      · exact .inr ha

theorem Climbs.ordered {above : List Nat} (hc : p.Climbs h above) : (h :: above).Pairwise p.Above := by
  induction hc with
  | root => simp
  | up hlink hc ih =>
    refine List.pairwise_cons.2 ⟨?_, ih⟩
    intro k hk
    rcases List.mem_cons.1 hk with rfl | hk
    · exact .single hlink
    · exact .head hlink (hc.mem_iff.1 hk)

/-! The handlers of the elements on the way -/

/-- The handlers of one element. -/
def regsOn (p : Page α) (kind : String) (h : Nat) : List Nat :=
  (p.handlers.zipIdx.filter fun r => r.1.element == h && r.1.kind == kind).map Prod.snd

/-- The handlers of the elements that an event reaches. -/
def regsOf (p : Page α) (d : Dispatch) : List Nat := (p.eventPath d.target d.bubbles).flatMap (p.regsOn d.kind)

theorem mem_regsOn {kind : String} :
    i ∈ p.regsOn kind h ↔ ∃ r, p.handlers[i]? = some r ∧ r.element = h ∧ r.kind = kind := by
  simp [regsOn, List.mem_zipIdx_iff_getElem?]

theorem regsOn_ordered (kind : String) (h : Nat) : (p.regsOn kind h).Pairwise p.Sooner := by
  have hlt : (p.regsOn kind h).Pairwise (· < ·) := by
    refine List.Pairwise.sublist (List.filter_sublist.map Prod.snd) ?_
    rw [List.zipIdx_map_snd]
    exact List.pairwise_lt_range'
  refine hlt.imp_of_mem fun {i j} hi hj hij => ?_
  obtain ⟨r, hr, hon, -⟩ := mem_regsOn.1 hi
  obtain ⟨r', hr', hon', -⟩ := mem_regsOn.1 hj
  exact ⟨r, r', hr, hr', .inr ⟨hon.trans hon'.symm, hij⟩⟩

theorem actionsAt_regsOn (kind : String) (h : Nat) : p.actionsAt (p.regsOn kind h) = p.actionsOn kind h := by
  have hall : p.handlers.zipIdx.map Prod.fst = p.handlers := List.zipIdx_map_fst 0 p.handlers
  calc p.actionsAt (p.regsOn kind h)
      = (p.handlers.zipIdx.filter fun r => r.1.element == h && r.1.kind == kind).filterMap
          fun r => p.handlers[r.2]?.map (·.action) := List.filterMap_map
    _ = (p.handlers.zipIdx.filter fun r => r.1.element == h && r.1.kind == kind).filterMap
          fun r => some r.1.action := by
        refine List.filterMap_congr fun r hr => ?_
        rw [List.mem_zipIdx_iff_getElem?.1 (List.mem_filter.1 hr).1, Option.map_some]
    _ = ((p.handlers.zipIdx.map Prod.fst).filter fun r => r.element == h && r.kind == kind).map (·.action) := by
        rw [List.filter_map, List.map_map, List.filterMap_eq_map']
        rfl
    _ = p.actionsOn kind h := by rw [hall, actionsOn]

theorem eventPath_ordered (hs : p.Sound) (h : Nat) (bubbles : Bool) : (p.eventPath h bubbles).Pairwise p.Above := by
  unfold eventPath
  split_ifs
  · exact (hs.climbs h).ordered
  · simp

theorem mem_eventPath (hs : p.Sound) : k ∈ p.eventPath d.target d.bubbles ↔ p.Reaches d k := by
  unfold eventPath Reaches
  split_ifs with hb
  · simp [hb, (hs.climbs d.target).mem_iff]
  · simp [hb]

/-- The walk up from the target meets the handlers in this order. -/
theorem Sound.due (hs : p.Sound) (d : Dispatch) : p.Due d (p.regsOf d) := by
  have hordered : (p.regsOf d).Pairwise p.Sooner := by
    refine List.pairwise_flatMap.2 ⟨fun h _ => regsOn_ordered d.kind h, ?_⟩
    refine (eventPath_ordered hs d.target d.bubbles).imp fun {h k} hup i hi j hj => ?_
    obtain ⟨r, hr, rfl, -⟩ := mem_regsOn.1 hi
    obtain ⟨r', hr', rfl, -⟩ := mem_regsOn.1 hj
    exact ⟨r, r', hr, hr', .inl hup⟩
  refine ⟨?_, ?_, hordered⟩
  · refine hordered.imp fun {i j} hij => ?_
    rintro rfl
    exact hs.sooner_asymm hij hij
  · intro i
    simp only [regsOf, List.mem_flatMap, mem_eventPath hs, mem_regsOn]
    constructor
    · rintro ⟨k, hk, r, hr, rfl, hkind⟩
      exact ⟨r, hr, hkind, hk⟩
    · rintro ⟨r, hr, hkind, hk⟩
      exact ⟨r.element, hk, r, hr, rfl, hkind⟩

theorem Sound.due_iff (hs : p.Sound) : p.Due d regs ↔ regs = p.regsOf d := by
  constructor
  · exact (hs.due d).unique hs
  · rintro rfl
    exact hs.due d

theorem actionsAt_regsOf (d : Dispatch) :
    p.actionsAt (p.regsOf d) = (p.eventPath d.target d.bubbles).flatMap (p.actionsOn d.kind) := by
  unfold actionsAt regsOf
  rw [List.filterMap_flatMap]
  congr 1
  funext h
  exact actionsAt_regsOn d.kind h

end PageTest.Page
