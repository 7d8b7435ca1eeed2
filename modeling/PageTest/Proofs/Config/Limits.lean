import Mathlib.Tactic
import PageTest.Config.File

/-! How great the numbers in a configuration file can be. Every whole number that is read has 64 bits with its
sign, wherever in the file it stands; so a file cannot set as much as a field could hold. -/

namespace PageTest

/-- Settings whose whole numbers have 64 bits with their signs. -/
inductive Setting.Small : Setting → Prop
  | table {fields : List (String × Setting)} (h : ∀ f ∈ fields, Small f.2) : Small (.table fields)
  | list {items : List Setting} (h : ∀ s ∈ items, Small s) : Small (.list items)
  | integer {i : Int} (low : -2 ^ 63 ≤ i) (high : i < 2 ^ 63) : Small (.integer i)
  | text (s : String) : Small (.text s)
  | other : Small .other

namespace Toml

inductive Node.Small : Node → Prop
  | leaf {s : Setting} (h : s.Small) : Small (.leaf s)
  | table {origin : Origin} {fields : List (String × Node)} (h : ∀ f ∈ fields, Small f.2) : Small (.table origin fields)
  | tables {entries : List (List (String × Node))} (h : ∀ fields ∈ entries, ∀ f ∈ fields, Small f.2) :
      Small (.tables entries)

/-- The tables read so far, if all that is in them is small. -/
def Fields.Small (fields : Fields) : Prop := ∀ f ∈ fields, f.2.Small

variable {k : String} {n : Node} {path : List String} {fields fields' : Fields} {s : Setting} {cs rest : List Char}
  {items : List Setting} {origin : Origin} {act : Origin → Fields → Option Fields} {dotted : Bool}

namespace Node

mutual

theorem small_toSetting : ∀ {n : Node}, n.Small → n.toSetting.Small
  | .leaf _, .leaf h => h
  | .table _ _, .table h => .table (small_toFields h)
  | .tables _, .tables h => .list (small_toEntries h)

theorem small_toFields : ∀ {fields : List (String × Node)}, (∀ f ∈ fields, f.2.Small) →
    ∀ f ∈ toFields fields, f.2.Small
  | [], _ => nofun
  | (_, _) :: _, h => by
    obtain ⟨first, others⟩ := List.forall_mem_cons.1 h
    exact List.forall_mem_cons.2 ⟨small_toSetting first, small_toFields others⟩

theorem small_toEntries : ∀ {entries : List (List (String × Node))}, (∀ fields ∈ entries, ∀ f ∈ fields, f.2.Small) →
    ∀ s ∈ toEntries entries, s.Small
  | [], _ => nofun
  | _ :: _, h => by
    obtain ⟨first, others⟩ := List.forall_mem_cons.1 h
    exact List.forall_mem_cons.2 ⟨.table (small_toFields first), small_toEntries others⟩

end

end Node

namespace Fields

theorem Small.put (h : fields.Small) (hn : n.Small) (k : String) : Small (put k n fields) := by
  induction fields with
  | nil => exact List.forall_mem_singleton.2 hn
  | cons f fields ih =>
    obtain ⟨first, others⟩ := List.forall_mem_cons.1 h
    rw [Fields.put]
    split
    · exact List.forall_mem_cons.2 ⟨hn, others⟩
    · exact List.forall_mem_cons.2 ⟨first, ih others⟩

theorem Small.lookup (h : fields.Small) (found : lookup k fields = some n) : n.Small := by
  obtain ⟨f, mem, rfl⟩ := Option.map_eq_some_iff.1 found
  exact h f (List.mem_of_find?_eq_some mem)

theorem Small.concat (h : fields.Small) (hn : n.Small) (k : String) : Small (fields ++ [(k, n)]) :=
  List.forall_mem_append.2 ⟨h, List.forall_mem_singleton.2 hn⟩

/-- Changing a table somewhere adds nothing great, if the change there does not. -/
theorem Small.change (hact : ∀ origin fields fields', Small fields → act origin fields = some fields' → Small fields')
    (h : fields.Small) (done : change dotted act path origin fields = some fields') : fields'.Small := by
  induction path generalizing fields fields' origin with
  | nil => exact hact _ _ _ h done
  | cons k path ih =>
    rw [Fields.change] at done
    split at done
    next =>
      obtain ⟨inner, changed, same⟩ := Option.bind_eq_some_iff.1 done
      cases same
      exact h.put (.table (ih (by simp [Small]) changed)) k
    next => cases done
    next entries found =>
      cases h.lookup found with
      | tables hentries =>
        split at done
        next => cases done
        next last earlier reversed =>
          obtain ⟨inner, changed, same⟩ := Option.bind_eq_some_iff.1 done
          cases same
          have mem : ∀ fields ∈ last :: earlier, Small fields := fun fields hf =>
            hentries fields (List.mem_reverse.1 (reversed ▸ hf))
          obtain ⟨hlast, hearlier⟩ := List.forall_mem_cons.1 mem
          refine h.put (.tables fun fields hf => ?_) k
          rcases List.mem_cons.1 (List.mem_reverse.1 hf) with rfl | hf
          · exact ih hlast changed
          · exact hearlier fields hf
    next origin' inner found =>
      cases h.lookup found with
      | table hinner =>
        split at done
        · cases done
        · obtain ⟨inner, changed, same⟩ := Option.bind_eq_some_iff.1 done
          cases same
          exact h.put (.table (ih hinner changed)) k

theorem Small.set (h : fields.Small) (hn : n.Small) (done : set path k n origin fields = some fields') :
    fields'.Small := by
  refine h.change (fun origin fields fields' h done => ?_) done
  split at done
  · cases done
  split at done
  · cases done
  · cases done
    exact h.concat hn k

theorem Small.declare (h : fields.Small) (done : declare path k fields = some fields') : fields'.Small := by
  refine h.change (fun origin fields fields' h done => ?_) done
  split at done
  next =>
    cases done
    exact h.concat (.table (by simp)) k
  next inner found =>
    cases done
    cases h.lookup found with
    | table hinner => exact h.put (.table hinner) k
  next => cases done

theorem Small.addEntry (h : fields.Small) (done : addEntry path k fields = some fields') : fields'.Small := by
  refine h.change (fun origin fields fields' h done => ?_) done
  split at done
  next =>
    cases done
    exact h.concat (.tables (by simp)) k
  next entries found =>
    cases done
    cases h.lookup found with
    | tables hentries => exact h.put (.tables (List.forall_mem_append.2 ⟨hentries, by simp⟩)) k
  next => cases done

end Fields

section Values

theorem inRadix_bounds {radix : Nat} {i : Int} (h : inRadix? radix cs = some (i, rest)) : 0 ≤ i ∧ i < 2 ^ 63 := by
  obtain ⟨⟨ds, after⟩, -, h⟩ := Option.bind_eq_some_iff.1 h
  dsimp only at h
  split at h
  next small =>
    cases h
    exact ⟨Int.natCast_nonneg _, by exact_mod_cast small⟩
  next => cases h

theorem integer_bounds {i : Int} (h : integer? cs = some (i, rest)) : -2 ^ 63 ≤ i ∧ i < 2 ^ 63 := by
  unfold integer? at h
  split at h
  next => have := inRadix_bounds h; omega
  next => have := inRadix_bounds h; omega
  next => have := inRadix_bounds h; omega
  next =>
    obtain ⟨⟨negative, ds, after⟩, -, h⟩ := Option.bind_eq_some_iff.1 h
    dsimp only at h
    generalize (if negative = true then -(Json.digitsValue ds : Int) else Json.digitsValue ds) = n at h
    split at h
    next small =>
      cases h
      rwa [show ((Nat.pow 2 63 : Nat) : Int) = 2 ^ 63 from rfl] at small
    next => cases h

theorem small_scalar (h : scalar? cs = some (s, rest)) : s.Small := by
  unfold scalar? at h
  split at h
  next => cases h
  next c more =>
    split at h
    next =>
      obtain ⟨t, -, same⟩ := Option.map_eq_some_iff.1 h
      cases same
      exact .text _
    split at h
    next => split at h <;> cases h; exact .other
    split at h
    next => split at h <;> cases h; exact .other
    split at h
    next => cases h; exact .table (by simp)
    split at h
    next => cases h; exact .other
    obtain ⟨⟨i, after⟩, read, same⟩ := Option.map_eq_some_iff.1 h
    cases same
    obtain ⟨low, high⟩ := integer_bounds read
    exact .integer low high

/-- What the readers of values bring in. -/
structure Reads (fuel : Nat) : Prop where
  value : ∀ {depth cs s rest}, Toml.value fuel depth cs = some (s, rest) → s.Small
  items : ∀ {depth cs ss rest}, Toml.items fuel depth cs = some (ss, rest) → ∀ s ∈ ss, s.Small
  pairs : ∀ {depth cs fields fields' rest}, fields.Small → Toml.pairs fuel depth fields cs = some (fields', rest) →
    fields'.Small

theorem reads (fuel : Nat) : Reads fuel := by
  induction fuel with
  | zero =>
    constructor
    · intro depth cs s rest h
      cases h
    · intro depth cs ss rest h
      cases h
    · intro depth cs fields fields' rest _ h
      cases h
  | succ fuel ih =>
    constructor
    · intro depth cs s rest h
      unfold Toml.value at h
      split at h
      next =>
        split at h
        next => cases h
        next =>
          obtain ⟨⟨vs, after⟩, read, same⟩ := Option.map_eq_some_iff.1 h
          cases same
          exact .list (ih.items read)
      next =>
        split at h
        next => cases h
        next =>
          split at h
          next => cases h; exact .table (by simp)
          next =>
            obtain ⟨⟨fields, after⟩, read, same⟩ := Option.map_eq_some_iff.1 h
            cases same
            exact .table (Node.small_toFields (ih.pairs (by simp [Fields.Small]) read))
      next => exact small_scalar h
    · intro depth cs ss rest h
      unfold Toml.items at h
      split at h
      next => cases h; simp
      next =>
        split at h
        next => cases h
        next v after first =>
          split at h
          next =>
            obtain ⟨⟨vs, after⟩, read, same⟩ := Option.map_eq_some_iff.1 h
            cases same
            exact List.forall_mem_cons.2 ⟨ih.value first, ih.items read⟩
          next =>
            cases h
            exact List.forall_mem_singleton.2 (ih.value first)
          next => cases h
    · intro depth cs fields fields' rest hf h
      unfold Toml.pairs at h
      split at h
      next =>
        split at h
        next => cases h
        next v after first =>
          split at h
          next => cases h
          next fields₁ done =>
            have hf₁ := hf.set (.leaf (ih.value first)) done
            split at h
            next => exact ih.pairs hf₁ h
            next => cases h; exact hf₁
            next => cases h
      next => cases h

end Values

section Lines

variable {p p' : Progress}

theorem small_header (h : p.fields.Small) (done : header? cs p = some (p', rest)) : p'.fields.Small := by
  unfold header? at done
  split at done
  next =>
    obtain ⟨⟨path, k, after⟩, -, done⟩ := Option.bind_eq_some_iff.1 done
    dsimp only at done
    split at done
    next =>
      obtain ⟨fields, added, done⟩ := Option.bind_eq_some_iff.1 done
      obtain ⟨more, -, same⟩ := Option.bind_eq_some_iff.1 done
      cases same
      exact h.addEntry added
    next => cases done
  next =>
    obtain ⟨⟨path, k, after⟩, -, done⟩ := Option.bind_eq_some_iff.1 done
    dsimp only at done
    split at done
    next =>
      obtain ⟨fields, declared, done⟩ := Option.bind_eq_some_iff.1 done
      obtain ⟨more, -, same⟩ := Option.bind_eq_some_iff.1 done
      cases same
      exact h.declare declared
    next => cases done

theorem small_setting (h : p.fields.Small) (done : setting? cs p = some (p', rest)) : p'.fields.Small := by
  obtain ⟨⟨path, k, after⟩, -, done⟩ := Option.bind_eq_some_iff.1 done
  dsimp only at done
  split at done
  next =>
    obtain ⟨⟨v, after⟩, read, done⟩ := Option.bind_eq_some_iff.1 done
    obtain ⟨fields, changed, done⟩ := Option.bind_eq_some_iff.1 done
    obtain ⟨more, -, same⟩ := Option.bind_eq_some_iff.1 done
    cases same
    exact h.change (fun _ _ _ hf set => hf.set (.leaf ((reads _).value read)) set) changed
  next => cases done

theorem small_lines {fuel : Nat} (h : p.fields.Small) (done : lines fuel cs p = some fields) : fields.Small := by
  induction fuel generalizing cs p with
  | zero => cases done
  | succ fuel ih =>
    unfold lines at done
    split at done
    next => cases done; exact h
    next => exact ih h done
    next => exact ih h done
    next =>
      obtain ⟨after, -, done⟩ := Option.bind_eq_some_iff.1 done
      exact ih h done
    next =>
      obtain ⟨⟨p', after⟩, header, done⟩ := Option.bind_eq_some_iff.1 done
      exact ih (small_header h header) done
    next =>
      obtain ⟨⟨p', after⟩, setting, done⟩ := Option.bind_eq_some_iff.1 done
      exact ih (small_setting h setting) done

theorem small_parse {text : String} (h : parse? text = some s) : s.Small := by
  obtain ⟨fields, read, rfl⟩ := Option.map_eq_some_iff.1 h
  exact .table (Node.small_toFields (small_lines (by simp [Fields.Small]) read))

end Lines

end Toml

namespace Setting

variable {s : Setting} {o : Option Setting} {os : List (Option Setting)} {names : List String} {lax : Bool}

theorem Small.pick (h : s.Small) (picked : s.pick lax names = some os) : ∀ o ∈ os, ∀ t ∈ o, t.Small := by
  unfold Setting.pick at picked
  split at picked
  next fields =>
    cases h with
    | table hfields =>
      cases picked
      intro o ho t ht
      obtain ⟨k, -, rfl⟩ := List.mem_map.1 ho
      obtain ⟨f, found, rfl⟩ := Option.map_eq_some_iff.1 ht
      exact hfields f (List.mem_reverse.1 (List.mem_of_find?_eq_some found))
  next items =>
    cases h with
    | list hitems =>
      split at picked
      · cases picked
        intro o ho t ht
        obtain ⟨i, -, rfl⟩ := List.mem_map.1 ho
        exact hitems t (List.mem_of_getElem? ht)
      · cases picked
  next => cases picked

/-- A number that is read, or the default for it, if both are small. -/
theorem natural_lt {bits d n : Nat} (ho : ∀ t ∈ o, t.Small) (hd : d < 2 ^ 63)
    (read : orDefault (natural? bits) d o = some n) : n < 2 ^ 63 := by
  cases o with
  | none => cases read; exact hd
  | some t =>
    cases ho t rfl with
    | @integer i low high =>
      simp only [orDefault, natural?] at read
      split at read
      · cases read
        omega
      · cases read
    | table | list | text | other => cases read

theorem default_or_read {α : Type} {read : Setting → Option α} {d a : α} (h : orDefault read d o = some a) :
    a = d ∨ ∃ t ∈ o, read t = some a := by
  cases o with
  | none => cases h; exact .inl rfl
  | some t => exact .inr ⟨t, rfl, h⟩

end Setting

theorem WaitDefaults.interval_lt {lax : Bool} {s : Setting} {c : WaitDefaults} (h : s.Small)
    (hc : read lax s = some c) : c.intervalMs < 2 ^ 63 := by
  obtain ⟨os, picked, read⟩ := Option.bind_eq_some_iff.1 hc
  have small := h.pick picked
  split at read
  next interval tries =>
    obtain ⟨interval, hinterval, read⟩ := Option.bind_eq_some_iff.1 read
    obtain ⟨tries, -, same⟩ := Option.bind_eq_some_iff.1 read
    cases same
    exact Setting.natural_lt (small _ List.mem_cons_self) (by decide) hinterval
  next => cases read

theorem HarnessConfig.interval_lt {lax : Bool} {s : Setting} {c : HarnessConfig} (h : s.Small)
    (hc : read lax s = some c) : c.wait.intervalMs < 2 ^ 63 := by
  obtain ⟨os, picked, read⟩ := Option.bind_eq_some_iff.1 hc
  have small := h.pick picked
  split at read
  next start wait =>
    obtain ⟨start, -, read⟩ := Option.bind_eq_some_iff.1 read
    obtain ⟨wait', hwait, same⟩ := Option.bind_eq_some_iff.1 read
    cases same
    rcases Setting.default_or_read hwait with rfl | ⟨t, ht, hread⟩
    · exact show (100 : Nat) < 2 ^ 63 by decide
    · exact WaitDefaults.interval_lt (small wait (by simp) t ht) hread
  next => cases read

/-- The greatest settings that a file can give. -/
theorem DriverConfig.limits_of_text {text : String} {c : DriverConfig} (h : ofText text = .ok c) :
    c.pollIntervalMs < 2 ^ 63 ∧ c.timeoutSecs < 2 ^ 63 ∧ c.harness.wait.intervalMs < 2 ^ 63 := by
  unfold ofText at h
  split at h
  next => cases h
  next c' read =>
    obtain rfl : c' = c := by
      split at h
      · cases h
      · cases h; rfl
    obtain ⟨s, parsed, read⟩ := Option.bind_eq_some_iff.1 read
    obtain ⟨os, picked, read⟩ := Option.bind_eq_some_iff.1 read
    have small := (Toml.small_parse parsed).pick picked
    split at read
    next poll timeout output harness =>
      obtain ⟨poll', hpoll, read⟩ := Option.bind_eq_some_iff.1 read
      obtain ⟨timeout', htimeout, read⟩ := Option.bind_eq_some_iff.1 read
      obtain ⟨output', -, read⟩ := Option.bind_eq_some_iff.1 read
      obtain ⟨harness', hharness, same⟩ := Option.bind_eq_some_iff.1 read
      cases same
      refine ⟨Setting.natural_lt (small poll (by simp)) (by decide) hpoll,
        Setting.natural_lt (small timeout (by simp)) (by decide) htimeout, ?_⟩
      rcases Setting.default_or_read hharness with rfl | ⟨t, ht, hread⟩
      · exact show (100 : Nat) < 2 ^ 63 by decide
      · exact HarnessConfig.interval_lt (small harness (by simp) t ht) hread
    next => cases read

end PageTest
