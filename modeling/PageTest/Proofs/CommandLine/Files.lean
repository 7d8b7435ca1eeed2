import PageTest.CommandLine.Files
import Mathlib.Tactic

/-! What was written is read again under the path that the writer meant: making directories and writing
a file leave every way through the tree as it was. What could not be written leaves directories, or the first
bytes of the file. -/

namespace PageTest.CommandLine.Files

/-- Every directory is still one, in the same place, with all its names. -/
structure Keeps (fs fs' : Files) : Prop where
  here : fs'.here = fs.here
  isDirectory {p : Nat} : fs.isDirectory p = true → fs'.isDirectory p = true
  above {p : Nat} : fs.isDirectory p = true → fs'.above p = fs.above p
  child {p q : Nat} {name : String} : fs.child? p name = some q → fs'.child? p name = some q

variable {fs fs' fs'' : Files} {p q : Nat} {name : String} {ns : List String} {c : FileContent}

theorem Keeps.refl (fs : Files) : Keeps fs fs := ⟨rfl, id, fun _ => rfl, id⟩

theorem Keeps.trans (h : Keeps fs fs') (h' : Keeps fs' fs'') : Keeps fs fs'' where
  here := h'.here.trans h.here
  isDirectory d := h'.isDirectory (h.isDirectory d)
  above d := (h'.above (h.isDirectory d)).trans (h.above d)
  child d := h'.child (h.child d)

theorem isDirectory_iff : fs.isDirectory p = true ↔ fs.content p = .directory := by
  unfold isDirectory
  split <;> simp_all

/-- A directory other than the root has an entry. -/
theorem entry_of_isDirectory (h : fs.isDirectory (p + 1) = true) :
    ∃ e, fs.entries[p]? = some e ∧ e.content = .directory := by
  have content := isDirectory_iff.1 h
  rw [Files.content, if_neg (Nat.succ_ne_zero p), entry?] at content
  cases found : fs.entries[p]? with
  | none => simp [found] at content
  | some e => exact ⟨e, rfl, by simpa [found] using content⟩

theorem isDirectory_of_entry {e : Entry} (h : fs.entries[p]? = some e) (hc : e.content = .directory) :
    fs.isDirectory (p + 1) = true := by
  rw [isDirectory_iff, content, if_neg (Nat.succ_ne_zero p), entry?, h]
  exact hc

theorem keeps_room (fs : Files) (room : Option Nat) : Keeps fs { fs with room } := ⟨rfl, id, fun _ => rfl, id⟩

theorem keeps_append (fs : Files) (es : List Entry) (room : Option Nat) :
    Keeps fs ⟨fs.entries ++ es, fs.here, room⟩ where
  here := rfl
  isDirectory {p'} h := by
    cases p' with
    | zero => rfl
    | succ p' =>
      obtain ⟨e, found, hc⟩ := entry_of_isDirectory h
      refine isDirectory_of_entry ?_ hc
      rw [List.getElem?_append_left (List.getElem?_eq_some_iff.1 found).1, found]
  above {p'} h := by
    cases p' with
    | zero => rfl
    | succ p' =>
      obtain ⟨e, found, -⟩ := entry_of_isDirectory h
      simp only [above, entry?, List.getElem?_append_left (List.getElem?_eq_some_iff.1 found).1]
  child {p' q name'} h := by
    rw [child?, Option.map_eq_some_iff] at h ⊢
    obtain ⟨i, found, rfl⟩ := h
    refine ⟨i, ?_, rfl⟩
    rw [List.findIdx?_append, found]
    rfl

theorem child_add (h : fs.child? p name = none) (c : FileContent) :
    (fs.add p name c).2.child? p name = some (fs.add p name c).1 := by
  rw [child?, Option.map_eq_none_iff] at h
  rw [child?, add, List.findIdx?_append, h]
  simp

/-- What a name leads to if it is found in a directory. -/
theorem entry_of_child (h : fs.child? p name = some q) :
    ∃ i e, q = i + 1 ∧ fs.entries[i]? = some e ∧ (e.inside == p && e.name == name) = true := by
  rw [child?, Option.map_eq_some_iff] at h
  obtain ⟨i, found, rfl⟩ := h
  obtain ⟨lt, named, -⟩ := List.findIdx?_eq_some_iff_getElem.1 found
  exact ⟨i, _, rfl, List.getElem?_eq_getElem lt, named⟩

/-- New content for a place changes no names. -/
theorem child_modify (fs : Files) (i p : Nat) (name : String) (c : FileContent) :
    ({ fs with entries := fs.entries.modify i fun e => { e with content := c } } : Files).child? p name =
      fs.child? p name := by
  have names : (fs.entries.modify i fun e => { e with content := c }).map (fun e => (e.inside, e.name)) =
      fs.entries.map fun e => (e.inside, e.name) := by
    refine List.ext_getElem? fun j => ?_
    rw [List.getElem?_map, List.getElem?_map, List.getElem?_modify]
    by_cases hj : i = j <;> cases fs.entries[j]? <;> simp [hj]
  have found (es : List Entry) : es.findIdx? (fun e => e.inside == p && e.name == name) =
      (es.map fun e => (e.inside, e.name)).findIdx? fun e => e.1 == p && e.2 == name := by
    rw [List.findIdx?_map]
    rfl
  rw [child?, child?, found, names, ← found]

theorem keeps_put (h : fs.writable p name = true) (c : FileContent) : Keeps fs (fs.put p name c) := by
  unfold put
  unfold writable at h
  cases found : fs.child? p name with
  | none => exact keeps_append fs _ _
  | some q =>
    obtain ⟨i, e, rfl, he, -⟩ := entry_of_child found
    have file : fs.isDirectory (i + 1) = false := by simpa [found] using h
    have other {j : Nat} (hj : fs.isDirectory (j + 1) = true) : i ≠ j := by
      rintro rfl
      simp [file] at hj
    refine ⟨rfl, fun {j} hj => ?_, fun {j} hj => ?_, fun hc => (child_modify fs _ _ _ c).trans hc⟩
    · cases j with
      | zero => rfl
      | succ j =>
        obtain ⟨e', he', hc⟩ := entry_of_isDirectory hj
        exact isDirectory_of_entry (by simp [other hj, he']) hc
    · cases j with
      | zero => rfl
      | succ j => simp [above, entry?, other hj]

theorem child_put (fs : Files) (p : Nat) (name : String) (c : FileContent) :
    ∃ q, (fs.put p name c).child? p name = some q ∧ (fs.put p name c).content q = c := by
  unfold put
  cases found : fs.child? p name with
  | none => exact ⟨_, child_add found c, by simp [content, entry?, add]⟩
  | some q =>
    obtain ⟨i, e, rfl, he, -⟩ := entry_of_child found
    exact ⟨i + 1, (child_modify fs _ _ _ c).trans found, by simp [content, entry?, he]⟩

/-! Following a path -/

theorem follow_append (ms : List String) :
    fs.follow p (ns ++ ms) = (fs.follow p ns).bind fun q => fs.follow q ms := by
  induction ns generalizing p with
  | nil => rfl
  | cons name ns ih =>
    simp only [List.cons_append, follow, ih]
    split_ifs
    · rfl
    · rfl
    · rfl
    · cases fs.child? p name <;> rfl

/-- A way that could be gone can still be gone. -/
theorem Keeps.follow (h : Keeps fs fs') (hp : fs.follow p ns = some q) : fs'.follow p ns = some q := by
  induction ns generalizing p with
  | nil => exact hp
  | cons name ns ih =>
    cases hd : fs.isDirectory p with
    | false => simp [Files.follow, hd] at hp
    | true =>
      simp only [Files.follow, hd, h.isDirectory hd, Bool.not_true, Bool.false_eq_true, if_false] at hp ⊢
      split_ifs at hp ⊢
      · exact ih hp
      · rw [h.above hd]
        exact ih hp
      · cases hc : fs.child? p name with
        | none => simp [hc] at hp
        | some next =>
          rw [hc] at hp
          rw [h.child hc]
          exact ih hp

/-! Paths -/

theorem start_eq (h : Keeps fs fs') (path : String) : fs'.start path = fs.start path := by
  simp [start, h.here]

/-- The last name on the way to a name in a directory is that name. -/
theorem names_join (hn : '/' ∉ name.toList) (directory : String) :
    names (join directory name) = (names (join directory name)).dropLast ++ [name] := by
  have alone : name.toList.splitOn '/' = [name.toList] := List.splitOn_eq_singleton hn
  have last (front : List Char) :
      (front ++ '/' :: name.toList).splitOn '/' = front.splitOn '/' ++ [name.toList] := by
    rw [List.splitOn_append_cons_self, alone]
  suffices ∃ ns, names (join directory name) = ns ++ [name] by
    obtain ⟨ns, path⟩ := this
    rw [path, List.dropLast_concat]
  by_cases nowhere : directory = ""
  · exact ⟨[], by simp [nowhere, join, names, alone]⟩
  by_cases slash : directory.toList.getLast? = some '/'
  · obtain ⟨front, hf⟩ := List.getLast?_eq_some_iff.1 slash
    refine ⟨(front.splitOn '/').map String.ofList, ?_⟩
    rw [names, join, if_pos (.inr slash), String.toList_append, hf, List.append_assoc, List.singleton_append, last]
    simp
  · have path : (directory ++ "/" ++ name).toList = directory.toList ++ '/' :: name.toList := by simp
    refine ⟨names directory, ?_⟩
    rw [names, join, if_neg (by simp [nowhere, slash]), path, last]
    simp [names]

/-- A name that does not stand for the directory itself or the one above it. -/
structure Plain (name : String) : Prop where
  empty : name ≠ ""
  dot : name ≠ "."
  dots : name ≠ ".."
  slash : '/' ∉ name.toList

theorem follow_plain (hn : Plain name) (hd : fs.isDirectory p = true) :
    fs.follow p [name] = fs.child? p name := by
  simp only [follow, hd, hn.empty, hn.dot, hn.dots, Bool.not_true, Bool.false_eq_true, or_self, if_false]
  cases fs.child? p name <;> rfl

theorem join_ne_empty {directory : String} (hn : Plain name) : join directory name ≠ "" := by
  have := hn.empty
  unfold join
  split_ifs <;> simp [this]

/-- What a file was given is read under its path. -/
theorem read_put {directory : String} (hn : Plain name) (short : followable (join directory name) = true)
    (way : fs.follow (fs.start (join directory name)) (names (join directory name)).dropLast = some p)
    (inside : fs.isDirectory p = true) (free : fs.writable p name = true) (c : FileContent) :
    (fs.put p name c).read (join directory name) = c := by
  have keeps := keeps_put free c
  obtain ⟨q, child, content⟩ := child_put fs p name c
  have last := (follow_plain hn (keeps.isDirectory inside)).trans child
  rw [read, if_neg (by simp [join_ne_empty hn, short]), start_eq keeps, names_join hn.slash, follow_append,
    keeps.follow way, Option.bind_some, last]
  exact content

/-! Making directories -/

/-- Only directories have been added. -/
structure Widens (fs fs' : Files) : Prop where
  here : fs'.here = fs.here
  entries : ∃ made, fs'.entries = fs.entries ++ made ∧ ∀ e ∈ made, e.content = .directory

theorem Widens.refl (fs : Files) : Widens fs fs := ⟨rfl, [], (List.append_nil _).symm, by simp⟩

theorem Widens.trans (h : Widens fs fs') (h' : Widens fs' fs'') : Widens fs fs'' := by
  obtain ⟨made, entries, only⟩ := h.entries
  obtain ⟨made', entries', only'⟩ := h'.entries
  refine ⟨h'.here.trans h.here, made ++ made', by rw [entries', entries, List.append_assoc], fun e he => ?_⟩
  exact (List.mem_append.1 he).elim (only e) (only' e)

/-- Taking up room changes nothing else. -/
theorem spend_some (h : fs.spend? = some fs') : ∃ room, fs' = { fs with room } ∧ (fs.room = none → room = none) := by
  unfold spend? at h
  split at h
  · obtain rfl := Option.some.inj h
    exact ⟨_, rfl, id⟩
  · cases h
  next room =>
    obtain rfl := Option.some.inj h
    exact ⟨_, rfl, fun unlimited => by simp [unlimited] at room⟩

/-- What the directories on the way do to the tree: each that is missing takes up room and is added. -/
theorem makeFrom_rec {P : Files → Files → Prop} (same : ∀ fs, P fs fs)
    (more : ∀ {fs fs₁ fs'} (p name), fs.spend? = some fs₁ → P (fs₁.add p name .directory).2 fs' → P fs fs')
    (fs : Files) (p : Nat) (ns : List String) : P fs (fs.makeFrom p ns).1 := by
  induction ns generalizing fs p with
  | nil => exact same fs
  | cons name ns ih =>
    rw [makeFrom]
    split_ifs
    · exact same fs
    · exact ih fs p
    · exact ih fs _
    · cases fs.child? p name with
      | some next => exact ih fs next
      | none => exact same fs
    · cases fs.child? p name with
      | some next => exact ih fs next
      | none =>
        cases spent : fs.spend? with
        | none => exact same fs
        | some fs₁ => exact more p name spent (ih _ _)

theorem widens_makeFrom (fs : Files) (p : Nat) (ns : List String) : Widens fs (fs.makeFrom p ns).1 := by
  refine makeFrom_rec .refl (fun {fs fs₁ _} p name spent later => ?_) fs p ns
  obtain ⟨room, rfl, -⟩ := spend_some spent
  have added : Widens fs (add { fs with room } p name .directory).2 := ⟨rfl, [⟨p, name, .directory⟩], rfl, by simp⟩
  exact added.trans later

theorem room_makeFrom (fs : Files) (p : Nat) (ns : List String) (h : fs.room = none) :
    (fs.makeFrom p ns).1.room = none :=
  makeFrom_rec (P := fun fs fs' => fs.room = none → fs'.room = none) (fun _ => id)
    (fun _ _ spent later unlimited => by
      obtain ⟨room, rfl, kept⟩ := spend_some spent
      exact later (kept unlimited)) fs p ns h

theorem widens_makeDirectories (fs : Files) (path : String) : Widens fs (fs.makeDirectories path).1 := by
  unfold makeDirectories
  split_ifs
  · exact .refl fs
  · exact .refl fs
  · exact widens_makeFrom fs _ _

theorem room_makeDirectories (fs : Files) (path : String) (h : fs.room = none) :
    (fs.makeDirectories path).1.room = none := by
  unfold makeDirectories
  split_ifs
  · exact h
  · exact h
  · exact room_makeFrom fs _ _ h

/-! Writing -/

/-- The file of that path holds some first bytes of a text and not all of it, and nothing else of the tree
`fs` is another. -/
def Begun (fs : Files) (path name : String) (text : ByteArray) (fs' : Files) : Prop :=
  ∃ (p n : Nat), n < text.size ∧ fs'.entries = (fs.put p name (.bytes (text.extract 0 n))).entries ∧
    fs'.read path = .bytes (text.extract 0 n)

theorem put_put (fs : Files) (p : Nat) (name : String) (c c' : FileContent) :
    (fs.put p name c).put p name c' = fs.put p name c' := by
  cases found : fs.child? p name with
  | none =>
    have child : (fs.put p name c).child? p name = some (fs.entries.length + 1) := by
      rw [put, found]
      exact child_add found c
    have last : (fs.entries ++ [(⟨p, name, c⟩ : Entry)]).modify fs.entries.length (fun e => { e with content := c' }) =
        fs.entries ++ [⟨p, name, c'⟩] := by
      rw [List.modify_eq_set_get _ (by simp)]
      simp
    rw [put, child]
    simpa [put, found, add] using last
  | some q =>
    have child : (fs.put p name c).child? p name = some q := by
      rw [put, found]
      exact (child_modify fs _ _ _ c).trans found
    rw [put, child]
    simp only [put, found, List.modify_modify_eq]
    rfl

/-- What opening a file needs, and what it does. -/
theorem create_some {directory : String} (h : fs.create directory name = some (p, fs')) :
    followable (join directory name) = true ∧
    fs.follow (fs.start (join directory name)) (names (join directory name)).dropLast = some p ∧
    fs.isDirectory p = true ∧ fs.writable p name = true ∧
    ∃ room, (fs.room = none → room = none) ∧ fs' = put { fs with room } p name (.bytes .empty) := by
  unfold create at h
  dsimp only at h
  split_ifs at h with long
  split at h
  · cases h
  next way =>
    split_ifs at h with free
    obtain ⟨fs₁, spent, opened⟩ := Option.map_eq_some_iff.1 h
    obtain ⟨rfl, rfl⟩ := Prod.mk.inj opened
    obtain ⟨room, rfl, kept⟩ := spend_some spent
    simp only [Bool.and_eq_true, Bool.or_eq_true, Bool.not_eq_true', not_or, Bool.not_eq_false] at free long
    exact ⟨long.1, way, free.1, free.2, room, kept, rfl⟩

theorem put_room (fs : Files) (room : Option Nat) (p : Nat) (name : String) (c : FileContent) :
    put { fs with room } p name c = { fs.put p name c with room } := by
  have same : child? { fs with room } p name = fs.child? p name := rfl
  unfold put
  rw [same]
  cases fs.child? p name <;> rfl

theorem extract_all {bytes : ByteArray} {n : Nat} (h : bytes.size ≤ n) : bytes.extract 0 n = bytes := by
  ext1
  simp [h]

/-- What is written into an open file are its first bytes, and all of them if no change is refused. -/
theorem fill_put (fs : Files) (p : Nat) (name : String) (c : FileContent) (bytes : ByteArray) :
    ∃ room n, ((fs.put p name c).fill p name bytes).1 = put { fs with room } p name (.bytes (bytes.extract 0 n)) ∧
      (((fs.put p name c).fill p name bytes).2 = true ↔ bytes.size ≤ n) ∧
      (fs.room = none → bytes.size ≤ n) := by
  have kept : (fs.put p name c).room = fs.room := by
    unfold put
    cases fs.child? p name <;> rfl
  have written (room : Option Nat) (c' : FileContent) :
      put { fs.put p name c with room } p name c' = put { fs with room } p name c' := by
    rw [← put_room, put_put]
  unfold fill
  cases room : fs.room with
  | none =>
    rw [kept, room]
    refine ⟨none, bytes.size, ?_, by simp, by simp⟩
    have same : { fs with room := none } = fs := by rw [← room]
    rw [extract_all le_rfl, same]
    exact put_put fs p name c _
  | some n =>
    rw [kept, room]
    exact ⟨some (n - bytes.size), n, written _ _, by simp, by simp⟩

/-- A file that could be written is there, and what could not be written is not there or begun at most. -/
theorem write_spec (fs : Files) (directory text : String) (hn : Plain name) :
    ((fs.write directory name text).2 = true →
      (fs.write directory name text).1.read (join directory name) = .bytes text.toUTF8) ∧
    ((fs.write directory name text).2 = false → (fs.write directory name text).1 = fs ∨
      fs.room ≠ none ∧ Begun fs (join directory name) name text.toUTF8 (fs.write directory name text).1) := by
  unfold write
  cases created : fs.create directory name with
  | none => exact ⟨fun done => by simp at done, fun _ => .inl rfl⟩
  | some opened =>
    obtain ⟨p, fs'⟩ := opened
    obtain ⟨short, way, inside, free, room, kept, rfl⟩ := create_some created
    obtain ⟨room', n, filled, all, unlimited⟩ := fill_put { fs with room } p name (.bytes .empty) text.toUTF8
    have held : (put { fs with room := room' } p name (.bytes (text.toUTF8.extract 0 n))).read (join directory name) =
        .bytes (text.toUTF8.extract 0 n) :=
      read_put hn short ((keeps_room fs room').follow way) inside free _
    dsimp only
    rw [filled]
    refine ⟨fun done => ?_, fun undone => .inr ⟨fun none => ?_, p, n, ?_, ?_, held⟩⟩
    · rw [held, extract_all (all.1 done)]
    · rw [all.2 (unlimited (kept none))] at undone
      cases undone
    · exact Nat.lt_of_not_le fun le => by rw [all.2 le] at undone; cases undone
    · change (put { fs with room := room' } p name _).entries = _
      rw [put_room]

end PageTest.CommandLine.Files
