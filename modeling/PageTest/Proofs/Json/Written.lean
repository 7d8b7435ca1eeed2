import PageTest.Proofs.Json.Leaves

/-! The texts of a value: the parts stand in order, with blanks between them as the writer likes. Both
writers give such a text, and reading gives back the value of any such text. Only values that a record is
made of are covered: no doubles and no negative numbers. -/

namespace PageTest.Json

def Blanks (cs : List Char) : Prop := ∀ c ∈ cs, isBlank c = true

mutual

inductive Written : Json → List Char → Prop
  | null : Written .null "null".toList
  | bool (b : Bool) : Written (.bool b) (if b then "true" else "false").toList
  | nat {n : Nat} (h : n < 2 ^ 64) : Written (.nat n) (Nat.toDigits 10 n)
  | text (s : String) : Written (.text s) (quote s)
  | noItems {b : List Char} (hb : Blanks b) : Written (.list []) ('[' :: (b ++ [']']))
  | list {js : List Json} {b cs : List Char} (hb : Blanks b) (h : WrittenItems js cs) :
      Written (.list js) ('[' :: (b ++ cs))
  | noFields {b : List Char} (hb : Blanks b) : Written (.object []) ('{' :: (b ++ ['}']))
  | object {fs : List (String × Json)} {b cs : List Char} (hb : Blanks b) (h : WrittenFields fs cs) :
      Written (.object fs) ('{' :: (b ++ cs))

/-- The values of an array, with its closing bracket. -/
inductive WrittenItems : List Json → List Char → Prop
  | last {j : Json} {cs b : List Char} (h : Written j cs) (hb : Blanks b) :
      WrittenItems [j] (cs ++ (b ++ [']']))
  | more {j : Json} {js : List Json} {cs b b' more : List Char} (h : Written j cs) (hb : Blanks b)
      (hb' : Blanks b') (hmore : WrittenItems js more) :
      WrittenItems (j :: js) (cs ++ (b ++ ',' :: (b' ++ more)))

/-- The fields of an object, with its closing brace. -/
inductive WrittenFields : List (String × Json) → List Char → Prop
  | last {k : String} {j : Json} {cs b₁ b₂ b₃ : List Char} (hb₁ : Blanks b₁) (hb₂ : Blanks b₂)
      (h : Written j cs) (hb₃ : Blanks b₃) :
      WrittenFields [(k, j)] (quote k ++ (b₁ ++ ':' :: (b₂ ++ (cs ++ (b₃ ++ ['}'])))))
  | more {k : String} {j : Json} {fs : List (String × Json)} {cs b₁ b₂ b₃ b₄ more : List Char}
      (hb₁ : Blanks b₁) (hb₂ : Blanks b₂) (h : Written j cs) (hb₃ : Blanks b₃) (hb₄ : Blanks b₄)
      (hmore : WrittenFields fs more) :
      WrittenFields ((k, j) :: fs)
        (quote k ++ (b₁ ++ ':' :: (b₂ ++ (cs ++ (b₃ ++ ',' :: (b₄ ++ more))))))

end

variable {j : Json} {js : List Json} {fs : List (String × Json)} {b cs rest : List Char} {c : Char}
  {fuel : Nat}

section Blanks

@[simp] theorem blanks_nil : Blanks [] := by simp [Blanks]

theorem blanks_newline (level : Nat) : Blanks (newline level) := by
  intro c hc
  rcases List.mem_cons.1 hc with rfl | blank
  · rfl
  · rw [List.eq_of_mem_replicate blank]
    rfl

theorem skipBlanks_append (hb : Blanks b) : skipBlanks (b ++ cs) = skipBlanks cs :=
  List.dropWhile_append_of_pos hb

theorem value_append (hb : Blanks b) : value fuel (b ++ cs) = value fuel cs := by
  cases fuel with
  | zero => rfl
  | succ fuel => rw [value, value, skipBlanks_append hb]

theorem items_append (hb : Blanks b) : items fuel (b ++ cs) = items fuel cs := by
  cases fuel with
  | zero => rfl
  | succ fuel => rw [items, items, value_append hb]

theorem fields_append (hb : Blanks b) : fields fuel (b ++ cs) = fields fuel cs := by
  cases fuel with
  | zero => rfl
  | succ fuel => rw [fields, fields, skipBlanks_append hb]

/-- After blanks comes what ends a number, if it is so without them. -/
theorem Ends.append (hb : Blanks b) (h : Ends cs) : Ends (b ++ cs) := by
  cases b with
  | nil => exact h
  | cons c b =>
    intro d hd
    obtain rfl : c = d := by simpa using hd
    have blank := hb c List.mem_cons_self
    simp only [isBlank, Bool.or_eq_true, decide_eq_true_eq, or_assoc] at blank
    rcases blank with rfl | rfl | rfl | rfl <;> decide

/-- A comma or a closing mark ends a number, with blanks before it or without. -/
theorem ends_mark (hb : Blanks b) (cs : List Char) (hc : c = ',' ∨ c = ']' ∨ c = '}') :
    Ends (b ++ c :: cs) := by
  refine Ends.append hb fun d hd => ?_
  obtain rfl : c = d := by simpa using hd
  rcases hc with rfl | rfl | rfl <;> decide

end Blanks

section Writer

/-- A value that a record is made of. -/
inductive Plain : Json → Prop
  | null : Plain .null
  | bool (b : Bool) : Plain (.bool b)
  | nat {n : Nat} (h : n < 2 ^ 64) : Plain (.nat n)
  | text (s : String) : Plain (.text s)
  | list {js : List Json} (h : ∀ j ∈ js, Plain j) : Plain (.list js)
  | object {fs : List (String × Json)} (h : ∀ f ∈ fs, Plain f.2) : Plain (.object fs)

theorem text_nat (n : Nat) : (JsonNumber.natural n).text.toList = Nat.toDigits 10 n := by
  simp [JsonNumber.text, Nat.repr_eq_ofList_toDigits]

theorem written_compactItems (full : js ≠ []) (h : ∀ j ∈ js, Written j (compact j)) :
    WrittenItems js (compactItems js ++ [']']) := by
  induction js with
  | nil => exact absurd rfl full
  | cons j js ih =>
    have first := h j List.mem_cons_self
    cases js with
    | nil => exact .last first blanks_nil
    | cons j' js =>
      have later := ih (by simp) fun a ha => h a (List.mem_cons_of_mem _ ha)
      simpa [compactItems] using WrittenItems.more first blanks_nil blanks_nil later

theorem written_compactFields (full : fs ≠ []) (h : ∀ f ∈ fs, Written f.2 (compact f.2)) :
    WrittenFields fs (compactFields fs ++ ['}']) := by
  induction fs with
  | nil => exact absurd rfl full
  | cons f fs ih =>
    have first := h f List.mem_cons_self
    cases fs with
    | nil => simpa [compactFields] using WrittenFields.last (k := f.1) blanks_nil blanks_nil first blanks_nil
    | cons f' fs =>
      have later := ih (by simp) fun a ha => h a (List.mem_cons_of_mem _ ha)
      simpa [compactFields] using
        WrittenFields.more (k := f.1) blanks_nil blanks_nil first blanks_nil blanks_nil later

theorem written_compact (h : Plain j) : Written j (compact j) := by
  induction h with
  | null => exact .null
  | bool b => exact .bool b
  | @nat n h =>
    have number := Written.nat h
    rwa [← text_nat] at number
  | text s => exact .text s
  | @list js _ ih =>
    rw [compact]
    by_cases none : js = []
    · subst none
      exact .noItems (b := []) blanks_nil
    · exact .list (b := []) blanks_nil (written_compactItems none ih)
  | @object fs _ ih =>
    rw [compact]
    by_cases none : fs = []
    · subst none
      exact .noFields (b := []) blanks_nil
    · exact .object (b := []) blanks_nil (written_compactFields none ih)

/-- The lines of an array, from the second line on, up to the bracket on a line of its own. -/
theorem written_prettyItems (level : Nat) (hb : Blanks b) (full : js ≠ [])
    (h : ∀ j ∈ js, Written j (prettyAt level j)) :
    ∃ cs, prettyItems level js ++ (b ++ [']']) = newline level ++ cs ∧ WrittenItems js cs := by
  induction js with
  | nil => exact absurd rfl full
  | cons j js ih =>
    have first := h j List.mem_cons_self
    cases js with
    | nil => exact ⟨_, by simp [prettyItems], .last first hb⟩
    | cons j' js =>
      obtain ⟨cs, text, later⟩ := ih (by simp) fun a ha => h a (List.mem_cons_of_mem _ ha)
      refine ⟨_, ?_, .more first blanks_nil (blanks_newline level) later⟩
      simp [prettyItems, text]

theorem written_prettyFields (level : Nat) (hb : Blanks b) (full : fs ≠ [])
    (h : ∀ f ∈ fs, Written f.2 (prettyAt level f.2)) :
    ∃ cs, prettyFields level fs ++ (b ++ ['}']) = newline level ++ cs ∧ WrittenFields fs cs := by
  have space : Blanks [' '] := by simp [Blanks, isBlank]
  induction fs with
  | nil => exact absurd rfl full
  | cons f fs ih =>
    have first := h f List.mem_cons_self
    cases fs with
    | nil => exact ⟨_, by simp [prettyFields], .last (k := f.1) blanks_nil space first hb⟩
    | cons f' fs =>
      obtain ⟨cs, text, later⟩ := ih (by simp) fun a ha => h a (List.mem_cons_of_mem _ ha)
      refine ⟨_, ?_, .more (k := f.1) blanks_nil space first blanks_nil (blanks_newline level) later⟩
      simp [prettyFields, text]

theorem written_prettyAt (h : Plain j) (level : Nat) : Written j (prettyAt level j) := by
  induction h generalizing level with
  | null => exact .null
  | bool b => exact .bool b
  | @nat n h =>
    have number := Written.nat h
    rwa [← text_nat] at number
  | text s => exact .text s
  | @list js _ ih =>
    cases js with
    | nil => exact .noItems blanks_nil
    | cons j js =>
      obtain ⟨cs, text, items⟩ :=
        written_prettyItems (level + 1) (blanks_newline level) (by simp) fun a ha => ih a ha _
      rw [prettyAt, text]
      exact .list (blanks_newline _) items
  | @object fs _ ih =>
    cases fs with
    | nil => exact .noFields blanks_nil
    | cons f fs =>
      obtain ⟨cs, text, fields⟩ :=
        written_prettyFields (level + 1) (blanks_newline level) (by simp) fun a ha => ih a ha _
      rw [prettyAt, text]
      exact .object (blanks_newline _) fields

end Writer

section Reader

theorem Written.head (h : Written j cs) : ∃ c t, cs = c :: t ∧ isBlank c = false ∧ c ≠ ']' := by
  cases h with
  | null => exact ⟨_, _, rfl, rfl, by decide⟩
  | bool b => cases b <;> exact ⟨_, _, rfl, rfl, by decide⟩
  | @nat n =>
    obtain ⟨d, ds, digits, digit⟩ := toDigits_cons n
    refine ⟨d, ds, digits, isBlank_of_isDigit digit, ?_⟩
    rintro rfl
    exact absurd digit (by decide)
  | text => exact ⟨_, _, rfl, rfl, by decide⟩
  | noItems => exact ⟨_, _, rfl, rfl, by decide⟩
  | list => exact ⟨_, _, rfl, rfl, by decide⟩
  | noFields => exact ⟨_, _, rfl, rfl, by decide⟩
  | object => exact ⟨_, _, rfl, rfl, by decide⟩

theorem WrittenItems.head (h : WrittenItems js cs) : ∃ c t, cs = c :: t ∧ isBlank c = false ∧ c ≠ ']' := by
  cases h with
  | last h =>
    obtain ⟨c, t, rfl, printed, inside⟩ := h.head
    exact ⟨c, _, List.cons_append, printed, inside⟩
  | more h =>
    obtain ⟨c, t, rfl, printed, inside⟩ := h.head
    exact ⟨c, _, List.cons_append, printed, inside⟩

theorem WrittenFields.head (h : WrittenFields fs cs) : ∃ t, cs = '"' :: t := by
  cases h with
  | last => exact ⟨_, rfl⟩
  | more => exact ⟨_, rfl⟩

theorem value_nat {n : Nat} (h : n < 2 ^ 64) (ends : Ends rest) :
    value (fuel + 1) (Nat.toDigits 10 n ++ rest) = some (.nat n, rest) := by
  obtain ⟨d, ds, digits, digit⟩ := toDigits_cons n
  have number := number_toDigits h ends
  rw [digits, List.cons_append] at number ⊢
  rw [value, skipBlanks_cons (isBlank_of_isDigit digit)]
  -- No other value begins with a digit.
  split
  case h_7 => rw [number]; rfl
  all_goals simp_all

theorem text_quoted (s : String) : quote s ++ rest = '"' :: (s.toList.flatMap escape ++ '"' :: rest) := by
  simp [quote]

theorem value_list (h : WrittenItems js cs)
    (read : items fuel (cs ++ rest) = some (js, rest)) (hb : Blanks b) :
    value (fuel + 1) ('[' :: (b ++ (cs ++ rest))) = some (.list js, rest) := by
  obtain ⟨c, t, rfl, printed, inside⟩ := h.head
  rw [List.cons_append] at read ⊢
  have skipped : skipBlanks (b ++ c :: (t ++ rest)) = c :: (t ++ rest) := by
    rw [skipBlanks_append hb, skipBlanks_cons printed]
  have start : skipBlanks ('[' :: (b ++ c :: (t ++ rest))) = '[' :: (b ++ c :: (t ++ rest)) := rfl
  rw [value, start]
  simp only [skipped]
  split
  next closed => exact absurd (List.cons.inj closed).1 inside
  next => rw [read]; rfl

/-- Reading a list of which each member was written. -/
theorem mapM_map_some {α β γ : Type} {write : α → β} {read : β → Option γ} {f : α → γ} {xs : List α}
    (h : ∀ x ∈ xs, read (write x) = some (f x)) : (xs.map write).mapM read = some (xs.map f) := by
  induction xs with
  | nil => rfl
  | cons x xs ih =>
    simp [h x List.mem_cons_self, ih fun y hy => h y (List.mem_cons_of_mem _ hy)]

theorem ofFields_text (fs : List (String × Json)) :
    ofFields (fs.map fun f => (.text f.1, f.2)) = .object fs := by
  rw [ofFields, mapM_map_some (f := id), List.map_id]
  intro f _
  rfl

theorem value_object (h : WrittenFields fs cs)
    (read : fields fuel (cs ++ rest) = some (fs.map fun f => (.text f.1, f.2), rest)) (hb : Blanks b) :
    value (fuel + 1) ('{' :: (b ++ (cs ++ rest))) = some (.object fs, rest) := by
  obtain ⟨t, rfl⟩ := h.head
  rw [List.cons_append] at read ⊢
  have skipped : skipBlanks (b ++ '"' :: (t ++ rest)) = '"' :: (t ++ rest) := by
    rw [skipBlanks_append hb, skipBlanks_cons rfl]
  have start : skipBlanks ('{' :: (b ++ '"' :: (t ++ rest))) = '{' :: (b ++ '"' :: (t ++ rest)) := rfl
  rw [value, start]
  simp only [skipped]
  change (fields fuel ('"' :: (t ++ rest))).map _ = _
  rw [read, Option.map_some, ofFields_text]

/-- What reading a text of at most so many characters comes to. -/
structure Reads (fuel : Nat) : Prop where
  value : ∀ {j cs} rest, Written j cs → 2 * cs.length + 1 ≤ fuel → Ends rest →
    Json.value fuel (cs ++ rest) = some (j, rest)
  items : ∀ {js cs} rest, WrittenItems js cs → 2 * cs.length + 2 ≤ fuel →
    Json.items fuel (cs ++ rest) = some (js, rest)
  fields : ∀ {fs cs} rest, WrittenFields fs cs → 2 * cs.length + 2 ≤ fuel →
    Json.fields fuel (cs ++ rest) = some (fs.map fun f => (.text f.1, f.2), rest)

theorem Reads.value_succ (ih : Reads fuel) (h : Written j cs) (bound : 2 * cs.length + 1 ≤ fuel + 1)
    (ends : Ends rest) : Json.value (fuel + 1) (cs ++ rest) = some (j, rest) := by
  cases h with
  | null => rfl
  | bool b => cases b <;> rfl
  | nat h => exact value_nat h ends
  | text s =>
    rw [text_quoted]
    exact text_quote s
  | @noItems b hb =>
    have skipped : skipBlanks (b ++ (']' :: rest)) = ']' :: rest := by
      rw [skipBlanks_append hb, skipBlanks_cons rfl]
    have start : skipBlanks ('[' :: (b ++ ']' :: rest)) = '[' :: (b ++ ']' :: rest) := rfl
    rw [List.cons_append, List.append_assoc, List.singleton_append, Json.value, start]
    simp only [skipped]
  | @list js b cs hb h =>
    simp only [List.length_cons, List.length_append] at bound
    rw [List.cons_append, List.append_assoc]
    exact value_list h (ih.items rest h (by omega)) hb
  | @noFields b hb =>
    have skipped : skipBlanks (b ++ ('}' :: rest)) = '}' :: rest := by
      rw [skipBlanks_append hb, skipBlanks_cons rfl]
    have start : skipBlanks ('{' :: (b ++ '}' :: rest)) = '{' :: (b ++ '}' :: rest) := rfl
    rw [List.cons_append, List.append_assoc, List.singleton_append, Json.value, start]
    simp only [skipped]
  | @object fs b cs hb h =>
    simp only [List.length_cons, List.length_append] at bound
    rw [List.cons_append, List.append_assoc]
    exact value_object h (ih.fields rest h (by omega)) hb

theorem Reads.items_succ (ih : Reads fuel) (h : WrittenItems js cs)
    (bound : 2 * cs.length + 2 ≤ fuel + 1) : Json.items (fuel + 1) (cs ++ rest) = some (js, rest) := by
  cases h with
  | @last j cs b h hb =>
    simp only [List.length_append, List.length_singleton] at bound
    have read := ih.value _ h (by omega) (ends_mark hb rest (.inr (.inl rfl)))
    have skipped : skipBlanks (b ++ (']' :: rest)) = ']' :: rest := by
      rw [skipBlanks_append hb, skipBlanks_cons rfl]
    rw [List.append_assoc, List.append_assoc, List.singleton_append, Json.items, read]
    simp only [skipped]
  | @more j js cs b b' more h hb hb' hmore =>
    simp only [List.length_append, List.length_cons] at bound
    have read := ih.value _ h (by omega) (ends_mark hb (b' ++ (more ++ rest)) (.inl rfl))
    have later := ih.items rest hmore (by omega)
    have skipped : skipBlanks (b ++ (',' :: (b' ++ (more ++ rest)))) = ',' :: (b' ++ (more ++ rest)) := by
      rw [skipBlanks_append hb, skipBlanks_cons rfl]
    rw [List.append_assoc, List.append_assoc, List.cons_append, List.append_assoc, Json.items, read]
    simp only [skipped, items_append hb', later, Option.map_some]

theorem Reads.fields_succ (ih : Reads fuel) (h : WrittenFields fs cs)
    (bound : 2 * cs.length + 2 ≤ fuel + 1) :
    Json.fields (fuel + 1) (cs ++ rest) = some (fs.map fun f => (.text f.1, f.2), rest) := by
  cases h with
  | @last k j cs b₁ b₂ b₃ hb₁ hb₂ h hb₃ =>
    simp only [List.length_append, List.length_cons, List.length_nil] at bound
    have read := ih.value _ h (by omega) (ends_mark hb₃ rest (.inr (.inr rfl)))
    have colon : skipBlanks (b₁ ++ ':' :: (b₂ ++ (cs ++ (b₃ ++ '}' :: rest)))) =
        ':' :: (b₂ ++ (cs ++ (b₃ ++ '}' :: rest))) := by
      rw [skipBlanks_append hb₁, skipBlanks_cons rfl]
    have closed : skipBlanks (b₃ ++ '}' :: rest) = '}' :: rest := by
      rw [skipBlanks_append hb₃, skipBlanks_cons rfl]
    simp only [List.append_assoc, List.cons_append, List.nil_append, text_quoted]
    rw [Json.fields, skipBlanks_cons rfl]
    simp only [text_quote, colon, value_append hb₂, read, closed, List.map_cons, List.map_nil]
  | @more k j fs cs b₁ b₂ b₃ b₄ more hb₁ hb₂ h hb₃ hb₄ hmore =>
    simp only [List.length_append, List.length_cons] at bound
    have read := ih.value _ h (by omega) (ends_mark hb₃ (b₄ ++ (more ++ rest)) (.inl rfl))
    have later := ih.fields rest hmore (by omega)
    have colon : skipBlanks (b₁ ++ ':' :: (b₂ ++ (cs ++ (b₃ ++ ',' :: (b₄ ++ (more ++ rest)))))) =
        ':' :: (b₂ ++ (cs ++ (b₃ ++ ',' :: (b₄ ++ (more ++ rest))))) := by
      rw [skipBlanks_append hb₁, skipBlanks_cons rfl]
    have comma : skipBlanks (b₃ ++ ',' :: (b₄ ++ (more ++ rest))) = ',' :: (b₄ ++ (more ++ rest)) := by
      rw [skipBlanks_append hb₃, skipBlanks_cons rfl]
    simp only [List.append_assoc, List.cons_append, text_quoted]
    rw [Json.fields, skipBlanks_cons rfl]
    simp only [text_quote, colon, value_append hb₂, read, comma, fields_append hb₄, later,
      Option.map_some, List.map_cons]

theorem reads (fuel : Nat) : Reads fuel := by
  induction fuel with
  | zero =>
    exact ⟨fun _ _ bound _ => absurd bound (by omega), fun _ _ bound => absurd bound (by omega),
      fun _ _ bound => absurd bound (by omega)⟩
  | succ fuel ih => exact ⟨fun _ => ih.value_succ, fun _ => ih.items_succ, fun _ => ih.fields_succ⟩

theorem parse_written (h : Written j cs) : parse? (String.ofList cs) = some j := by
  have read := (reads (2 * cs.length + 1)).value [] h (Nat.le_refl _) (by simp [Ends])
  rw [List.append_nil] at read
  simp [parse?, read, skipBlanks]

theorem parse_render (h : Plain j) : parse? j.render = some j := parse_written (written_compact h)

theorem parse_pretty (h : Plain j) : parse? j.pretty = some j := parse_written (written_prettyAt h 0)

end Reader

end PageTest.Json
