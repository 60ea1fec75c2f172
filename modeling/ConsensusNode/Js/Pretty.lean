import ConsensusNode.Js.RoundTrip

/-! # Indented JSON text

`stringifyPretty` is `JSON.stringify(v, null, 2)`: every element and every field on a line of its own, two
spaces more than its bracket, and a space after the colon. `parse_decode_pretty`: it is read back like the text
without white space. -/

namespace ConsensusNode.Js

/-- A new line at depth `d`. -/
def indent (d : ℕ) : JsString := unit '\n' :: List.replicate (2 * d) (unit ' ')

mutual

/-- A value whose first line is at depth `d`. -/
def pretty (d : ℕ) : Json → JsString
  | .arr (x :: xs) => unit '[' :: (indent (d + 1) ++ (pretty (d + 1) x ++ prettyTail d xs))
  | .obj ((k, v) :: fs) =>
    unit '{' :: (indent (d + 1) ++ (quote k ++ unit ':' :: unit ' ' ::
      (pretty (d + 1) v ++ prettyFields d fs)))
  | v => stringify v

/-- The elements after the first, and the closing bracket. -/
def prettyTail (d : ℕ) : List Json → JsString
  | [] => indent d ++ [unit ']']
  | x :: xs => unit ',' :: (indent (d + 1) ++ (pretty (d + 1) x ++ prettyTail d xs))

/-- The fields after the first, and the closing brace. -/
def prettyFields (d : ℕ) : List (JsString × Json) → JsString
  | [] => indent d ++ [unit '}']
  | (k, v) :: fs => unit ',' :: (indent (d + 1) ++ (quote k ++ unit ':' :: unit ' ' ::
      (pretty (d + 1) v ++ prettyFields d fs)))

end

/-- `JSON.stringify(v, null, 2)`. -/
def stringifyPretty (v : Json) : JsString := pretty 0 v

theorem wellFormed_indent (d : ℕ) : WellFormed (indent d) := by
  refine wellFormed_of_plain fun c hc => ?_
  rcases List.mem_cons.mp hc with rfl | hc
  · decide
  · rw [List.eq_of_mem_replicate hc]
    decide

/-! ### White space is skipped -/

theorem skipSpace_indent (d : ℕ) (s : JsString) : skipSpace (indent d ++ s) = skipSpace s := by
  have hspace : ∀ n, (List.replicate n (unit ' ') ++ s).dropWhile isJsonSpace = s.dropWhile isJsonSpace := by
    intro n
    induction n with
    | zero => rfl
    | succ n ih =>
      rw [List.replicate_succ, List.cons_append, List.dropWhile_cons_of_pos (by decide), ih]
  unfold skipSpace indent
  rw [List.cons_append, List.dropWhile_cons_of_pos (by decide), hspace]

theorem skipSpace_space (s : JsString) : skipSpace (unit ' ' :: s) = skipSpace s := by
  unfold skipSpace
  rw [List.dropWhile_cons_of_pos (by decide)]

section Read

variable {conv : ℚ → JsNumber}

theorem readValue_of_skipSpace {s t : JsString} (h : skipSpace s = skipSpace t) (n : ℕ) :
    readValue conv n s = readValue conv n t := by
  cases n with
  | zero => rfl
  | succ n => rw [readValue, readValue, h]

theorem readTail_of_skipSpace {s t : JsString} (h : skipSpace s = skipSpace t) (n : ℕ) :
    readTail conv n s = readTail conv n t := by
  cases n with
  | zero => rfl
  | succ n => rw [readTail, readTail, h]

theorem readField_of_skipSpace {s t : JsString} (h : skipSpace s = skipSpace t) (n : ℕ) :
    readField conv n s = readField conv n t := by
  cases n with
  | zero => rfl
  | succ n => rw [readField, readField, h]

theorem readFields_of_skipSpace {s t : JsString} (h : skipSpace s = skipSpace t) (n : ℕ) :
    readFields conv n s = readFields conv n t := by
  cases n with
  | zero => rfl
  | succ n => rw [readFields, readFields, h]

/-! ### Values are read back -/

theorem head_pretty (d : ℕ) (v : Json) : ∃ c t, pretty d v = c :: t ∧ isJsonSpace c = false ∧
    c ≠ unit ']' := by
  match v with
  | .arr (x :: xs) => exact ⟨_, _, rfl, by decide, by decide⟩
  | .obj ((k, v) :: fs) => exact ⟨_, _, rfl, by decide, by decide⟩
  | .null => exact head_stringify .null
  | .bool b => exact head_stringify (.bool b)
  | .num x => exact head_stringify (.num x)
  | .str s => exact head_stringify (.str s)
  | .arr [] => exact head_stringify (.arr [])
  | .obj [] => exact head_stringify (.obj [])

theorem numEnd_prettyTail (d : ℕ) (xs : List Json) (r : JsString) : NumEnd (prettyTail d xs ++ r) := by
  intro c hc
  cases xs with
  | nil =>
    simp [prettyTail, indent] at hc
    subst hc
    decide
  | cons x xs =>
    simp [prettyTail] at hc
    subst hc
    decide

theorem numEnd_prettyFields (d : ℕ) (fs : List (JsString × Json)) (r : JsString) :
    NumEnd (prettyFields d fs ++ r) := by
  intro c hc
  cases fs with
  | nil =>
    simp [prettyFields, indent] at hc
    subst hc
    decide
  | cons f fs =>
    simp [prettyFields] at hc
    subst hc
    decide

/-- A field with a space after the colon. -/
theorem readField_pretty {n : ℕ} {k t r : JsString} {v : Json}
    (h : readValue conv n t = some (v, r)) :
    readField conv (n + 1) (quote k ++ unit ':' :: unit ' ' :: t) = some ((k, v), r) := by
  refine readField_quote ?_
  rw [readValue_of_skipSpace (skipSpace_space t)]
  exact h

mutual

/-- **What `stringifyPretty` writes is read back.** -/
theorem readValue_pretty : ∀ (v : Json), Fixes conv v → ∀ (n : ℕ), need v ≤ n →
    ∀ (d : ℕ) (r : JsString), NumEnd r → readValue conv n (pretty d v ++ r) = some (finitize v, r)
  | v, _, 0, hn, _, _, _ => by
    have : 1 ≤ need v := by unfold need; split <;> omega
    omega
  | .null, _, n + 1, _, _, r, _ => by rfl
  | .bool true, _, n + 1, _, _, r, _ => by rfl
  | .bool false, _, n + 1, _, _, r, _ => by rfl
  | .num (.fin q h), hf, n + 1, _, _, r, hr => by
    rw [pretty, stringify, finitize]
    · exact readValue_num h hf hr
    · simp
    · simp
  | .num .posInf, _, n + 1, _, _, r, _ => by rfl
  | .num .negInf, _, n + 1, _, _, r, _ => by rfl
  | .str s, _, n + 1, _, _, r, _ => readValue_str s r
  | .arr [], _, n + 1, _, _, r, _ => by rfl
  | .arr (x :: xs), hf, n + 1, hn, d, r, _ => by
    simp only [need] at hn
    have hx := readValue_pretty x hf.1 n (by omega) (d + 1) (prettyTail d xs ++ r)
      (numEnd_prettyTail d xs r)
    have hxs := readTail_pretty xs hf.2 n (by omega) d r
    obtain ⟨c, t, hct, hsp, hne⟩ := head_pretty (d + 1) x
    rw [hct, List.cons_append] at hx
    rw [pretty, hct, List.cons_append, List.append_assoc, List.append_assoc, List.cons_append,
      readValue.eq_def]
    simp only [skipSpace_cons (show isJsonSpace (unit '[') = false by decide),
      if_neg (show ¬ unit '[' = unit '"' by decide), if_pos, skipSpace_indent, skipSpace_cons hsp,
      if_neg hne, hx, Option.bind_eq_bind, Option.bind_some, hxs, finitize, finitizeList]
    rfl
  | .obj [], _, n + 1, _, _, r, _ => by rfl
  | .obj ((k, v) :: fs), hf, n + 1, hn, d, r, _ => by
    simp only [need] at hn
    obtain ⟨m, rfl⟩ : ∃ m, n = m + 1 := ⟨n - 1, by omega⟩
    have hv := readValue_pretty v hf.1 m (by omega) (d + 1) (prettyFields d fs ++ r)
      (numEnd_prettyFields d fs r)
    have hfs := readFields_pretty fs hf.2 (m + 1) (by omega) d r
    have hk := readField_pretty (k := k) hv
    rw [quote_append] at hk
    rw [pretty, List.cons_append, List.append_assoc, List.append_assoc, List.cons_append,
      List.cons_append, List.append_assoc, quote_append, readValue.eq_def]
    simp only [skipSpace_cons (show isJsonSpace (unit '{') = false by decide),
      if_neg (show ¬ unit '{' = unit '"' by decide), if_neg (show ¬ unit '{' = unit '[' by decide),
      if_pos, skipSpace_indent, skipSpace_cons (show isJsonSpace (unit '"') = false by decide),
      if_neg (show ¬ unit '"' = unit '}' by decide), hk, Option.bind_eq_bind, Option.bind_some, hfs,
      finitize, finitizeFields]
    rfl

theorem readTail_pretty : ∀ (xs : List Json), FixesList conv xs → ∀ (n : ℕ), needTail xs ≤ n →
    ∀ (d : ℕ) (r : JsString), readTail conv n (prettyTail d xs ++ r) = some (finitizeList xs, r)
  | xs, _, 0, hn, _, _ => by
    have : 1 ≤ needTail xs := by unfold needTail; split <;> omega
    omega
  | [], _, n + 1, _, d, r => by
    rw [prettyTail, List.append_assoc, readTail_of_skipSpace (skipSpace_indent d _)]
    rfl
  | x :: xs, hf, n + 1, hn, d, r => by
    simp only [needTail] at hn
    have hx := readValue_pretty x hf.1 n (by omega) (d + 1) (prettyTail d xs ++ r)
      (numEnd_prettyTail d xs r)
    rw [← readValue_of_skipSpace (skipSpace_indent (d + 1) _)] at hx
    have hxs := readTail_pretty xs hf.2 n (by omega) d r
    rw [prettyTail, List.cons_append, List.append_assoc, List.append_assoc, readTail.eq_def]
    simp only [skipSpace_cons (show isJsonSpace (unit ',') = false by decide),
      if_neg (show ¬ unit ',' = unit ']' by decide), if_pos, hx, Option.bind_eq_bind,
      Option.bind_some, hxs, finitizeList]
    rfl

theorem readFields_pretty : ∀ (fs : List (JsString × Json)), FixesFields conv fs → ∀ (n : ℕ),
    needFields fs ≤ n → ∀ (d : ℕ) (r : JsString),
      readFields conv n (prettyFields d fs ++ r) = some (finitizeFields fs, r)
  | fs, _, 0, hn, _, _ => by
    have : 1 ≤ needFields fs := by unfold needFields; split <;> omega
    omega
  | [], _, n + 1, _, d, r => by
    rw [prettyFields, List.append_assoc, readFields_of_skipSpace (skipSpace_indent d _)]
    rfl
  | (k, v) :: fs, hf, n + 1, hn, d, r => by
    simp only [needFields] at hn
    obtain ⟨m, rfl⟩ : ∃ m, n = m + 1 := ⟨n - 1, by omega⟩
    have hv := readValue_pretty v hf.1 m (by omega) (d + 1) (prettyFields d fs ++ r)
      (numEnd_prettyFields d fs r)
    have hk := readField_pretty (k := k) hv
    rw [← readField_of_skipSpace (skipSpace_indent (d + 1) _)] at hk
    have hfs := readFields_pretty fs hf.2 (m + 1) (by omega) d r
    rw [prettyFields, List.cons_append, List.append_assoc, List.append_assoc, List.cons_append,
      List.cons_append, List.append_assoc, readFields.eq_def]
    simp only [skipSpace_cons (show isJsonSpace (unit ',') = false by decide),
      if_neg (show ¬ unit ',' = unit '}' by decide), if_pos, hk,
      Option.bind_eq_bind, Option.bind_some, hfs, finitizeFields]
    rfl

end

end Read

mutual

theorem need_le_pretty : ∀ (v : Json) (d : ℕ), need v ≤ (pretty d v).length
  | .null, _ => need_le .null
  | .bool b, _ => need_le (.bool b)
  | .num x, _ => need_le (.num x)
  | .str s, _ => need_le (.str s)
  | .arr [], _ => need_le (.arr [])
  | .arr (x :: xs), d => by
    have hx := need_le_pretty x (d + 1)
    have hxs := needTail_le_pretty xs d
    simp only [need, pretty, List.length_cons, List.length_append]
    omega
  | .obj [], _ => need_le (.obj [])
  | .obj ((k, v) :: fs), d => by
    have hk := length_quote k
    have hv := need_le_pretty v (d + 1)
    have hfs := needFields_le_pretty fs d
    simp only [need, pretty, List.length_cons, List.length_append]
    omega

theorem needTail_le_pretty : ∀ (xs : List Json) (d : ℕ), needTail xs ≤ (prettyTail d xs).length
  | [], d => by simp [needTail, prettyTail]
  | x :: xs, d => by
    have hx := need_le_pretty x (d + 1)
    have hxs := needTail_le_pretty xs d
    simp only [needTail, prettyTail, List.length_cons, List.length_append]
    omega

theorem needFields_le_pretty : ∀ (fs : List (JsString × Json)) (d : ℕ),
    needFields fs ≤ (prettyFields d fs).length
  | [], d => by simp [needFields, prettyFields]
  | (k, v) :: fs, d => by
    have hk := length_quote k
    have hv := need_le_pretty v (d + 1)
    have hfs := needFields_le_pretty fs d
    simp only [needFields, prettyFields, List.length_cons, List.length_append]
    omega

end

mutual

theorem wellFormed_pretty : ∀ (v : Json) (d : ℕ), WellFormed (pretty d v)
  | .null, _ => wellFormed_stringify .null
  | .bool b, _ => wellFormed_stringify (.bool b)
  | .num x, _ => wellFormed_stringify (.num x)
  | .str s, _ => wellFormed_stringify (.str s)
  | .arr [], _ => wellFormed_stringify (.arr [])
  | .arr (x :: xs), d => by
    rw [pretty]
    exact wellFormed_cons (by decide) ((wellFormed_indent _).append
      ((wellFormed_pretty x (d + 1)).append (wellFormed_prettyTail xs d)))
  | .obj [], _ => wellFormed_stringify (.obj [])
  | .obj ((k, v) :: fs), d => by
    rw [pretty]
    exact wellFormed_cons (by decide) ((wellFormed_indent _).append ((wellFormed_quote k).append
      (wellFormed_cons (by decide) (wellFormed_cons (by decide)
        ((wellFormed_pretty v (d + 1)).append (wellFormed_prettyFields fs d))))))

theorem wellFormed_prettyTail : ∀ (xs : List Json) (d : ℕ), WellFormed (prettyTail d xs)
  | [], d => by
    rw [prettyTail]
    exact (wellFormed_indent d).append (wellFormed_cons (by decide) trivial)
  | x :: xs, d => by
    rw [prettyTail]
    exact wellFormed_cons (by decide) ((wellFormed_indent _).append
      ((wellFormed_pretty x (d + 1)).append (wellFormed_prettyTail xs d)))

theorem wellFormed_prettyFields : ∀ (fs : List (JsString × Json)) (d : ℕ),
    WellFormed (prettyFields d fs)
  | [], d => by
    rw [prettyFields]
    exact (wellFormed_indent d).append (wellFormed_cons (by decide) trivial)
  | (k, v) :: fs, d => by
    rw [prettyFields]
    exact wellFormed_cons (by decide) ((wellFormed_indent _).append ((wellFormed_quote k).append
      (wellFormed_cons (by decide) (wellFormed_cons (by decide)
        ((wellFormed_pretty v (d + 1)).append (wellFormed_prettyFields fs d))))))

end

/-- **`JSON.parse` reads the indented text**, through a byte buffer. -/
theorem parse_decode_pretty {v : Json} (hv : Built v) (hn : Fixes ofRat v) :
    parse (decodeUtf8 (utf8 (stringifyPretty v))) = some (finitize v) := by
  have hend : NumEnd [] := by intro c hc; simp at hc
  have hread := readValue_pretty v hn ((pretty 0 v).length + 1)
    ((need_le_pretty v 0).trans (Nat.le_succ _)) 0 [] hend
  rw [List.append_nil] at hread
  unfold stringifyPretty
  rw [decodeUtf8_utf8 (wellFormed_pretty v 0)]
  unfold parse
  rw [hread]
  simp [skipSpace, rebuild_of_built _ (built_finitize v hv)]

end ConsensusNode.Js
