import ConsensusNode.Js.Json

/-! # Reading JSON text

`readValue conv n s` reads one value from the front of `s` and returns it with the rest of the text;
`conv` converts number literals and `n` bounds the depth (every level takes at least one character, so
the length of the text is enough). The fields of an object are kept as the text has them.

* `readString_quote`, `readValue_stringify`: what `stringify` writes is read back.
* `stringify_injective`: so equal texts are texts of equal values, up to infinite numbers.
* `parse`: `JSON.parse`. The literals become doubles, and every object is built field by field
  (`rebuild`), so that the last of several equal keys wins and integer keys come first. -/

namespace ConsensusNode.Js

/-! ### The reader -/

/-- White space of JSON text. -/
def isJsonSpace (c : UInt16) : Bool := c = 32 || c = 9 || c = 10 || c = 13

def skipSpace (s : JsString) : JsString := s.dropWhile isJsonSpace

/-- The value of a hexadecimal digit. -/
def hexVal (c : UInt16) : Option ℕ :=
  if 48 ≤ c.toNat ∧ c.toNat ≤ 57 then some (c.toNat - 48)
  else if 97 ≤ c.toNat ∧ c.toNat ≤ 102 then some (c.toNat - 87)
  else if 65 ≤ c.toNat ∧ c.toNat ≤ 70 then some (c.toNat - 55)
  else none

/-- The code unit of a two-character escape. -/
def unescape (e : UInt16) : Option UInt16 :=
  if e = unit '"' then some (unit '"')
  else if e = unit '\\' then some (unit '\\')
  else if e = unit '/' then some (unit '/')
  else if e = unit 'b' then some 8
  else if e = unit 't' then some 9
  else if e = unit 'n' then some 10
  else if e = unit 'f' then some 12
  else if e = unit 'r' then some 13
  else none

/-- The code unit of four hexadecimal digits. -/
def hexUnit (a b c d : UInt16) : Option UInt16 := do
  let a ← hexVal a
  let b ← hexVal b
  let c ← hexVal c
  let d ← hexVal d
  return UInt16.ofNat (a * 4096 + b * 256 + c * 16 + d)

/-- The rest of a string after its first quotation mark. -/
def readString : JsString → Option (JsString × JsString)
  | [] => none
  | [c] => if c = unit '"' then some ([], []) else none
  | c :: e :: s =>
    if c = unit '"' then some ([], e :: s)
    else if c = unit '\\' then
      if e = unit 'u' then
        match s with
        | a :: b :: c' :: d :: s => do
          let u ← hexUnit a b c' d
          let (t, r) ← readString s
          return (u :: t, r)
        | _ => none
      else do
        let u ← unescape e
        let (t, r) ← readString s
        return (u :: t, r)
    else if c < 32 then none
    else do
      let (t, r) ← readString (e :: s)
      return (c :: t, r)

/-- Take a fixed word from the front. -/
def readWord (w s : JsString) (v : Json) : Option (Json × JsString) :=
  if w.isPrefixOf s then some (v, s.drop w.length) else none

mutual

/-- Read one value. -/
def readValue (conv : ℚ → JsNumber) : ℕ → JsString → Option (Json × JsString)
  | 0, _ => none
  | n + 1, s =>
    match skipSpace s with
    | [] => none
    | c :: r =>
      if c = unit '"' then (readString r).map fun p => (.str p.1, p.2)
      else if c = unit '[' then
        match skipSpace r with
        | [] => none
        | d :: r' =>
          if d = unit ']' then some (.arr [], r')
          else do
            let (x, r) ← readValue conv n (d :: r')
            let (xs, r) ← readTail conv n r
            return (.arr (x :: xs), r)
      else if c = unit '{' then
        match skipSpace r with
        | [] => none
        | d :: r' =>
          if d = unit '}' then some (.obj [], r')
          else do
            let (f, r) ← readField conv n (d :: r')
            let (fs, r) ← readFields conv n r
            return (.obj (f :: fs), r)
      else if c = unit 't' then readWord (js "true") (c :: r) (.bool true)
      else if c = unit 'f' then readWord (js "false") (c :: r) (.bool false)
      else if c = unit 'n' then readWord (js "null") (c :: r) .null
      else (readNumber (c :: r)).map fun p => (.num (conv p.1), p.2)

/-- The elements after the first, up to the closing bracket. -/
def readTail (conv : ℚ → JsNumber) : ℕ → JsString → Option (List Json × JsString)
  | 0, _ => none
  | n + 1, s =>
    match skipSpace s with
    | [] => none
    | c :: r =>
      if c = unit ']' then some ([], r)
      else if c = unit ',' then do
        let (x, r) ← readValue conv n r
        let (xs, r) ← readTail conv n r
        return (x :: xs, r)
      else none

/-- A key, a colon and a value. -/
def readField (conv : ℚ → JsNumber) : ℕ → JsString → Option ((JsString × Json) × JsString)
  | 0, _ => none
  | n + 1, s =>
    match skipSpace s with
    | [] => none
    | c :: r =>
      if c = unit '"' then do
        let (k, r) ← readString r
        match skipSpace r with
        | [] => none
        | d :: r =>
          if d = unit ':' then do
            let (v, r) ← readValue conv n r
            return ((k, v), r)
          else none
      else none

/-- The fields after the first, up to the closing brace. -/
def readFields (conv : ℚ → JsNumber) : ℕ → JsString → Option (List (JsString × Json) × JsString)
  | 0, _ => none
  | n + 1, s =>
    match skipSpace s with
    | [] => none
    | c :: r =>
      if c = unit '}' then some ([], r)
      else if c = unit ',' then do
        let (f, r) ← readField conv n r
        let (fs, r) ← readFields conv n r
        return (f :: fs, r)
      else none

end

mutual

/-- Build every object field by field. -/
def rebuild : Json → Json
  | .arr xs => .arr (rebuildList xs)
  | .obj fs => .obj (fromEntries (rebuildFields fs))
  | v => v

def rebuildList : List Json → List Json
  | [] => []
  | x :: xs => rebuild x :: rebuildList xs

def rebuildFields : List (JsString × Json) → List (JsString × Json)
  | [] => []
  | (k, v) :: fs => (k, rebuild v) :: rebuildFields fs

end

/-- `JSON.parse`. -/
def parse (s : JsString) : Option Json :=
  match readValue ofRat (s.length + 1) s with
  | some (v, r) => if skipSpace r = [] then some (rebuild v) else none
  | none => none

/-! ### Strings are read back -/

theorem hexVal_hexDigit {d : ℕ} (h : d < 16) : hexVal (hexDigit d) = some d := by
  have h' : ∀ d < 16, hexVal (hexDigit d) = some d := by decide
  exact h' d h

theorem hexUnit_escapeUnit (c : UInt16) : hexUnit (hexDigit (c.toNat / 4096))
    (hexDigit (c.toNat / 256 % 16)) (hexDigit (c.toNat / 16 % 16)) (hexDigit (c.toNat % 16)) =
      some c := by
  have hc : c.toNat < 65536 := c.toNat_lt
  unfold hexUnit
  rw [hexVal_hexDigit (by omega), hexVal_hexDigit (by omega), hexVal_hexDigit (by omega),
    hexVal_hexDigit (by omega)]
  simp only [Option.bind_eq_bind, Option.bind_some, Option.pure_def]
  rw [show c.toNat / 4096 * 4096 + c.toNat / 256 % 16 * 256 + c.toNat / 16 % 16 * 16 + c.toNat % 16 =
    c.toNat by omega, UInt16.ofNat_toNat]

theorem unescape_shortEscape {c e : UInt16} (h : shortEscape c = some e) :
    unescape e = some c ∧ e ≠ unit 'u' := by
  unfold shortEscape at h
  split_ifs at h with h1 h2 h3 h4 h5 h6 h7 <;>
    (obtain rfl := Option.some.inj h; subst_vars; exact ⟨by decide, by decide⟩)

theorem readString_end (r : JsString) : readString (unit '"' :: r) = some ([], r) := by
  cases r <;> (rw [readString.eq_def]; simp)

theorem readString_cons_raw {c : UInt16} {s t r : JsString} (h1 : c ≠ unit '"')
    (h2 : c ≠ unit '\\') (h3 : ¬ c < 32) (h : readString s = some (t, r)) :
    readString (c :: s) = some (c :: t, r) := by
  cases s with
  | nil => simp [readString] at h
  | cons e s =>
    rw [readString.eq_def]
    simp only [if_neg h1, if_neg h2, if_neg h3, h]
    rfl

theorem readString_quoteUnit (c : UInt16) {s t r : JsString} (h : readString s = some (t, r)) :
    readString (quoteUnit c ++ s) = some (c :: t, r) := by
  unfold quoteUnit
  cases he : shortEscape c with
  | some e =>
    obtain ⟨hu, hne⟩ := unescape_shortEscape he
    show readString (unit '\\' :: e :: s) = _
    rw [readString.eq_def]
    simp only [if_neg (show ¬ unit '\\' = unit '"' by decide), if_pos, if_neg hne, hu, h]
    rfl
  | none =>
    simp only []
    split_ifs with hc
    · show readString (unit '\\' :: unit 'u' :: hexDigit _ :: hexDigit _ :: hexDigit _ ::
        hexDigit _ :: s) = _
      rw [readString, if_neg (by decide), if_pos rfl, if_pos rfl]
      simp only []
      rw [hexUnit_escapeUnit, h]
      rfl
    · simp only [Bool.or_eq_true, decide_eq_true_eq, not_or] at hc
      refine readString_cons_raw ?_ ?_ hc.1.1 h
      · rintro rfl; simp [shortEscape] at he
      · rintro rfl; simp [shortEscape, unit] at he

/-- A surrogate stands for itself. -/
theorem readString_surrogate {c : UInt16} (hc : isHigh c = true ∨ isLow c = true) {s t r : JsString}
    (h : readString s = some (t, r)) : readString (c :: s) = some (c :: t, r) := by
  have hle : (0xD800 : UInt16) ≤ c := by
    rcases hc with hc | hc
    · simp only [isHigh, Bool.and_eq_true, decide_eq_true_eq] at hc; exact hc.1
    · simp only [isLow, Bool.and_eq_true, decide_eq_true_eq] at hc
      exact UInt16.le_trans (by decide) hc.1
  have hle' : 0xD800 ≤ c.toNat := UInt16.le_iff_toNat_le.mp hle
  refine readString_cons_raw ?_ ?_ ?_ h
  · rintro rfl; exact absurd hle' (by decide)
  · rintro rfl; exact absurd hle' (by decide)
  · rw [UInt16.lt_iff_toNat_lt]
    show ¬ c.toNat < 32
    omega

/-- **A quoted string is read back.** -/
theorem readString_quoteBody : ∀ (s r : JsString),
    readString (quoteBody s ++ unit '"' :: r) = some (s, r)
  | [], r => readString_end r
  | [c], r => by rw [quoteBody]; exact readString_quoteUnit c (readString_end r)
  | c :: d :: s, r => by
    rw [quoteBody]
    split_ifs with h
    · rw [Bool.and_eq_true] at h
      exact readString_surrogate (Or.inl h.1)
        (readString_surrogate (Or.inr h.2) (readString_quoteBody s r))
    · rw [List.append_assoc]
      exact readString_quoteUnit c (readString_quoteBody (d :: s) r)

theorem quote_append (s r : JsString) :
    quote s ++ r = unit '"' :: (quoteBody s ++ unit '"' :: r) := by simp [quote]

/-! ### Values are read back -/

mutual

/-- The depth that reading the text of a value needs. -/
def need : Json → ℕ
  | .arr (x :: xs) => 1 + need x + needTail xs
  | .obj ((_, v) :: fs) => 2 + need v + needFields fs
  | _ => 1

def needTail : List Json → ℕ
  | [] => 1
  | x :: xs => 1 + need x + needTail xs

def needFields : List (JsString × Json) → ℕ
  | [] => 1
  | (_, v) :: fs => 2 + need v + needFields fs

end

mutual

/-- `conv` maps the value of every finite number to that number. -/
def Fixes (conv : ℚ → JsNumber) : Json → Prop
  | .num (.fin q h) => conv q = .fin q h
  | .arr xs => FixesList conv xs
  | .obj fs => FixesFields conv fs
  | _ => True

def FixesList (conv : ℚ → JsNumber) : List Json → Prop
  | [] => True
  | x :: xs => Fixes conv x ∧ FixesList conv xs

def FixesFields (conv : ℚ → JsNumber) : List (JsString × Json) → Prop
  | [] => True
  | (_, v) :: fs => Fixes conv v ∧ FixesFields conv fs

end

theorem skipSpace_cons {c : UInt16} (h : isJsonSpace c = false) (s : JsString) :
    skipSpace (c :: s) = c :: s := by
  unfold skipSpace; rw [List.dropWhile_cons_of_neg (by simp [h])]

/-- A digit or a minus sign. -/
theorem head_numText (q : ℚ) : ∃ c t, numText q = c :: t ∧ (isDigit c = true ∨ c = unit '-') := by
  unfold numText
  split_ifs with h0 hneg
  · exact ⟨48, [], rfl, Or.inl rfl⟩
  · exact ⟨_, _, rfl, Or.inr rfl⟩
  · obtain ⟨c, t, h, hc⟩ := head_layout (s := (decompose q).1) (decompose q).2
    exact ⟨c, t, h, Or.inl hc⟩

/-- What a digit or a minus sign is not. -/
theorem ne_of_isDigit {c : UInt16} (h : isDigit c = true ∨ c = unit '-') {d : UInt16}
    (hd : isDigit d = false) (hd' : d ≠ unit '-') : c ≠ d := by
  rintro rfl
  rcases h with h | h
  · rw [hd] at h; cases h
  · exact hd' h

/-- The first character of a value. -/
theorem head_stringify (v : Json) : ∃ c t, stringify v = c :: t ∧ isJsonSpace c = false ∧
    c ≠ unit ']' := by
  match v with
  | .null => exact ⟨_, _, rfl, by decide, by decide⟩
  | .bool true => exact ⟨_, _, rfl, by decide, by decide⟩
  | .bool false => exact ⟨_, _, rfl, by decide, by decide⟩
  | .num (.fin q h) =>
    obtain ⟨c, t, hq, hc⟩ := head_numText q
    refine ⟨c, t, by rw [stringify, hq], ?_, ne_of_isDigit hc (by decide) (by decide)⟩
    unfold isJsonSpace
    simp [ne_of_isDigit hc (d := 32) (by decide) (by decide),
      ne_of_isDigit hc (d := 9) (by decide) (by decide),
      ne_of_isDigit hc (d := 10) (by decide) (by decide),
      ne_of_isDigit hc (d := 13) (by decide) (by decide)]
  | .num .posInf => exact ⟨_, _, rfl, by decide, by decide⟩
  | .num .negInf => exact ⟨_, _, rfl, by decide, by decide⟩
  | .str s => exact ⟨_, _, rfl, by decide, by decide⟩
  | .arr [] => exact ⟨_, _, rfl, by decide, by decide⟩
  | .arr (x :: xs) => exact ⟨_, _, rfl, by decide, by decide⟩
  | .obj [] => exact ⟨_, _, rfl, by decide, by decide⟩
  | .obj ((k, v) :: fs) => exact ⟨_, _, rfl, by decide, by decide⟩

/-- The text after a value: the end, a comma or a closing bracket. -/
def ValueEnd (r : JsString) : Prop :=
  ∀ c ∈ r.head?, c = unit ',' ∨ c = unit ']' ∨ c = unit '}'

theorem ValueEnd.numEnd {r : JsString} (h : ValueEnd r) : NumEnd r := by
  intro c hc
  rcases h c hc with rfl | rfl | rfl <;> decide

theorem valueEnd_tail (xs : List Json) (r : JsString) : ValueEnd (stringifyTail xs ++ r) := by
  cases xs with
  | nil => intro c hc; simp [stringifyTail] at hc; exact Or.inr (Or.inl hc.symm)
  | cons x xs => intro c hc; simp [stringifyTail] at hc; exact Or.inl hc.symm

theorem valueEnd_fields (fs : List (JsString × Json)) (r : JsString) :
    ValueEnd (stringifyFields fs ++ r) := by
  cases fs with
  | nil => intro c hc; simp [stringifyFields] at hc; exact Or.inr (Or.inr hc.symm)
  | cons x xs => intro c hc; simp [stringifyFields] at hc; exact Or.inl hc.symm

section Read

variable {conv : ℚ → JsNumber}

theorem readValue_num {q : ℚ} (hq : IsDecimal q) (hc : conv q = .fin q hq) {n : ℕ} {r : JsString}
    (hr : NumEnd r) :
    readValue conv (n + 1) (numText q ++ r) = some (.num (.fin q hq), r) := by
  obtain ⟨c, t, hct, hd⟩ := head_numText q
  have hne : ∀ d, isDigit d = false → d ≠ unit '-' → c ≠ d := fun d => ne_of_isDigit hd
  obtain ⟨c', t', hs, hsp, -⟩ := head_stringify (.num (.fin q hq))
  have hcc : c' = c := by rw [stringify, hct] at hs; simpa using (List.cons.inj hs).1.symm
  subst hcc
  have hread := readNumber_numText hq hr
  rw [hct] at hread ⊢
  rw [List.cons_append] at hread ⊢
  rw [readValue.eq_def]
  simp only [skipSpace_cons hsp, hread, Option.map_some, hc,
    if_neg (hne (unit '"') (by decide) (by decide)), if_neg (hne (unit '[') (by decide) (by decide)),
    if_neg (hne (unit '{') (by decide) (by decide)), if_neg (hne (unit 't') (by decide) (by decide)),
    if_neg (hne (unit 'f') (by decide) (by decide)), if_neg (hne (unit 'n') (by decide) (by decide))]

theorem readValue_str {n : ℕ} (s r : JsString) :
    readValue conv (n + 1) (quote s ++ r) = some (.str s, r) := by
  rw [quote_append, readValue.eq_def]
  simp only [skipSpace_cons (show isJsonSpace (unit '"') = false by decide), if_pos,
    readString_quoteBody, Option.map_some]

theorem readField_quote {n : ℕ} {k t r : JsString} {v : Json}
    (h : readValue conv n t = some (v, r)) :
    readField conv (n + 1) (quote k ++ unit ':' :: t) = some ((k, v), r) := by
  rw [quote_append, readField.eq_def]
  simp only [skipSpace_cons (show isJsonSpace (unit '"') = false by decide), if_pos,
    readString_quoteBody, Option.bind_eq_bind, Option.bind_some,
    skipSpace_cons (show isJsonSpace (unit ':') = false by decide), h]
  rfl

mutual

/-- **What `stringify` writes is read back.** -/
theorem readValue_stringify : ∀ (v : Json), Fixes conv v → ∀ (n : ℕ), need v ≤ n →
    ∀ r : JsString, ValueEnd r → readValue conv n (stringify v ++ r) = some (finitize v, r)
  | v, _, 0, hn, _, _ => by
    have : 1 ≤ need v := by unfold need; split <;> omega
    omega
  | .null, _, n + 1, _, r, _ => by rfl
  | .bool true, _, n + 1, _, r, _ => by rfl
  | .bool false, _, n + 1, _, r, _ => by rfl
  | .num (.fin q h), hf, n + 1, _, r, hr => by
    rw [stringify, finitize]; exact readValue_num h hf hr.numEnd
  | .num .posInf, _, n + 1, _, r, _ => by rfl
  | .num .negInf, _, n + 1, _, r, _ => by rfl
  | .str s, _, n + 1, _, r, _ => by rw [stringify]; exact readValue_str s r
  | .arr [], _, n + 1, _, r, _ => by rfl
  | .arr (x :: xs), hf, n + 1, hn, r, _ => by
    simp only [need] at hn
    have hx := readValue_stringify x hf.1 n (by omega) (stringifyTail xs ++ r) (valueEnd_tail xs r)
    have hxs := readTail_stringify xs hf.2 n (by omega) r
    obtain ⟨c, t, hct, hsp, hne⟩ := head_stringify x
    rw [hct] at hx
    rw [stringify, hct, List.cons_append, List.append_assoc, List.cons_append, readValue.eq_def]
    rw [List.cons_append] at hx
    simp only [skipSpace_cons (show isJsonSpace (unit '[') = false by decide),
      if_neg (show ¬ unit '[' = unit '"' by decide), if_pos, skipSpace_cons hsp, if_neg hne, hx,
      Option.bind_eq_bind, Option.bind_some, hxs, finitize, finitizeList]
    rfl
  | .obj [], _, n + 1, _, r, _ => by rfl
  | .obj ((k, v) :: fs), hf, n + 1, hn, r, _ => by
    simp only [need] at hn
    obtain ⟨m, rfl⟩ : ∃ m, n = m + 1 := ⟨n - 1, by omega⟩
    have hv := readValue_stringify v hf.1 m (by omega) (stringifyFields fs ++ r)
      (valueEnd_fields fs r)
    have hfs := readFields_stringify fs hf.2 (m + 1) (by omega) r
    have hk := readField_quote (k := k) hv
    rw [quote_append] at hk
    rw [stringify, List.cons_append, List.append_assoc, List.cons_append, List.append_assoc,
      quote_append, readValue.eq_def]
    simp only [skipSpace_cons (show isJsonSpace (unit '{') = false by decide),
      if_neg (show ¬ unit '{' = unit '"' by decide), if_neg (show ¬ unit '{' = unit '[' by decide),
      if_pos, skipSpace_cons (show isJsonSpace (unit '"') = false by decide),
      if_neg (show ¬ unit '"' = unit '}' by decide), hk, Option.bind_eq_bind, Option.bind_some, hfs,
      finitize, finitizeFields]
    rfl

theorem readTail_stringify : ∀ (xs : List Json), FixesList conv xs → ∀ (n : ℕ), needTail xs ≤ n →
    ∀ r : JsString, readTail conv n (stringifyTail xs ++ r) = some (finitizeList xs, r)
  | xs, _, 0, hn, _ => by
    have : 1 ≤ needTail xs := by unfold needTail; split <;> omega
    omega
  | [], _, n + 1, _, r => by rfl
  | x :: xs, hf, n + 1, hn, r => by
    simp only [needTail] at hn
    have hx := readValue_stringify x hf.1 n (by omega) (stringifyTail xs ++ r) (valueEnd_tail xs r)
    have hxs := readTail_stringify xs hf.2 n (by omega) r
    rw [stringifyTail, List.cons_append, List.append_assoc, readTail.eq_def]
    simp only [skipSpace_cons (show isJsonSpace (unit ',') = false by decide),
      if_neg (show ¬ unit ',' = unit ']' by decide), if_pos, hx, Option.bind_eq_bind,
      Option.bind_some, hxs, finitizeList]
    rfl

theorem readFields_stringify : ∀ (fs : List (JsString × Json)), FixesFields conv fs → ∀ (n : ℕ),
    needFields fs ≤ n → ∀ r : JsString,
      readFields conv n (stringifyFields fs ++ r) = some (finitizeFields fs, r)
  | fs, _, 0, hn, _ => by
    have : 1 ≤ needFields fs := by unfold needFields; split <;> omega
    omega
  | [], _, n + 1, _, r => by rfl
  | (k, v) :: fs, hf, n + 1, hn, r => by
    simp only [needFields] at hn
    obtain ⟨m, rfl⟩ : ∃ m, n = m + 1 := ⟨n - 1, by omega⟩
    have hv := readValue_stringify v hf.1 m (by omega) (stringifyFields fs ++ r)
      (valueEnd_fields fs r)
    have hfs := readFields_stringify fs hf.2 (m + 1) (by omega) r
    rw [stringifyFields, List.cons_append, List.append_assoc, List.cons_append, List.append_assoc,
      readFields.eq_def]
    simp only [skipSpace_cons (show isJsonSpace (unit ',') = false by decide),
      if_neg (show ¬ unit ',' = unit '}' by decide), if_pos, readField_quote (k := k) hv,
      Option.bind_eq_bind, Option.bind_some, hfs, finitizeFields]
    rfl

end

end Read

/-- Number literals kept as they are. -/
def exactNumber (q : ℚ) : JsNumber := if h : IsDecimal q then .fin q h else .posInf

mutual

theorem fixes_exact : ∀ v : Json, Fixes exactNumber v
  | .null => trivial
  | .bool _ => trivial
  | .num (.fin q h) => by simp [Fixes, exactNumber, h]
  | .num .posInf => trivial
  | .num .negInf => trivial
  | .str _ => trivial
  | .arr xs => fixesList_exact xs
  | .obj fs => fixesFields_exact fs

theorem fixesList_exact : ∀ xs : List Json, FixesList exactNumber xs
  | [] => trivial
  | x :: xs => ⟨fixes_exact x, fixesList_exact xs⟩

theorem fixesFields_exact : ∀ fs : List (JsString × Json), FixesFields exactNumber fs
  | [] => trivial
  | (_, v) :: fs => ⟨fixes_exact v, fixesFields_exact fs⟩

end

/-- **Equal texts are texts of equal values**, an infinite number counting as `null`. -/
theorem stringify_injective {v w : Json} (h : stringify v = stringify w) :
    finitize v = finitize w := by
  have hend : ValueEnd [] := by intro c hc; simp at hc
  have hv := readValue_stringify v (fixes_exact v) (need v + need w) (by omega) [] hend
  have hw := readValue_stringify w (fixes_exact w) (need v + need w) (by omega) [] hend
  rw [h, hw] at hv
  simpa using hv.symm

/-! ### Texts and infinite numbers -/

mutual

theorem stringify_finitize : ∀ v : Json, stringify (finitize v) = stringify v
  | .null => rfl
  | .bool _ => rfl
  | .num (.fin _ _) => rfl
  | .num .posInf => rfl
  | .num .negInf => rfl
  | .str _ => rfl
  | .arr [] => rfl
  | .arr (x :: xs) => by
    rw [finitize, finitizeList, stringify, stringify, stringify_finitize x, stringifyTail_finitize xs]
  | .obj [] => rfl
  | .obj ((k, v) :: fs) => by
    rw [finitize, finitizeFields, stringify, stringify, stringify_finitize v,
      stringifyFields_finitize fs]

theorem stringifyTail_finitize : ∀ xs : List Json, stringifyTail (finitizeList xs) = stringifyTail xs
  | [] => rfl
  | x :: xs => by
    rw [finitizeList, stringifyTail, stringifyTail, stringify_finitize x, stringifyTail_finitize xs]

theorem stringifyFields_finitize : ∀ fs : List (JsString × Json),
    stringifyFields (finitizeFields fs) = stringifyFields fs
  | [] => rfl
  | (k, v) :: fs => by
    rw [finitizeFields, stringifyFields, stringifyFields, stringify_finitize v,
      stringifyFields_finitize fs]

end

end ConsensusNode.Js
