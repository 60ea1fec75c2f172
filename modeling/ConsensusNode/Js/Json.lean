import ConsensusNode.Js.Number

/-! # JSON values and their text

`Json` is a value that `JSON.parse` can return. The fields of an object stand in the order in which the
language enumerates them: integer keys ascending, then the other keys as they were inserted
(`setField`). `stringify` is `JSON.stringify` without an indent; an infinite number is written `null`
(`finitize`), and a lone surrogate is escaped.

`readValue` reads one value; it takes the conversion of number literals as a parameter, and keeps the
fields of an object as the text has them. `parse` is `JSON.parse`: it rounds the literals to doubles
and builds every object field by field (`rebuild`), so that the last of several equal keys wins.

* `readValue_stringify`: what `stringify` writes is read back, with infinite numbers as `null`.
* `stringify_injective`: so equal texts are texts of equal values, up to infinite numbers. -/

namespace ConsensusNode.Js

/-- An exception: one the program throws, with its message, or one of the language itself. -/
inductive JsError where
  | thrown (message : JsString)
  | native
deriving DecidableEq

/-- A JSON value. -/
inductive Json where
  | null
  | bool (b : Bool)
  | num (x : JsNumber)
  | str (s : JsString)
  | arr (xs : List Json)
  | obj (fs : List (JsString × Json))
deriving Inhabited

/-! ### Equality is decidable -/

mutual

def Json.beq : Json → Json → Bool
  | .null, .null => true
  | .bool a, .bool b => a == b
  | .num a, .num b => decide (a = b)
  | .str a, .str b => a == b
  | .arr a, .arr b => beqList a b
  | .obj a, .obj b => beqFields a b
  | _, _ => false

def beqList : List Json → List Json → Bool
  | [], [] => true
  | a :: as, b :: bs => a.beq b && beqList as bs
  | _, _ => false

def beqFields : List (JsString × Json) → List (JsString × Json) → Bool
  | [], [] => true
  | (k, a) :: as, (l, b) :: bs => (k == l) && a.beq b && beqFields as bs
  | _, _ => false

end

mutual

theorem Json.beq_iff : ∀ a b : Json, a.beq b = true ↔ a = b
  | .null, b => by cases b <;> simp [Json.beq]
  | .bool _, b => by cases b <;> simp [Json.beq]
  | .num _, b => by cases b <;> simp [Json.beq]
  | .str _, b => by cases b <;> simp [Json.beq]
  | .arr xs, b => by
    cases b with
    | arr ys => simp [Json.beq, beqList_iff xs ys]
    | _ => simp [Json.beq]
  | .obj xs, b => by
    cases b with
    | obj ys => simp [Json.beq, beqFields_iff xs ys]
    | _ => simp [Json.beq]

theorem beqList_iff : ∀ a b : List Json, beqList a b = true ↔ a = b
  | [], b => by cases b <;> simp [beqList]
  | x :: xs, b => by
    cases b with
    | nil => simp [beqList]
    | cons y ys => simp [beqList, Json.beq_iff x y, beqList_iff xs ys]

theorem beqFields_iff : ∀ a b : List (JsString × Json), beqFields a b = true ↔ a = b
  | [], b => by cases b <;> simp [beqFields]
  | (k, x) :: xs, b => by
    cases b with
    | nil => simp [beqFields]
    | cons y ys =>
      obtain ⟨l, y⟩ := y
      simp [beqFields, Json.beq_iff x y, beqFields_iff xs ys]

end

instance : DecidableEq Json := fun a b => decidable_of_iff _ (Json.beq_iff a b)

/-! ### Properties of values -/

namespace Json

/-- The own field `k`, of an object only. -/
def field? (k : JsString) : Json → Option Json
  | .obj fs => fs.lookup k
  | _ => none

/-- `v[k]` for a name that no built-in object defines: `none` is `undefined`, and reading a property of
`null` throws. -/
def get (v : Json) (k : JsString) : Except JsError (Option Json) :=
  match v with
  | .null => .error .native
  | v => .ok (v.field? k)

/-- Not `undefined`, `null`, `false`, `0` or `""`. -/
def truthy : Option Json → Bool
  | none => false
  | some .null => false
  | some (.bool b) => b
  | some (.num x) => decide (x.val ≠ 0)
  | some (.str s) => !s.isEmpty
  | some (.arr _) => true
  | some (.obj _) => true

end Json

/-! ### Objects -/

/-- A key that is an array index, with its number. -/
def arrayIndex (k : JsString) : Option ℕ :=
  if k.all isDigit && decText (digitsVal k) == k && decide (digitsVal k < 2 ^ 32 - 1) then
    some (digitsVal k)
  else none

section Fields

variable {α : Type}

/-- A new key `k` stands before the key `l`. -/
def keyBefore (k l : JsString) : Bool :=
  match arrayIndex k, arrayIndex l with
  | some i, some j => decide (i < j)
  | some _, none => true
  | none, _ => false

/-- Insert a key that is not present. -/
def insertField (k : JsString) (v : α) : List (JsString × α) → List (JsString × α)
  | [] => [(k, v)]
  | (l, w) :: fs => if keyBefore k l then (k, v) :: (l, w) :: fs else (l, w) :: insertField k v fs

/-- Define the own field `k`. -/
def setField (fs : List (JsString × α)) (k : JsString) (v : α) : List (JsString × α) :=
  if k ∈ fs.map Prod.fst then fs.map fun e => if e.1 = k then (k, v) else e
  else insertField k v fs

/-- `Object.fromEntries`: every entry becomes an own field. -/
def fromEntries (es : List (JsString × α)) : List (JsString × α) :=
  es.foldl (fun fs e => setField fs e.1 e.2) []

/-- `fs[k] = v`: assigning to `__proto__` changes the prototype and defines no field. -/
def assignField (fs : List (JsString × α)) (k : JsString) (v : α) : List (JsString × α) :=
  if k = js "__proto__" then fs else setField fs k v

theorem lookup_insertField {k : JsString} {v : α} {k' : JsString} :
    ∀ fs : List (JsString × α), k ∉ fs.map Prod.fst →
      (insertField k v fs).lookup k' = if k' = k then some v else fs.lookup k'
  | [], _ => by
    by_cases h : k' = k
    · subst h; simp [insertField]
    · have hb : (k' == k) = false := by simpa using h
      simp [insertField, List.lookup_cons, h, hb]
  | (l, w) :: fs, hk => by
    simp only [List.map_cons, List.mem_cons, not_or] at hk
    unfold insertField
    split_ifs with hkl h h
    · subst h; simp
    · have hb : (k' == k) = false := by simpa using h
      rw [List.lookup_cons, hb]
    · subst h
      have hb : (k' == l) = false := by simpa using hk.1
      rw [List.lookup_cons, hb]
      simp only []
      rw [lookup_insertField fs hk.2, if_pos rfl]
    · rw [List.lookup_cons, List.lookup_cons, lookup_insertField fs hk.2, if_neg h]

theorem lookup_map_set {k : JsString} {v : α} {k' : JsString} :
    ∀ fs : List (JsString × α), k ∈ fs.map Prod.fst →
      (fs.map fun e => if e.1 = k then (k, v) else e).lookup k' =
        if k' = k then some v else fs.lookup k'
  | [], hk => by simp at hk
  | (l, w) :: fs, hk => by
    simp only [List.map_cons]
    by_cases hl : l = k
    · subst hl
      rw [if_pos rfl, List.lookup_cons, List.lookup_cons]
      by_cases h : k' = l
      · subst h; simp
      · have hb : (k' == l) = false := by simpa using h
        simp only [hb, if_neg h]
        by_cases hm : l ∈ fs.map Prod.fst
        · rw [lookup_map_set fs hm, if_neg h]
        · rw [List.map_congr_left (g := id), List.map_id]
          intro e he
          exact if_neg fun h' => hm (List.mem_map.mpr ⟨e, he, h'⟩)
    · simp only [List.map_cons, List.mem_cons] at hk
      have hm := hk.resolve_left fun h => hl h.symm
      rw [if_neg hl, List.lookup_cons, List.lookup_cons, lookup_map_set fs hm]
      by_cases h : k' = l
      · subst h; simp [hl]
      · have hb : (k' == l) = false := by simpa using h
        simp [hb]

theorem lookup_setField (fs : List (JsString × α)) (k k' : JsString) (v : α) :
    (setField fs k v).lookup k' = if k' = k then some v else fs.lookup k' := by
  unfold setField
  split_ifs with h1 h2 h2
  · rw [lookup_map_set fs h1, if_pos h2]
  · rw [lookup_map_set fs h1, if_neg h2]
  · rw [lookup_insertField fs h1, if_pos h2]
  · rw [lookup_insertField fs h1, if_neg h2]

theorem keys_insertField {k : JsString} {v : α} : ∀ fs : List (JsString × α),
    ((insertField k v fs).map Prod.fst).Perm (k :: fs.map Prod.fst)
  | [] => List.Perm.refl _
  | (l, w) :: fs => by
    unfold insertField
    split_ifs
    · exact List.Perm.refl _
    · exact ((keys_insertField fs).cons l).trans (List.Perm.swap _ _ _)

theorem nodup_setField {fs : List (JsString × α)} (h : (fs.map Prod.fst).Nodup) (k : JsString)
    (v : α) : ((setField fs k v).map Prod.fst).Nodup := by
  unfold setField
  split_ifs with hk
  · have : (fs.map fun e => if e.1 = k then (k, v) else e).map Prod.fst = fs.map Prod.fst := by
      rw [List.map_map]
      refine List.map_congr_left fun e _ => ?_
      by_cases he : e.1 = k
      · simp [he]
      · simp [he]
    rw [this]; exact h
  · exact (keys_insertField fs).nodup_iff.mpr (List.nodup_cons.mpr ⟨hk, h⟩)

/-! ### The order of the fields -/

/-- The place of a key: array indices by value, all other keys after them. -/
def rank (k : JsString) : WithTop ℕ :=
  match arrayIndex k with
  | some i => (i : WithTop ℕ)
  | none => ⊤

theorem keyBefore_iff (k l : JsString) : keyBefore k l = true ↔ rank k < rank l := by
  unfold keyBefore rank
  cases arrayIndex k with
  | none => simp
  | some i =>
    cases arrayIndex l with
    | none => simp
    | some j => simp

/-- The keys stand in the order in which the language enumerates them. -/
def Ordered (fs : List (JsString × α)) : Prop := fs.Pairwise fun a b => rank a.1 ≤ rank b.1

theorem ordered_insertField {k : JsString} {v : α} : ∀ {fs : List (JsString × α)}, Ordered fs →
    Ordered (insertField k v fs)
  | [], _ => List.pairwise_singleton _ _
  | (l, w) :: fs, h => by
    obtain ⟨hl, hfs⟩ := List.pairwise_cons.mp h
    unfold insertField
    split_ifs with hkl
    · have hlt := (keyBefore_iff k l).mp hkl
      refine List.pairwise_cons.mpr ⟨fun b hb => ?_, h⟩
      rcases List.mem_cons.mp hb with rfl | hb
      · exact hlt.le
      · exact hlt.le.trans (hl b hb)
    · have hle : rank l ≤ rank k := by
        rw [keyBefore_iff] at hkl; exact not_lt.mp hkl
      refine List.pairwise_cons.mpr ⟨fun b hb => ?_, ordered_insertField hfs⟩
      have hmem : b.1 ∈ k :: fs.map Prod.fst :=
        (keys_insertField fs).mem_iff.mp (List.mem_map_of_mem hb)
      rcases List.mem_cons.mp hmem with hb | hb
      · rw [hb]; exact hle
      · obtain ⟨b', hb', he⟩ := List.mem_map.mp hb
        rw [← he]; exact hl b' hb'

theorem ordered_setField {fs : List (JsString × α)} (h : Ordered fs) (k : JsString) (v : α) :
    Ordered (setField fs k v) := by
  unfold setField
  split_ifs with hk
  · unfold Ordered
    rw [List.pairwise_map]
    refine h.imp fun {a b} hab => ?_
    have hfst : ∀ e : JsString × α, (if e.1 = k then (k, v) else e).1 = e.1 := by
      intro e
      split_ifs with he
      · exact he.symm
      · rfl
    rw [hfst, hfst]
    exact hab
  · exact ordered_insertField h

theorem ordered_foldl_setField : ∀ (es : List (JsString × α)) {fs : List (JsString × α)}, Ordered fs →
    Ordered (es.foldl (fun fs e => setField fs e.1 e.2) fs)
  | [], _, h => h
  | e :: es, _, h => ordered_foldl_setField es (ordered_setField h e.1 e.2)

theorem mem_keys_setField {fs : List (JsString × α)} {k k' : JsString} {v : α}
    (h : k' ∈ (setField fs k v).map Prod.fst) : k' = k ∨ k' ∈ fs.map Prod.fst := by
  unfold setField at h
  split_ifs at h with hk
  · rw [List.map_map] at h
    obtain ⟨e, he, rfl⟩ := List.mem_map.mp h
    by_cases hek : e.1 = k
    · left; simp [hek]
    · right
      simp only [Function.comp_apply, if_neg hek]
      exact List.mem_map_of_mem he
  · exact List.mem_cons.mp ((keys_insertField fs).mem_iff.mp h)

theorem mem_keys_foldl_setField {k : JsString} : ∀ {es fs : List (JsString × α)},
    k ∈ (es.foldl (fun fs e => setField fs e.1 e.2) fs).map Prod.fst →
      k ∈ es.map Prod.fst ∨ k ∈ fs.map Prod.fst
  | [], _, h => .inr h
  | e :: es, fs, h => by
    have h' : k ∈ es.map Prod.fst ∨ k ∈ (setField fs e.1 e.2).map Prod.fst :=
      mem_keys_foldl_setField h
    rcases h' with h | h
    · left; simp [h]
    · rcases mem_keys_setField h with rfl | h
      · left; simp
      · exact .inr h

theorem nodup_foldl_setField : ∀ (es : List (JsString × α)) {fs : List (JsString × α)},
    (fs.map Prod.fst).Nodup → ((es.foldl (fun fs e => setField fs e.1 e.2) fs).map Prod.fst).Nodup
  | [], _, h => h
  | e :: es, _, h => nodup_foldl_setField es (nodup_setField h e.1 e.2)

theorem insertField_append {k : JsString} {v : α} : ∀ {fs : List (JsString × α)},
    (∀ e ∈ fs, rank e.1 ≤ rank k) → insertField k v fs = fs ++ [(k, v)]
  | [], _ => rfl
  | (l, w) :: fs, h => by
    have hkl : ¬ keyBefore k l = true := by
      rw [keyBefore_iff]; exact not_lt.mpr (h (l, w) (by simp))
    unfold insertField
    rw [if_neg hkl, insertField_append fun e he => h e (by simp [he])]
    rfl

/-- Fields that come in order are appended. -/
theorem foldl_setField_append : ∀ {es fs : List (JsString × α)}, Ordered (fs ++ es) →
    ((fs ++ es).map Prod.fst).Nodup → es.foldl (fun fs e => setField fs e.1 e.2) fs = fs ++ es
  | [], fs, _, _ => by simp
  | (k, v) :: es, fs, ho, hn => by
    have hk : k ∉ fs.map Prod.fst := by
      intro hk
      rw [List.map_append, List.nodup_append] at hn
      exact hn.2.2 k hk k (by simp) rfl
    have hle : ∀ e ∈ fs, rank e.1 ≤ rank k := by
      intro e he
      exact (List.pairwise_append.mp ho).2.2 e he (k, v) (by simp)
    have hset : setField fs k v = fs ++ [(k, v)] := by
      unfold setField
      rw [if_neg hk, insertField_append hle]
    have happ : fs ++ (k, v) :: es = (fs ++ [(k, v)]) ++ es := by simp
    rw [List.foldl_cons, hset, happ]
    rw [happ] at ho hn
    exact foldl_setField_append ho hn

/-- An object is rebuilt from its own entries. -/
theorem fromEntries_of_ordered {fs : List (JsString × α)} (ho : Ordered fs)
    (hn : (fs.map Prod.fst).Nodup) : fromEntries fs = fs := by
  have h := @foldl_setField_append _ fs [] ho hn
  exact h

theorem ordered_fromEntries (es : List (JsString × α)) : Ordered (fromEntries es) :=
  ordered_foldl_setField es List.Pairwise.nil

theorem mem_keys_fromEntries {es : List (JsString × α)} {k : JsString}
    (h : k ∈ (fromEntries es).map Prod.fst) : k ∈ es.map Prod.fst := by
  rcases mem_keys_foldl_setField h with h | h
  · exact h
  · cases h

theorem nodup_fromEntries (es : List (JsString × α)) : ((fromEntries es).map Prod.fst).Nodup :=
  nodup_foldl_setField es List.nodup_nil

end Fields

/-! ### `JSON.stringify` -/

/-- A lower-case hexadecimal digit. -/
def hexDigit (d : ℕ) : UInt16 := if d < 10 then UInt16.ofNat (48 + d) else UInt16.ofNat (87 + d)

/-- `\u` and the four hexadecimal digits of a code unit. -/
def escapeUnit (c : UInt16) : JsString :=
  [unit '\\', unit 'u', hexDigit (c.toNat / 4096), hexDigit (c.toNat / 256 % 16),
    hexDigit (c.toNat / 16 % 16), hexDigit (c.toNat % 16)]

/-- The letter of a two-character escape. -/
def shortEscape (c : UInt16) : Option UInt16 :=
  if c = unit '"' then some (unit '"')
  else if c = unit '\\' then some (unit '\\')
  else if c = 8 then some (unit 'b')
  else if c = 9 then some (unit 't')
  else if c = 10 then some (unit 'n')
  else if c = 12 then some (unit 'f')
  else if c = 13 then some (unit 'r')
  else none

/-- One code unit that is not part of a surrogate pair. -/
def quoteUnit (c : UInt16) : JsString :=
  match shortEscape c with
  | some e => [unit '\\', e]
  | none => if c < 32 || isHigh c || isLow c then escapeUnit c else [c]

/-- The text of a string between its quotation marks. -/
def quoteBody : JsString → JsString
  | [] => []
  | [c] => quoteUnit c
  | c :: d :: s =>
    if isHigh c && isLow d then c :: d :: quoteBody s else quoteUnit c ++ quoteBody (d :: s)

def quote (s : JsString) : JsString := unit '"' :: (quoteBody s ++ [unit '"'])

mutual

/-- `JSON.stringify`. -/
def stringify : Json → JsString
  | .null => js "null"
  | .bool true => js "true"
  | .bool false => js "false"
  | .num (.fin q _) => numText q
  | .num _ => js "null"
  | .str s => quote s
  | .arr [] => [unit '[', unit ']']
  | .arr (x :: xs) => unit '[' :: (stringify x ++ stringifyTail xs)
  | .obj [] => [unit '{', unit '}']
  | .obj ((k, v) :: fs) =>
    unit '{' :: (quote k ++ unit ':' :: (stringify v ++ stringifyFields fs))

/-- The elements after the first, and the closing bracket. -/
def stringifyTail : List Json → JsString
  | [] => [unit ']']
  | x :: xs => unit ',' :: (stringify x ++ stringifyTail xs)

/-- The fields after the first, and the closing brace. -/
def stringifyFields : List (JsString × Json) → JsString
  | [] => [unit '}']
  | (k, v) :: fs => unit ',' :: (quote k ++ unit ':' :: (stringify v ++ stringifyFields fs))

end

mutual

/-- The value with `null` for the infinite numbers. -/
def finitize : Json → Json
  | .num (.fin q h) => .num (.fin q h)
  | .num _ => .null
  | .arr xs => .arr (finitizeList xs)
  | .obj fs => .obj (finitizeFields fs)
  | v => v

def finitizeList : List Json → List Json
  | [] => []
  | x :: xs => finitize x :: finitizeList xs

def finitizeFields : List (JsString × Json) → List (JsString × Json)
  | [] => []
  | (k, v) :: fs => (k, finitize v) :: finitizeFields fs

end

theorem lookup_finitizeFields (k : JsString) : ∀ fs : List (JsString × Json),
    (finitizeFields fs).lookup k = (fs.lookup k).map finitize
  | [] => rfl
  | (l, v) :: fs => by
    rw [finitizeFields, List.lookup_cons, List.lookup_cons, lookup_finitizeFields k fs]
    cases (k == l) <;> rfl

theorem finitize_eq_str {v : Json} {s : JsString} (h : finitize v = .str s) : v = .str s := by
  cases v with
  | num x => cases x <;> simp [finitize] at h
  | _ => simp_all [finitize]

end ConsensusNode.Js
