import ConsensusNode.Js.JsonText

/-! # Byte strings and UTF-8

`utf8` is `Buffer.from(s, 'utf8')`: a lone surrogate becomes U+FFFD, so it is injective only on
well-formed strings; the text of `stringify` is one (`wellFormed_stringify`). `decodeUtf8` is
`toString('utf8')`, which replaces every maximal part of an ill-formed sequence by U+FFFD. -/

namespace ConsensusNode.Js

/-- A byte string. -/
abbrev Bytes := List UInt8

/-! ### UTF-16 to scalar values -/

/-- A code unit that is not part of a pair. -/
def singleScalar (c : UInt16) : Char :=
  if isHigh c || isLow c then Char.ofNat 0xFFFD else Char.ofNat c.toNat

/-- The scalar value of a surrogate pair. -/
def pairScalar (c d : UInt16) : Char :=
  Char.ofNat (0x10000 + (c.toNat - 0xD800) * 0x400 + (d.toNat - 0xDC00))

/-- The scalar values of a string, U+FFFD for a lone surrogate. -/
def toScalars : JsString → List Char
  | [] => []
  | [c] => [singleScalar c]
  | c :: d :: s =>
    if isHigh c && isLow d then pairScalar c d :: toScalars s
    else singleScalar c :: toScalars (d :: s)

/-- No surrogate stands alone. -/
def WellFormed : JsString → Prop
  | [] => True
  | [c] => isHigh c = false ∧ isLow c = false
  | c :: d :: s =>
    if isHigh c && isLow d then WellFormed s
    else (isHigh c = false ∧ isLow c = false) ∧ WellFormed (d :: s)

/-- `Buffer.from(s, 'utf8')`. -/
def utf8 (s : JsString) : Bytes := (toScalars s).flatMap String.utf8EncodeChar

/-! ### Decoding -/

/-- The decoder between two bytes: how many continuation bytes are missing, the bits so far, and the
range of the next byte. -/
structure Utf8State where
  needed : ℕ
  bits : ℕ
  lower : ℕ
  upper : ℕ

/-- Between characters. -/
def Utf8State.idle : Utf8State := ⟨0, 0, 0x80, 0xBF⟩

def replacement : Char := Char.ofNat 0xFFFD

/-- The first byte of a character. -/
def utf8Start (b : ℕ) : List Char × Utf8State :=
  if b ≤ 0x7F then ([Char.ofNat b], .idle)
  else if 0xC2 ≤ b ∧ b ≤ 0xDF then ([], ⟨1, b % 32, 0x80, 0xBF⟩)
  else if 0xE0 ≤ b ∧ b ≤ 0xEF then
    ([], ⟨2, b % 16, if b = 0xE0 then 0xA0 else 0x80, if b = 0xED then 0x9F else 0xBF⟩)
  else if 0xF0 ≤ b ∧ b ≤ 0xF4 then
    ([], ⟨3, b % 8, if b = 0xF0 then 0x90 else 0x80, if b = 0xF4 then 0x8F else 0xBF⟩)
  else ([replacement], .idle)

/-- One byte. A byte that cannot continue a character ends it and is read as a first byte. -/
def utf8Step (st : Utf8State) (b : ℕ) : List Char × Utf8State :=
  if st.needed = 0 then utf8Start b
  else if st.lower ≤ b ∧ b ≤ st.upper then
    if st.needed = 1 then ([Char.ofNat (st.bits * 64 + b % 64)], .idle)
    else ([], ⟨st.needed - 1, st.bits * 64 + b % 64, 0x80, 0xBF⟩)
  else (replacement :: (utf8Start b).1, (utf8Start b).2)

def utf8Scalars : Utf8State → Bytes → List Char
  | st, [] => if st.needed = 0 then [] else [replacement]
  | st, b :: bs => (utf8Step st b.toNat).1 ++ utf8Scalars (utf8Step st b.toNat).2 bs

/-- `toString('utf8')`. -/
def decodeUtf8 (bs : Bytes) : JsString := (utf8Scalars .idle bs).flatMap charUnits

/-! ### UTF-8 is injective on well-formed strings -/

theorem isHigh_iff {c : UInt16} : isHigh c = true ↔ 0xD800 ≤ c.toNat ∧ c.toNat ≤ 0xDBFF := by
  unfold isHigh
  rw [Bool.and_eq_true, decide_eq_true_eq, decide_eq_true_eq, UInt16.le_iff_toNat_le,
    UInt16.le_iff_toNat_le]
  rfl

theorem isLow_iff {c : UInt16} : isLow c = true ↔ 0xDC00 ≤ c.toNat ∧ c.toNat ≤ 0xDFFF := by
  unfold isLow
  rw [Bool.and_eq_true, decide_eq_true_eq, decide_eq_true_eq, UInt16.le_iff_toNat_le,
    UInt16.le_iff_toNat_le]
  rfl

theorem toNat_ofNat {n : ℕ} (h : n.isValidChar) : (Char.ofNat n).toNat = n := by
  rw [Char.ofNat, dif_pos h]; rfl

theorem charUnits_singleScalar {c : UInt16} (h : isHigh c = false ∧ isLow c = false) :
    charUnits (singleScalar c) = [c] := by
  have hc : c.toNat < 65536 := c.toNat_lt
  have hh : ¬ (0xD800 ≤ c.toNat ∧ c.toNat ≤ 0xDBFF) := by
    rw [← isHigh_iff]; simp [h.1]
  have hl : ¬ (0xDC00 ≤ c.toNat ∧ c.toNat ≤ 0xDFFF) := by
    rw [← isLow_iff]; simp [h.2]
  have hv : c.toNat.isValidChar := by unfold Nat.isValidChar; omega
  unfold singleScalar charUnits
  simp only [h.1, h.2, Bool.or_self, Bool.false_eq_true, if_false, toNat_ofNat hv]
  rw [if_pos (by omega), UInt16.ofNat_toNat]

theorem charUnits_pairScalar {c d : UInt16} (hc : isHigh c = true) (hd : isLow d = true) :
    charUnits (pairScalar c d) = [c, d] := by
  rw [isHigh_iff] at hc
  rw [isLow_iff] at hd
  have hv : (0x10000 + (c.toNat - 0xD800) * 0x400 + (d.toNat - 0xDC00)).isValidChar := by
    unfold Nat.isValidChar; omega
  unfold pairScalar charUnits
  simp only [toNat_ofNat hv]
  rw [if_neg (by omega)]
  have h1 : 0xD800 + (0x10000 + (c.toNat - 0xD800) * 0x400 + (d.toNat - 0xDC00) - 0x10000) / 0x400 =
      c.toNat := by omega
  have h2 : 0xDC00 + (0x10000 + (c.toNat - 0xD800) * 0x400 + (d.toNat - 0xDC00) - 0x10000) % 0x400 =
      d.toNat := by omega
  rw [h1, h2, UInt16.ofNat_toNat, UInt16.ofNat_toNat]

theorem flatMap_toScalars : ∀ {s : JsString}, WellFormed s → (toScalars s).flatMap charUnits = s
  | [], _ => rfl
  | [c], h => by simp [toScalars, charUnits_singleScalar h]
  | c :: d :: s, h => by
    rw [WellFormed] at h
    rw [toScalars]
    split_ifs at h ⊢ with hp
    · rw [Bool.and_eq_true] at hp
      rw [List.flatMap_cons, charUnits_pairScalar hp.1 hp.2, flatMap_toScalars h]; rfl
    · rw [List.flatMap_cons, charUnits_singleScalar h.1, flatMap_toScalars h.2]; rfl

theorem flatMap_utf8_injective {a b : List Char}
    (h : a.flatMap String.utf8EncodeChar = b.flatMap String.utf8EncodeChar) : a = b := by
  refine String.ofList_injective ?_
  rw [← String.toByteArray_inj, String.toByteArray_ofList, String.toByteArray_ofList]
  unfold List.utf8Encode
  rw [h]

/-- **UTF-8 is injective on well-formed strings.** -/
theorem utf8_injective {s t : JsString} (hs : WellFormed s) (ht : WellFormed t)
    (h : utf8 s = utf8 t) : s = t := by
  rw [← flatMap_toScalars hs, flatMap_utf8_injective h, flatMap_toScalars ht]

theorem WellFormed.append : ∀ {s t : JsString}, WellFormed s → WellFormed t → WellFormed (s ++ t)
  | [], _, _, ht => ht
  | [c], [], hs, _ => hs
  | [c], d :: t, hs, ht => by
    show WellFormed (c :: d :: t)
    rw [WellFormed, if_neg (by simp [show isHigh c = false from hs.1])]
    exact ⟨hs, ht⟩
  | c :: d :: s, t, hs, ht => by
    show WellFormed (c :: d :: (s ++ t))
    rw [WellFormed] at hs ⊢
    split_ifs at hs ⊢ with hp
    · exact hs.append ht
    · exact ⟨hs.1, hs.2.append (s := d :: s) ht⟩

/-- A code unit below the surrogates. -/
def Plain (c : UInt16) : Prop := c.toNat < 0xD800

instance (c : UInt16) : Decidable (Plain c) := by unfold Plain; infer_instance

theorem Plain.wellFormed {c : UInt16} (h : Plain c) : WellFormed [c] := by
  unfold Plain at h
  refine ⟨Bool.eq_false_iff.mpr fun hc => ?_, Bool.eq_false_iff.mpr fun hc => ?_⟩
  · rw [isHigh_iff] at hc; omega
  · rw [isLow_iff] at hc; omega

theorem wellFormed_of_plain {s : JsString} (h : ∀ c ∈ s, Plain c) : WellFormed s := by
  induction s with
  | nil => trivial
  | cons c s ih =>
    exact (h c (by simp)).wellFormed.append (ih fun d hd => h d (by simp [hd]))

/-- A string literal of plain characters. -/
theorem wellFormed_cons {c : UInt16} {s : JsString} (hc : Plain c) (hs : WellFormed s) :
    WellFormed (c :: s) := hc.wellFormed.append hs

theorem plain_hexDigit {d : ℕ} (h : d < 16) : Plain (hexDigit d) := by
  have : ∀ d < 16, Plain (hexDigit d) := by decide
  exact this d h

theorem wellFormed_quoteUnit (c : UInt16) : WellFormed (quoteUnit c) := by
  unfold quoteUnit
  cases he : shortEscape c with
  | some e =>
    have hp : Plain e := by
      unfold shortEscape at he
      split_ifs at he <;> (obtain rfl := Option.some.inj he; decide)
    exact wellFormed_cons (by decide) hp.wellFormed
  | none =>
    simp only []
    split_ifs with h
    · have hc : c.toNat < 65536 := c.toNat_lt
      refine wellFormed_of_plain fun u hu => ?_
      simp only [escapeUnit, List.mem_cons, List.not_mem_nil, or_false] at hu
      rcases hu with rfl | rfl | rfl | rfl | rfl | rfl
      · decide
      · decide
      · exact plain_hexDigit (by omega)
      · exact plain_hexDigit (by omega)
      · exact plain_hexDigit (by omega)
      · exact plain_hexDigit (by omega)
    · simp only [Bool.or_eq_true, not_or, Bool.not_eq_true] at h
      exact ⟨h.1.2, h.2⟩

theorem wellFormed_quoteBody : ∀ s : JsString, WellFormed (quoteBody s)
  | [] => trivial
  | [c] => wellFormed_quoteUnit c
  | c :: d :: s => by
    rw [quoteBody]
    split_ifs with h
    · rw [WellFormed, if_pos h]; exact wellFormed_quoteBody s
    · exact (wellFormed_quoteUnit c).append (wellFormed_quoteBody (d :: s))

theorem wellFormed_quote (s : JsString) : WellFormed (quote s) :=
  wellFormed_cons (by decide) ((wellFormed_quoteBody s).append (Plain.wellFormed (by decide)))

theorem plain_of_isDigit {c : UInt16} (h : isDigit c = true) : Plain c := by
  simp only [isDigit, Bool.and_eq_true, decide_eq_true_eq, UInt16.le_iff_toNat_le] at h
  have h2 : c.toNat ≤ 57 := h.2
  unfold Plain; omega

theorem plain_decText (n : ℕ) : ∀ c ∈ decText n, Plain c :=
  fun _ hc => plain_of_isDigit (isDigit_of_mem_decText hc)

theorem plain_layout (s : ℕ) (e : ℤ) : ∀ c ∈ layout s e, Plain c := by
  have hd := plain_decText s
  have hz : ∀ (n : ℕ), ∀ c ∈ List.replicate n (48 : UInt16), Plain c := by
    intro n c hc; rw [List.eq_of_mem_replicate hc]; decide
  have he : ∀ z : ℤ, ∀ c ∈ expText z, Plain c := by
    intro z c hc
    simp only [expText, List.mem_cons] at hc
    rcases hc with rfl | rfl | hc
    · decide
    · split_ifs <;> decide
    · exact plain_decText _ c hc
  intro c hc
  unfold layout at hc
  simp only [] at hc
  split_ifs at hc with h1 h2 h3 h4
  · exact (List.mem_append.mp hc).elim (hd c) (hz _ c)
  · rcases List.mem_append.mp hc with hc | hc
    · exact hd c (List.mem_of_mem_take hc)
    · rcases List.mem_cons.mp hc with rfl | hc
      · decide
      · exact hd c (List.mem_of_mem_drop hc)
  · rcases List.mem_cons.mp hc with rfl | hc
    · decide
    · rcases List.mem_cons.mp hc with rfl | hc
      · decide
      · exact (List.mem_append.mp hc).elim (hz _ c) (hd c)
  · exact (List.mem_append.mp hc).elim (hd c) (he _ c)
  · rcases List.mem_append.mp hc with hc | hc
    · exact hd c (List.mem_of_mem_take hc)
    · rcases List.mem_cons.mp hc with rfl | hc
      · decide
      · exact (List.mem_append.mp hc).elim (fun h => hd c (List.mem_of_mem_drop h)) (he _ c)

theorem wellFormed_numText (q : ℚ) : WellFormed (numText q) := by
  unfold numText
  split_ifs
  · exact Plain.wellFormed (by decide)
  · exact wellFormed_cons (by decide) (wellFormed_of_plain (plain_layout _ _))
  · exact wellFormed_of_plain (plain_layout _ _)

mutual

/-- **The text of `stringify` is well formed.** -/
theorem wellFormed_stringify : ∀ v : Json, WellFormed (stringify v)
  | .null => wellFormed_of_plain (by decide)
  | .bool true => wellFormed_of_plain (by decide)
  | .bool false => wellFormed_of_plain (by decide)
  | .num (.fin q _) => by rw [stringify]; exact wellFormed_numText q
  | .num .posInf => wellFormed_of_plain (by decide)
  | .num .negInf => wellFormed_of_plain (by decide)
  | .str s => by rw [stringify]; exact wellFormed_quote s
  | .arr [] => wellFormed_of_plain (by decide)
  | .arr (x :: xs) => by
    rw [stringify]
    exact wellFormed_cons (by decide) ((wellFormed_stringify x).append (wellFormed_tail xs))
  | .obj [] => wellFormed_of_plain (by decide)
  | .obj ((k, v) :: fs) => by
    rw [stringify]
    exact wellFormed_cons (by decide) ((wellFormed_quote k).append (wellFormed_cons (by decide)
      ((wellFormed_stringify v).append (wellFormed_fields fs))))

theorem wellFormed_tail : ∀ xs : List Json, WellFormed (stringifyTail xs)
  | [] => wellFormed_of_plain (by decide)
  | x :: xs => by
    rw [stringifyTail]
    exact wellFormed_cons (by decide) ((wellFormed_stringify x).append (wellFormed_tail xs))

theorem wellFormed_fields : ∀ fs : List (JsString × Json), WellFormed (stringifyFields fs)
  | [] => wellFormed_of_plain (by decide)
  | (k, v) :: fs => by
    rw [stringifyFields]
    exact wellFormed_cons (by decide) ((wellFormed_quote k).append (wellFormed_cons (by decide)
      ((wellFormed_stringify v).append (wellFormed_fields fs))))

end

end ConsensusNode.Js
