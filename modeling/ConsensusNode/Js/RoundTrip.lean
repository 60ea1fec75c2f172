import ConsensusNode.Js.Canonical

/-! # Texts that are read back

* `decodeUtf8_utf8`: a well-formed string is what its bytes decode to.
* `isDouble_ofRat`: rounding a number that has been rounded changes nothing, so what a number literal or
  a sum gives is printed and read back as it is.
* `parse_stringify`: `JSON.parse` reads what `JSON.stringify` writes, an infinite number as `null`.
* `Readable`: the values this holds for; what was parsed is one, and so are its fields. `Exact`: they are read
  back the same. -/

namespace ConsensusNode.Js

/-! ### UTF-8 -/

theorem toNat_toUInt8 {n : ℕ} (h : n < 256) : n.toUInt8.toNat = n := by
  simp [Nat.toUInt8, Nat.mod_eq_of_lt h]

theorem utf8Scalars_cons (st : Utf8State) {n : ℕ} (h : n < 256) (bs : Bytes) :
    utf8Scalars st (n.toUInt8 :: bs) = (utf8Step st n).1 ++ utf8Scalars (utf8Step st n).2 bs := by
  rw [utf8Scalars, toNat_toUInt8 h]

/-- A continuation byte that is not the last. -/
theorem utf8Step_more {n bits lo hi b : ℕ} (h : lo ≤ b ∧ b ≤ hi) :
    utf8Step ⟨n + 2, bits, lo, hi⟩ b = ([], ⟨n + 1, bits * 64 + b % 64, 0x80, 0xBF⟩) := by
  unfold utf8Step
  rw [if_neg (by simp), if_pos h, if_neg (by simp)]
  rfl

/-- The last byte of a character. -/
theorem utf8Step_last {bits lo hi b : ℕ} (h : lo ≤ b ∧ b ≤ hi) :
    utf8Step ⟨1, bits, lo, hi⟩ b = ([Char.ofNat (bits * 64 + b % 64)], .idle) := by
  unfold utf8Step
  rw [if_neg (by simp), if_pos h, if_pos rfl]

theorem utf8Step_idle (b : ℕ) : utf8Step .idle b = utf8Start b := if_pos rfl

/-- The bytes of a character are read as that character. -/
theorem utf8Scalars_encode (c : Char) (bs : Bytes) :
    utf8Scalars .idle (String.utf8EncodeChar c ++ bs) = c :: utf8Scalars .idle bs := by
  have hv : c.toNat.isValidChar := c.valid
  have hc : Char.ofNat c.toNat = c := Char.ofNat_toNat c
  unfold Nat.isValidChar at hv
  unfold String.utf8EncodeChar
  simp only [show c.val.toNat = c.toNat from rfl]
  generalize hn : c.toNat = n at hv hc
  split_ifs with h1 h2 h3
  · rw [List.singleton_append, utf8Scalars_cons _ (by omega), utf8Step_idle, utf8Start, if_pos h1, hc]
    rfl
  · have hs : utf8Start (n / 64 % 0x20 + 0xc0) = ([], ⟨1, n / 64, 0x80, 0xBF⟩) := by
      unfold utf8Start
      rw [if_neg (by omega), if_pos (by omega), show (n / 64 % 0x20 + 0xc0) % 32 = n / 64 by omega]
    have hbits : n / 64 * 64 + (n % 0x40 + 0x80) % 64 = n := by omega
    rw [List.cons_append, List.singleton_append, utf8Scalars_cons _ (by omega), utf8Step_idle, hs,
      utf8Scalars_cons _ (by omega), utf8Step_last (by omega), hbits, hc]
    rfl
  · have hs : utf8Start (n / 4096 % 0x10 + 0xe0) = ([], ⟨2, n / 4096,
        if n / 4096 % 0x10 + 0xe0 = 0xE0 then 0xA0 else 0x80,
        if n / 4096 % 0x10 + 0xe0 = 0xED then 0x9F else 0xBF⟩) := by
      unfold utf8Start
      rw [if_neg (by omega), if_neg (by omega), if_pos (by omega),
        show (n / 4096 % 0x10 + 0xe0) % 16 = n / 4096 by omega]
    have hrange : (if n / 4096 % 0x10 + 0xe0 = 0xE0 then 0xA0 else 0x80) ≤ n / 64 % 0x40 + 0x80 ∧
        n / 64 % 0x40 + 0x80 ≤ (if n / 4096 % 0x10 + 0xe0 = 0xED then 0x9F else 0xBF) := by
      split_ifs <;> omega
    have hbits : (n / 4096 * 64 + (n / 64 % 0x40 + 0x80) % 64) * 64 + (n % 0x40 + 0x80) % 64 = n := by
      omega
    simp only [List.cons_append, List.nil_append]
    rw [utf8Scalars_cons _ (by omega), utf8Step_idle, hs, utf8Scalars_cons _ (by omega),
      utf8Step_more hrange, utf8Scalars_cons _ (by omega), utf8Step_last (by omega), hbits, hc]
    rfl
  · have hs : utf8Start (n / 262144 % 0x08 + 0xf0) = ([], ⟨3, n / 262144,
        if n / 262144 % 0x08 + 0xf0 = 0xF0 then 0x90 else 0x80,
        if n / 262144 % 0x08 + 0xf0 = 0xF4 then 0x8F else 0xBF⟩) := by
      unfold utf8Start
      rw [if_neg (by omega), if_neg (by omega), if_neg (by omega), if_pos (by omega),
        show (n / 262144 % 0x08 + 0xf0) % 8 = n / 262144 by omega]
    have hrange : (if n / 262144 % 0x08 + 0xf0 = 0xF0 then 0x90 else 0x80) ≤ n / 4096 % 0x40 + 0x80 ∧
        n / 4096 % 0x40 + 0x80 ≤ (if n / 262144 % 0x08 + 0xf0 = 0xF4 then 0x8F else 0xBF) := by
      split_ifs <;> omega
    have hbits : ((n / 262144 * 64 + (n / 4096 % 0x40 + 0x80) % 64) * 64 +
        (n / 64 % 0x40 + 0x80) % 64) * 64 + (n % 0x40 + 0x80) % 64 = n := by
      omega
    simp only [List.cons_append, List.nil_append]
    rw [utf8Scalars_cons _ (by omega), utf8Step_idle, hs, utf8Scalars_cons _ (by omega),
      utf8Step_more hrange, utf8Scalars_cons _ (by omega), utf8Step_more (by omega),
      utf8Scalars_cons _ (by omega), utf8Step_last (by omega), hbits, hc]
    rfl

theorem utf8Scalars_flatMap (cs : List Char) :
    utf8Scalars .idle (cs.flatMap String.utf8EncodeChar) = cs := by
  induction cs with
  | nil => rfl
  | cons c cs ih => rw [List.flatMap_cons, utf8Scalars_encode, ih]

/-- **The bytes of a well-formed string decode to it.** -/
theorem decodeUtf8_utf8 {s : JsString} (h : WellFormed s) : decodeUtf8 (utf8 s) = s := by
  unfold decodeUtf8 utf8
  rw [utf8Scalars_flatMap, flatMap_toScalars h]

theorem wellFormed_charUnits (c : Char) : WellFormed (charUnits c) := by
  have hv : c.toNat.isValidChar := c.valid
  unfold Nat.isValidChar at hv
  unfold charUnits
  simp only
  generalize c.toNat = n at hv
  split_ifs with hn
  · have hto : (UInt16.ofNat n).toNat = n := by simp; omega
    have hh : ¬ isHigh (UInt16.ofNat n) = true := by rw [isHigh_iff, hto]; omega
    have hl : ¬ isLow (UInt16.ofNat n) = true := by rw [isLow_iff, hto]; omega
    simpa [WellFormed] using And.intro hh hl
  · have hhi : (UInt16.ofNat (0xD800 + (n - 0x10000) / 0x400)).toNat = 0xD800 + (n - 0x10000) / 0x400 := by
      simp; omega
    have hlo : (UInt16.ofNat (0xDC00 + (n - 0x10000) % 0x400)).toNat = 0xDC00 + (n - 0x10000) % 0x400 := by
      simp; omega
    have hh : isHigh (UInt16.ofNat (0xD800 + (n - 0x10000) / 0x400)) = true := by
      rw [isHigh_iff, hhi]; omega
    have hl : isLow (UInt16.ofNat (0xDC00 + (n - 0x10000) % 0x400)) = true := by
      rw [isLow_iff, hlo]; omega
    rw [WellFormed, hh, hl]
    trivial

/-- What the decoder returns is well formed. -/
theorem wellFormed_decodeUtf8 (bs : Bytes) : WellFormed (decodeUtf8 bs) := by
  unfold decodeUtf8
  generalize utf8Scalars .idle bs = cs
  induction cs with
  | nil => trivial
  | cons c cs ih =>
    rw [List.flatMap_cons]
    exact (wellFormed_charUnits c).append ih

/-! ### Doubles -/

theorem roundHalfEven_intCast (z : ℤ) : roundHalfEven (z : ℚ) = z := by
  unfold roundHalfEven
  simp

theorem roundHalfEven_cases (q : ℚ) : roundHalfEven q = ⌊q⌋ ∨ roundHalfEven q = ⌊q⌋ + 1 := by
  unfold roundHalfEven
  simp only
  split_ifs <;> simp

/-- The exponent of the last bit of a double around `q`. -/
def ulpExp (q : ℚ) : ℤ := max (Int.log 2 |q| - 52) (-1074)

theorem roundDouble_eq_some {q v : ℚ} (hq : q ≠ 0) (h : roundDouble q = some v) :
    v = roundHalfEven (q / 2 ^ ulpExp q) * 2 ^ ulpExp q ∧ ¬ 2 ^ 1024 ≤ |v| := by
  unfold roundDouble at h
  rw [if_neg hq] at h
  simp only at h
  split_ifs at h with hbig
  cases h
  exact ⟨rfl, hbig⟩

theorem roundDouble_of_int {q : ℚ} {z : ℤ} (hq : q = z * 2 ^ ulpExp q) (hbig : ¬ 2 ^ 1024 ≤ |q|) :
    roundDouble q = some q := by
  by_cases h0 : q = 0
  · simp [roundDouble, h0]
  have hpos : (2 : ℚ) ^ ulpExp q ≠ 0 := zpow_ne_zero _ two_ne_zero
  have hz : q / 2 ^ ulpExp q = z := (eq_div_iff hpos).mpr hq.symm |>.symm
  unfold roundDouble
  rw [if_neg h0]
  simp only
  rw [show max (Int.log 2 |q| - 52) (-1074) = ulpExp q from rfl, hz, roundHalfEven_intCast, ← hq,
    if_neg hbig]

/-- At most 53 bits are left of the point. -/
theorem div_ulp_lt {q : ℚ} (hq : 0 < q) : q / 2 ^ ulpExp q < 2 ^ 53 := by
  have hlog : q < (2 : ℚ) ^ (Int.log 2 q + 1) := by
    exact_mod_cast Int.lt_zpow_succ_log_self (b := 2) (by norm_num) q
  have hle : Int.log 2 q + 1 ≤ 53 + ulpExp q := by
    have := le_max_left (Int.log 2 |q| - 52) (-1074)
    rw [abs_of_pos hq] at this
    unfold ulpExp
    rw [abs_of_pos hq]
    omega
  rw [div_lt_iff₀ (zpow_pos two_pos _)]
  calc q < (2 : ℚ) ^ (Int.log 2 q + 1) := hlog
    _ ≤ 2 ^ (53 + ulpExp q) := zpow_le_zpow_right₀ one_le_two hle
    _ = 2 ^ 53 * 2 ^ ulpExp q := by rw [zpow_add₀ two_ne_zero]; norm_num

theorem roundHalfEven_nonneg {q : ℚ} (h : 0 ≤ q) : 0 ≤ roundHalfEven q := by
  have hf : 0 ≤ ⌊q⌋ := Int.floor_nonneg.mpr h
  rcases roundHalfEven_cases q with hr | hr <;> omega

theorem roundHalfEven_le {q : ℚ} {n : ℤ} (h : q < n) : roundHalfEven q ≤ n := by
  have hf : ⌊q⌋ < n := Int.floor_lt.mpr h
  rcases roundHalfEven_cases q with hr | hr <;> omega

/-- **Rounding twice is rounding once.** -/
theorem roundDouble_idem {q v : ℚ} (hq : 0 ≤ q) (h : roundDouble q = some v) :
    roundDouble v = some v ∧ 0 ≤ v := by
  rcases hq.eq_or_lt with rfl | hq
  · simp only [roundDouble, if_true, Option.some.injEq] at h
    subst h
    simp [roundDouble]
  obtain ⟨hv, hbig⟩ := roundDouble_eq_some hq.ne' h
  set e := ulpExp q with he
  set n := roundHalfEven (q / 2 ^ e) with hn
  have hpow : (0 : ℚ) < 2 ^ e := zpow_pos two_pos _
  have hn0 : 0 ≤ n := roundHalfEven_nonneg (div_nonneg hq.le hpow.le)
  have hn53 : n ≤ 2 ^ 53 := roundHalfEven_le (by exact_mod_cast div_ulp_lt hq)
  have hv0 : 0 ≤ v := by
    rw [hv]
    exact mul_nonneg (by exact_mod_cast hn0) hpow.le
  refine ⟨?_, hv0⟩
  rcases hv0.eq_or_lt with hzero | hvpos
  · simp [roundDouble, ← hzero]
  have hmin : -1074 ≤ e := le_max_right _ _
  rcases hn53.lt_or_eq with hlt | heq
  · -- the exponent of `v` is not larger, so `v` is an integer multiple of its last bit
    have hlog : Int.log 2 v < 53 + e := by
      refine (Int.lt_zpow_iff_log_lt (b := 2) (by norm_num) hvpos).mp ?_
      have hn' : (n : ℚ) < 2 ^ 53 := by exact_mod_cast hlt
      calc v = n * 2 ^ e := hv
        _ < 2 ^ 53 * 2 ^ e := mul_lt_mul_of_pos_right hn' hpow
        _ = ((2 : ℕ) : ℚ) ^ (53 + e) := by
          rw [Nat.cast_ofNat, zpow_add₀ two_ne_zero]; norm_num
    have hle : ulpExp v ≤ e := by
      unfold ulpExp
      rw [abs_of_pos hvpos]
      exact max_le (by omega) hmin
    obtain ⟨k, hk⟩ := Int.eq_ofNat_of_zero_le (sub_nonneg.mpr hle)
    refine roundDouble_of_int (z := n * 2 ^ k) ?_ hbig
    have hsplit : e = (k : ℤ) + ulpExp v := by omega
    calc v = n * 2 ^ e := hv
      _ = n * 2 ^ ((k : ℤ) + ulpExp v) := by rw [← hsplit]
      _ = ((n * 2 ^ k : ℤ) : ℚ) * 2 ^ ulpExp v := by
        rw [zpow_add₀ two_ne_zero, zpow_natCast]; push_cast; ring
  · -- rounded up to the next power of two
    have hv' : v = (2 : ℚ) ^ (53 + e) := by
      rw [hv, heq, zpow_add₀ two_ne_zero]; norm_num
    have hlog : Int.log 2 v = 53 + e := by
      rw [hv']
      exact_mod_cast Int.log_zpow (R := ℚ) (b := 2) (by norm_num) (53 + e)
    have hexp : ulpExp v = e + 1 := by
      unfold ulpExp
      rw [abs_of_pos hvpos, hlog]
      omega
    refine roundDouble_of_int (z := 2 ^ 52) ?_ hbig
    rw [hexp]
    conv_lhs => rw [hv', show (53 : ℤ) + e = 52 + (e + 1) by ring, zpow_add₀ two_ne_zero]
    norm_num

theorem shortestDecimal_spec {v : ℚ} (hv : 0 ≤ v) (h : roundDouble v = some v) :
    roundDouble (shortestDecimal v) = some v ∧ 0 ≤ shortestDecimal v := by
  unfold shortestDecimal
  rcases hc : ((List.range 18).flatMap (candidates v)).head? with _ | c
  · exact ⟨h, hv⟩
  obtain ⟨k, -, hmem⟩ := List.mem_flatMap.mp (List.mem_of_mem_head? hc)
  unfold candidates at hmem
  simp only [List.mem_filter, decide_eq_true_eq] at hmem
  obtain ⟨hmem, hround⟩ := hmem
  refine ⟨hround, ?_⟩
  set e : ℤ := Int.log 10 v + 1 - k with he
  have hpow : (0 : ℚ) < 10 ^ e := zpow_pos (by norm_num) _
  have hfloor : (0 : ℚ) ≤ ⌊v / 10 ^ e⌋ := by
    exact_mod_cast Int.floor_nonneg.mpr (div_nonneg hv hpow.le)
  have hlo : (0 : ℚ) ≤ ⌊v / 10 ^ e⌋ * 10 ^ e := mul_nonneg hfloor hpow.le
  have hhi : (0 : ℚ) ≤ (⌊v / 10 ^ e⌋ + 1) * 10 ^ e := by positivity
  simp only [Option.getD_some]
  split_ifs at hmem with hle
  · rcases List.mem_pair.mp hmem with rfl | rfl
    · exact hlo
    · exact hhi
  · rcases List.mem_pair.mp hmem with rfl | rfl
    · exact hhi
    · exact hlo

/-- A number that is a double: reading its text gives it back. -/
def IsDouble (x : JsNumber) : Prop := ∀ q h, x = .fin q h → ofRat q = .fin q h

theorem ofRat_of_int {q : ℚ} (h : q.den = 1 ∧ |q| ≤ 2 ^ 53) (hd : IsDecimal q) :
    ofRat q = .fin q hd := by
  unfold ofRat
  rw [if_pos h]
  unfold JsNumber.ofInt
  congr 1
  exact Rat.coe_int_num_of_den_eq_one h.1

theorem isDouble_fin {q : ℚ} {h : IsDecimal q} : IsDouble (.fin q h) ↔ ofRat q = .fin q h := by
  refine ⟨fun hd => hd q h rfl, fun hq q' h' e => ?_⟩
  cases e
  exact hq

theorem isDouble_ofInt {z : ℤ} (h : |z| ≤ 2 ^ 53) : IsDouble (JsNumber.ofInt z) := by
  refine isDouble_fin.mpr ?_
  refine ofRat_of_int ⟨Rat.den_intCast z, ?_⟩ _
  rw [← Int.cast_abs]
  exact_mod_cast h

/-- The shortest decimal of a double, with a sign, is read as itself. -/
theorem ofRat_shortest {v d : ℚ} (hs : roundDouble (shortestDecimal v) = some v)
    (h0 : 0 ≤ shortestDecimal v) (hd : d = shortestDecimal v ∨ d = -shortestDecimal v)
    (hdec : IsDecimal d) : ofRat d = .fin d hdec := by
  by_cases hint : d.den = 1 ∧ |d| ≤ 2 ^ 53
  · exact ofRat_of_int hint hdec
  have hpos : 0 < shortestDecimal v := by
    refine lt_of_le_of_ne h0 fun hz => hint ?_
    have hd0 : d = 0 := by rcases hd with hd | hd <;> simp [hd, ← hz]
    simp [hd0]
  have habs : |d| = shortestDecimal v := by
    rcases hd with rfl | rfl
    · exact abs_of_nonneg h0
    · rw [abs_neg, abs_of_nonneg h0]
  have hsign : (if 0 < d then shortestDecimal v else -shortestDecimal v) = d := by
    rcases hd with rfl | rfl
    · exact if_pos hpos
    · exact if_neg (by simpa using h0)
  unfold ofRat
  rw [if_neg hint, habs, hs]
  simp only [hsign]
  exact dif_pos hdec

theorem isDouble_signed {v d : ℚ} (hs : roundDouble (shortestDecimal v) = some v)
    (h0 : 0 ≤ shortestDecimal v) (hd : d = shortestDecimal v ∨ d = -shortestDecimal v) :
    IsDouble (if h : IsDecimal d then .fin d h else JsNumber.ofInt 0) := by
  by_cases hdec : IsDecimal d
  · rw [dif_pos hdec]
    exact isDouble_fin.mpr (ofRat_shortest hs h0 hd hdec)
  · rw [dif_neg hdec]
    exact isDouble_ofInt (by norm_num)

/-- **Rounding to a double gives a double.** -/
theorem isDouble_ofRat (q : ℚ) : IsDouble (ofRat q) := by
  unfold ofRat
  by_cases hint : q.den = 1 ∧ |q| ≤ 2 ^ 53
  · rw [if_pos hint]
    refine isDouble_ofInt ?_
    have hq : |((q.num : ℤ) : ℚ)| ≤ 2 ^ 53 := by
      rw [Rat.coe_int_num_of_den_eq_one hint.1]
      exact hint.2
    rw [← Int.cast_abs] at hq
    exact_mod_cast hq
  rw [if_neg hint]
  rcases hr : roundDouble |q| with _ | v
  · by_cases hq : 0 < q
    · simp [hq, IsDouble]
    · simp [hq, IsDouble]
  have hv := roundDouble_idem (abs_nonneg q) hr
  have hs := shortestDecimal_spec hv.2 hv.1
  refine isDouble_signed hs.1 hs.2 ?_
  split_ifs
  · exact .inl rfl
  · exact .inr rfl

theorem isDouble_add {x y z : JsNumber} (h : x.add y = some z) : IsDouble z := by
  rcases x with ⟨p, hp⟩ | _ | _ <;> rcases y with ⟨q, hq⟩ | _ | _ <;> simp only [JsNumber.add] at h <;>
    cases h <;> first | exact isDouble_ofRat _ | (intro q h e; cases e)

/-! ### JSON -/

theorem length_quote (s : JsString) : 2 ≤ (quote s).length := by
  simp [quote]

theorem length_numText (q : ℚ) : 1 ≤ (numText q).length := by
  obtain ⟨c, t, h, -⟩ := head_numText q
  simp [h]

mutual

theorem need_le : ∀ v : Json, need v ≤ (stringify v).length
  | .null => by decide
  | .bool true => by decide
  | .bool false => by decide
  | .num (.fin q _) => length_numText q
  | .num .posInf => by decide
  | .num .negInf => by decide
  | .str s => by
    have := length_quote s
    simp only [need, stringify]
    omega
  | .arr [] => by simp [need, stringify]
  | .arr (x :: xs) => by
    have hx := need_le x
    have hxs := needTail_le xs
    simp only [need, stringify, List.length_cons, List.length_append]
    omega
  | .obj [] => by simp [need, stringify]
  | .obj ((k, v) :: fs) => by
    have hk := length_quote k
    have hv := need_le v
    have hfs := needFields_le fs
    simp only [need, stringify, List.length_cons, List.length_append]
    omega

theorem needTail_le : ∀ xs : List Json, needTail xs ≤ (stringifyTail xs).length
  | [] => by simp [needTail, stringifyTail]
  | x :: xs => by
    have hx := need_le x
    have hxs := needTail_le xs
    simp only [needTail, stringifyTail, List.length_cons, List.length_append]
    omega

theorem needFields_le : ∀ fs : List (JsString × Json), needFields fs ≤ (stringifyFields fs).length
  | [] => by simp [needFields, stringifyFields]
  | (k, v) :: fs => by
    have hk := length_quote k
    have hv := need_le v
    have hfs := needFields_le fs
    simp only [needFields, stringifyFields, List.length_cons, List.length_append]
    omega

end

mutual

/-- An object of the language at every depth: no key twice, and the keys in the order the language keeps
them in. -/
def Built : Json → Prop
  | .arr xs => BuiltList xs
  | .obj fs => (fs.map Prod.fst).Nodup ∧ Ordered fs ∧ BuiltFields fs
  | _ => True

def BuiltList : List Json → Prop
  | [] => True
  | x :: xs => Built x ∧ BuiltList xs

def BuiltFields : List (JsString × Json) → Prop
  | [] => True
  | (_, v) :: fs => Built v ∧ BuiltFields fs

end

mutual

theorem rebuild_of_built : ∀ v : Json, Built v → rebuild v = v
  | .null, _ => rfl
  | .bool _, _ => rfl
  | .num _, _ => rfl
  | .str _, _ => rfl
  | .arr xs, h => by rw [rebuild, rebuildList_of_built xs h]
  | .obj fs, h => by rw [rebuild, rebuildFields_of_built fs h.2.2, fromEntries_of_ordered h.2.1 h.1]

theorem rebuildList_of_built : ∀ xs : List Json, BuiltList xs → rebuildList xs = xs
  | [], _ => rfl
  | x :: xs, h => by rw [rebuildList, rebuild_of_built x h.1, rebuildList_of_built xs h.2]

theorem rebuildFields_of_built : ∀ fs : List (JsString × Json), BuiltFields fs → rebuildFields fs = fs
  | [], _ => rfl
  | (k, v) :: fs, h => by rw [rebuildFields, rebuild_of_built v h.1, rebuildFields_of_built fs h.2]

end

theorem map_fst_finitizeFields : ∀ fs : List (JsString × Json),
    (finitizeFields fs).map Prod.fst = fs.map Prod.fst
  | [] => rfl
  | (k, v) :: fs => by rw [finitizeFields, List.map_cons, List.map_cons, map_fst_finitizeFields fs]

theorem ordered_iff_keys {α : Type} {fs : List (JsString × α)} :
    Ordered fs ↔ (fs.map Prod.fst).Pairwise fun k l => rank k ≤ rank l := by
  unfold Ordered
  rw [List.pairwise_map]

mutual

theorem built_finitize : ∀ v : Json, Built v → Built (finitize v)
  | .null, _ => trivial
  | .bool _, _ => trivial
  | .num (.fin _ _), _ => trivial
  | .num .posInf, _ => trivial
  | .num .negInf, _ => trivial
  | .str _, _ => trivial
  | .arr xs, h => builtList_finitize xs h
  | .obj fs, h => by
    refine ⟨?_, ?_, builtFields_finitize fs h.2.2⟩
    · rw [map_fst_finitizeFields]
      exact h.1
    · rw [ordered_iff_keys, map_fst_finitizeFields]
      exact ordered_iff_keys.mp h.2.1

theorem builtList_finitize : ∀ xs : List Json, BuiltList xs → BuiltList (finitizeList xs)
  | [], _ => trivial
  | x :: xs, h => ⟨built_finitize x h.1, builtList_finitize xs h.2⟩

theorem builtFields_finitize : ∀ fs : List (JsString × Json), BuiltFields fs →
    BuiltFields (finitizeFields fs)
  | [], _ => trivial
  | (_, v) :: fs, h => ⟨built_finitize v h.1, builtFields_finitize fs h.2⟩

end

/-- **`JSON.parse` reads what `JSON.stringify` writes.** -/
theorem parse_stringify {v : Json} (hv : Built v) (hn : Fixes ofRat v) :
    parse (stringify v) = some (finitize v) := by
  have hend : ValueEnd [] := by intro c hc; simp at hc
  have hread := readValue_stringify v hn ((stringify v).length + 1)
    ((need_le v).trans (Nat.le_succ _)) [] hend
  rw [List.append_nil] at hread
  unfold parse
  rw [hread]
  simp [skipSpace, rebuild_of_built _ (built_finitize v hv)]

/-- The same through a byte buffer. -/
theorem parse_decode_stringify {v : Json} (hv : Built v) (hn : Fixes ofRat v) :
    parse (decodeUtf8 (utf8 (stringify v))) = some (finitize v) := by
  rw [decodeUtf8_utf8 (wellFormed_stringify v), parse_stringify hv hn]

/-! ### What is parsed can be written -/

theorem builtFields_iff : ∀ {fs : List (JsString × Json)}, BuiltFields fs ↔ ∀ e ∈ fs, Built e.2
  | [] => by simp [BuiltFields]
  | (k, v) :: fs => by
    have ih : BuiltFields fs ↔ ∀ e ∈ fs, Built e.2 := builtFields_iff
    rw [BuiltFields, ih]
    simp

theorem fixesFields_iff {conv : ℚ → JsNumber} : ∀ {fs : List (JsString × Json)},
    FixesFields conv fs ↔ ∀ e ∈ fs, Fixes conv e.2
  | [] => by simp [FixesFields]
  | (k, v) :: fs => by
    have ih : FixesFields conv fs ↔ ∀ e ∈ fs, Fixes conv e.2 := fixesFields_iff
    rw [FixesFields, ih]
    simp

mutual

theorem built_rebuild : ∀ v : Json, Built (rebuild v)
  | .arr xs => built_rebuildList xs
  | .obj fs => by
    refine ⟨nodup_fromEntries _, ordered_fromEntries _, builtFields_iff.mpr fun e he => ?_⟩
    exact builtFields_iff.mp (built_rebuildFields fs) e (mem_of_mem_fromEntries he)
  | .null => trivial
  | .bool _ => trivial
  | .num _ => trivial
  | .str _ => trivial

theorem built_rebuildList : ∀ xs : List Json, BuiltList (rebuildList xs)
  | [] => trivial
  | x :: xs => ⟨built_rebuild x, built_rebuildList xs⟩

theorem built_rebuildFields : ∀ fs : List (JsString × Json), BuiltFields (rebuildFields fs)
  | [] => trivial
  | (_, v) :: fs => ⟨built_rebuild v, built_rebuildFields fs⟩

end

mutual

theorem fixes_rebuild {conv : ℚ → JsNumber} : ∀ v : Json, Fixes conv v → Fixes conv (rebuild v)
  | .arr xs, h => fixes_rebuildList xs h
  | .obj fs, h => by
    refine fixesFields_iff.mpr fun e he => ?_
    exact fixesFields_iff.mp (fixes_rebuildFields fs h) e (mem_of_mem_fromEntries he)
  | .null, h => h
  | .bool _, h => h
  | .num _, h => h
  | .str _, h => h

theorem fixes_rebuildList {conv : ℚ → JsNumber} : ∀ xs : List Json, FixesList conv xs →
    FixesList conv (rebuildList xs)
  | [], h => h
  | x :: xs, h => ⟨fixes_rebuild x h.1, fixes_rebuildList xs h.2⟩

theorem fixes_rebuildFields {conv : ℚ → JsNumber} : ∀ fs : List (JsString × Json),
    FixesFields conv fs → FixesFields conv (rebuildFields fs)
  | [], h => h
  | (_, v) :: fs, h => ⟨fixes_rebuild v h.1, fixes_rebuildFields fs h.2⟩

end

theorem fixes_num {x : JsNumber} (h : IsDouble x) : Fixes ofRat (.num x) := by
  rcases x with ⟨q, hq⟩ | _ | _
  · exact isDouble_fin.mp h
  · trivial
  · trivial

/-- Every number that is read is a double; by induction on the depth, for all four readers. -/
theorem fixes_read (n : ℕ) :
    (∀ s v r, readValue ofRat n s = some (v, r) → Fixes ofRat v) ∧
    (∀ s xs r, readTail ofRat n s = some (xs, r) → FixesList ofRat xs) ∧
    (∀ s f r, readField ofRat n s = some (f, r) → Fixes ofRat f.2) ∧
    (∀ s fs r, readFields ofRat n s = some (fs, r) → FixesFields ofRat fs) := by
  induction n with
  | zero =>
    refine ⟨?_, ?_, ?_, ?_⟩ <;> intro s v r h <;> cases h
  | succ n ih =>
    obtain ⟨ihValue, ihTail, ihField, ihFields⟩ := ih
    refine ⟨?_, ?_, ?_, ?_⟩
    · intro s v r h
      rw [readValue] at h
      split at h
      · cases h
      · rename_i c t _
        split_ifs at h
        · simp only [Option.map_eq_some_iff, Prod.mk.injEq] at h
          obtain ⟨_, -, rfl, -⟩ := h
          trivial
        · split at h
          · cases h
          · split_ifs at h
            · cases h
              trivial
            · simp only [Option.bind_eq_bind, Option.bind_eq_some_iff, Option.pure_def,
                Option.some.injEq, Prod.mk.injEq] at h
              obtain ⟨⟨x, r₁⟩, hx, ⟨xs, r₂⟩, hxs, rfl, -⟩ := h
              exact ⟨ihValue _ _ _ hx, ihTail _ _ _ hxs⟩
        · split at h
          · cases h
          · split_ifs at h
            · cases h
              trivial
            · simp only [Option.bind_eq_bind, Option.bind_eq_some_iff, Option.pure_def,
                Option.some.injEq, Prod.mk.injEq] at h
              obtain ⟨⟨f, r₁⟩, hf, ⟨fs, r₂⟩, hfs, rfl, -⟩ := h
              exact ⟨ihField _ _ _ hf, ihFields _ _ _ hfs⟩
        · unfold readWord at h
          split_ifs at h
          cases h
          trivial
        · unfold readWord at h
          split_ifs at h
          cases h
          trivial
        · unfold readWord at h
          split_ifs at h
          cases h
          trivial
        · simp only [Option.map_eq_some_iff, Prod.mk.injEq] at h
          obtain ⟨q, -, rfl, -⟩ := h
          exact fixes_num (isDouble_ofRat q.1)
    · intro s xs r h
      rw [readTail] at h
      split at h
      · cases h
      · split_ifs at h
        · cases h
          trivial
        · simp only [Option.bind_eq_bind, Option.bind_eq_some_iff, Option.pure_def,
            Option.some.injEq, Prod.mk.injEq] at h
          obtain ⟨⟨x, r₁⟩, hx, ⟨ys, r₂⟩, hxs, rfl, -⟩ := h
          exact ⟨ihValue _ _ _ hx, ihTail _ _ _ hxs⟩
    · intro s f r h
      rw [readField] at h
      split at h
      · cases h
      · split_ifs at h
        simp only [Option.bind_eq_bind, Option.bind_eq_some_iff] at h
        obtain ⟨⟨k, r₁⟩, -, h⟩ := h
        split at h
        · cases h
        · split_ifs at h
          simp only [Option.bind_eq_some_iff, Option.pure_def, Option.some.injEq, Prod.mk.injEq] at h
          obtain ⟨⟨v, r₂⟩, hv, rfl, -⟩ := h
          exact ihValue _ _ _ hv
    · intro s fs r h
      rw [readFields] at h
      split at h
      · cases h
      · split_ifs at h
        · cases h
          trivial
        · simp only [Option.bind_eq_bind, Option.bind_eq_some_iff, Option.pure_def,
            Option.some.injEq, Prod.mk.injEq] at h
          obtain ⟨⟨f, r₁⟩, hf, ⟨gs, r₂⟩, hfs, rfl, -⟩ := h
          exact ⟨ihField _ _ _ hf, ihFields _ _ _ hfs⟩

/-- **What `JSON.parse` returns can be written and read back.** -/
theorem parse_readable {s : JsString} {v : Json} (h : parse s = some v) : Built v ∧ Fixes ofRat v := by
  unfold parse at h
  split at h
  · rename_i v' r hv'
    split_ifs at h
    cases h
    exact ⟨built_rebuild _, fixes_rebuild _ ((fixes_read _).1 _ _ _ hv')⟩
  · cases h

/-! ### Values that are written and read back -/

/-- A value of the language whose numbers are doubles. -/
def Readable (v : Json) : Prop := Built v ∧ Fixes ofRat v

theorem readable_str (s : JsString) : Readable (.str s) := ⟨trivial, trivial⟩

theorem readable_obj_iff {fs : List (JsString × Json)} : Readable (.obj fs) ↔
    (fs.map Prod.fst).Nodup ∧ Ordered fs ∧ ∀ e ∈ fs, Readable e.2 := by
  have hbuilt : Built (.obj fs) ↔ (fs.map Prod.fst).Nodup ∧ Ordered fs ∧ BuiltFields fs := Iff.rfl
  have hfixes : Fixes ofRat (.obj fs) ↔ FixesFields ofRat fs := Iff.rfl
  unfold Readable
  rw [hbuilt, hfixes, builtFields_iff, fixesFields_iff]
  constructor
  · rintro ⟨⟨h1, h2, h3⟩, h4⟩
    exact ⟨h1, h2, fun e he => ⟨h3 e he, h4 e he⟩⟩
  · rintro ⟨h1, h2, h3⟩
    exact ⟨⟨h1, h2, fun e he => (h3 e he).1⟩, fun e he => (h3 e he).2⟩

theorem Readable.field {v w : Json} {k : JsString} (hv : Readable v) (h : v.field? k = some w) :
    Readable w := by
  rcases v with _ | b | x | s | xs | fs
  · cases h
  · cases h
  · cases h
  · cases h
  · cases h
  · obtain ⟨k', hmem⟩ := OrdMap.mem_of_lookup h
    exact (readable_obj_iff.mp hv).2.2 _ hmem

theorem Readable.element : ∀ {xs : List Json} {x : Json}, Readable (.arr xs) → x ∈ xs → Readable x
  | y :: ys, x, h, hx => by
    obtain ⟨⟨hb, hbs⟩, hf, hfs⟩ := h
    rcases List.mem_cons.mp hx with rfl | hx
    · exact ⟨hb, hf⟩
    · exact Readable.element ⟨hbs, hfs⟩ hx

theorem readable_parse {s : JsString} {v : Json} (h : parse s = some v) : Readable v := parse_readable h

/-- The fields that are not `undefined`, in order. -/
def definedFields (fs : List (JsString × Option Json)) : List (JsString × Json) :=
  fs.filterMap fun e => e.2.map fun v => (e.1, v)

theorem sublist_keys_definedFields : ∀ fs : List (JsString × Option Json),
    ((definedFields fs).map Prod.fst).Sublist (fs.map Prod.fst)
  | [] => .refl _
  | (_, none) :: fs => .cons _ (sublist_keys_definedFields fs)
  | (_, some _) :: fs => .cons_cons _ (sublist_keys_definedFields fs)

theorem lookup_definedFields {k : JsString} : ∀ {fs : List (JsString × Option Json)},
    (fs.map Prod.fst).Nodup → (definedFields fs).lookup k = (fs.lookup k).join
  | [], _ => rfl
  | (l, none) :: fs, h => by
    obtain ⟨hl, hfs⟩ := List.nodup_cons.mp h
    have ih : (definedFields fs).lookup k = (fs.lookup k).join := lookup_definedFields hfs
    by_cases hk : k = l
    · subst hk
      have hnone : fs.lookup k = none := OrdMap.lookup_eq_none.mpr hl
      have hcons : definedFields ((k, none) :: fs) = definedFields fs := rfl
      rw [hcons, ih, hnone]
      simp
    · have hb : (k == l) = false := by simpa using hk
      have hcons : definedFields ((l, none) :: fs) = definedFields fs := rfl
      rw [hcons, ih, List.lookup_cons, hb]
  | (l, some v) :: fs, h => by
    have ih : (definedFields fs).lookup k = (fs.lookup k).join :=
      lookup_definedFields (List.nodup_cons.mp h).2
    have hcons : definedFields ((l, some v) :: fs) = (l, v) :: definedFields fs := rfl
    rw [hcons, List.lookup_cons, List.lookup_cons, ih]
    cases (k == l) <;> rfl

/-! ### Values that JSON text holds as they are -/

/-- A value that JSON text holds as it is. -/
def Exact (v : Json) : Prop := Readable v ∧ finitize v = v

theorem exact_str (s : JsString) : Exact (.str s) := ⟨readable_str s, rfl⟩

theorem finitizeFields_eq_self : ∀ {fs : List (JsString × Json)}, (∀ e ∈ fs, finitize e.2 = e.2) →
    finitizeFields fs = fs
  | [], _ => rfl
  | (k, v) :: fs, h => by
    have hv : finitize v = v := h (k, v) (by simp)
    have hfs : finitizeFields fs = fs := finitizeFields_eq_self fun e he => h e (by simp [he])
    rw [finitizeFields, hv, hfs]

theorem exact_obj {fs : List (JsString × Json)} (hn : (fs.map Prod.fst).Nodup)
    (ho : (fs.map Prod.fst).Pairwise fun k l => rank k ≤ rank l) (h : ∀ e ∈ fs, Exact e.2) :
    Exact (.obj fs) := by
  refine ⟨readable_obj_iff.mpr ⟨hn, ordered_iff_keys.mpr ho, fun e he => (h e he).1⟩, ?_⟩
  rw [finitize, finitizeFields_eq_self fun e he => (h e he).2]

theorem exact_of_map_str {o : Option JsString} {v : Json} (h : o.map Json.str = some v) : Exact v := by
  obtain ⟨s, -, rfl⟩ := Option.map_eq_some_iff.mp h
  exact exact_str s

theorem exact_definedFields {fs : List (JsString × Option Json)} (hn : (fs.map Prod.fst).Nodup)
    (ho : (fs.map Prod.fst).Pairwise fun k l => rank k ≤ rank l)
    (h : ∀ e ∈ fs, ∀ v, e.2 = some v → Exact v) : Exact (.obj (definedFields fs)) := by
  have hsub := sublist_keys_definedFields fs
  refine exact_obj (hn.sublist hsub) (ho.sublist hsub) ?_
  intro e he
  obtain ⟨e', he', hv⟩ := List.mem_filterMap.mp he
  obtain ⟨v, hsome, rfl⟩ := Option.map_eq_some_iff.mp hv
  exact h e' he' v hsome

end ConsensusNode.Js
