import ConsensusNode.Js.Text
import Mathlib.Data.Int.Log
import Mathlib.Data.Nat.Cast.Field
import Mathlib.Data.Rat.Floor
import Mathlib.Order.WithBot
import Mathlib.Algebra.Order.Monoid.WithTop
import Mathlib.Tactic.FieldSimp

/-! # Numbers

A number that is neither `NaN` nor infinite is a double. It is represented by its shortest decimal, the
rational number the language prints for it, so that two doubles are equal (smaller) exactly when their
representatives are. `ofRat` rounds a decimal literal to the nearest double, ties to even, and returns
the shortest decimal that rounds to it; integers up to `2 ^ 53` are exact.

`numText` is `Number::toString` in base ten: with `q = s * 10 ^ e`, `k` digits in `s` and `n = k + e`,
the digits stand without a point for `0 ≤ e` and `n ≤ 21`, with a point for `-6 < n ≤ 21`, and with an
exponent otherwise. `readNumber` is the number literal of JSON text; `readNumber_numText` reads back
what `numText` writes. -/

namespace ConsensusNode.Js

/-- A finite decimal expansion of fewer than 400 places; doubles need at most 341. -/
def IsDecimal (q : ℚ) : Prop := ∃ k < 400, q.den ∣ 10 ^ k

instance (q : ℚ) : Decidable (IsDecimal q) := by unfold IsDecimal; infer_instance

/-- A number other than `NaN`. -/
inductive JsNumber where
  | fin (q : ℚ) (h : IsDecimal q)
  | posInf
  | negInf
deriving DecidableEq

/-- Rational numbers with both infinities. -/
abbrev ExtRat := WithBot (WithTop ℚ)

namespace JsNumber

/-- The value. -/
def val : JsNumber → ExtRat
  | .fin q _ => ((q : WithTop ℚ) : ExtRat)
  | .posInf => ((⊤ : WithTop ℚ) : ExtRat)
  | .negInf => ⊥

theorem isDecimal_int (z : ℤ) : IsDecimal (z : ℚ) := ⟨0, by norm_num, by simp⟩

def ofInt (z : ℤ) : JsNumber := .fin z (isDecimal_int z)

def ofNat (n : ℕ) : JsNumber := ofInt n

end JsNumber

/-! ### Doubles -/

/-- The nearest integer, ties to even. -/
def roundHalfEven (q : ℚ) : ℤ :=
  let f := ⌊q⌋
  if q - f < 1 / 2 then f else if 1 / 2 < q - f then f + 1 else if f % 2 = 0 then f else f + 1

/-- The nearest double, `none` if it is infinite. -/
def roundDouble (q : ℚ) : Option ℚ :=
  if q = 0 then some 0 else
    let e := max (Int.log 2 |q| - 52) (-1074)
    let r : ℚ := roundHalfEven (q / 2 ^ e) * 2 ^ e
    if 2 ^ 1024 ≤ |r| then none else some r

/-- The decimals with `k` digits around `v` that round to `v`, the closest first. -/
def candidates (v : ℚ) (k : ℕ) : List ℚ :=
  let e : ℤ := Int.log 10 v + 1 - k
  let lo : ℚ := ⌊v / 10 ^ e⌋ * 10 ^ e
  let hi : ℚ := (⌊v / 10 ^ e⌋ + 1) * 10 ^ e
  (if v - lo ≤ hi - v then [lo, hi] else [hi, lo]).filter fun c => roundDouble c = some v

/-- The shortest decimal that rounds to the positive double `v`. -/
def shortestDecimal (v : ℚ) : ℚ :=
  (((List.range 18).flatMap (candidates v)).head?).getD v

/-- The number of a decimal literal. -/
def ofRat (q : ℚ) : JsNumber :=
  if q.den = 1 ∧ |q| ≤ 2 ^ 53 then JsNumber.ofInt q.num else
    match roundDouble |q| with
    | none => if 0 < q then .posInf else .negInf
    | some v =>
      let d := if 0 < q then shortestDecimal v else - shortestDecimal v
      if h : IsDecimal d then .fin d h else JsNumber.ofInt 0

/-! ### Arithmetic and comparison -/

/-- The double that a representative stands for. -/
def double (q : ℚ) : ℚ := if q.den = 1 ∧ |q| ≤ 2 ^ 53 then q else (roundDouble q).getD q

namespace JsNumber

/-- `x + y`; `none` is `NaN`. -/
def add : JsNumber → JsNumber → Option JsNumber
  | .fin p _, .fin q _ => some (ofRat (double p + double q))
  | .posInf, .negInf => none
  | .negInf, .posInf => none
  | .posInf, _ => some .posInf
  | _, .posInf => some .posInf
  | .negInf, _ => some .negInf
  | _, .negInf => some .negInf

/-- `-x`. -/
def neg : JsNumber → JsNumber
  | .fin q h => .fin (-q) (by simpa [IsDecimal] using h)
  | .posInf => .negInf
  | .negInf => .posInf

/-- `x - y`; `none` is `NaN`. -/
def sub (x y : JsNumber) : Option JsNumber := x.add y.neg

/-- `x < y` where either side may be `NaN`. -/
def lt : Option JsNumber → Option JsNumber → Bool
  | some x, some y => decide (x.val < y.val)
  | _, _ => false

end JsNumber

/-! ### Decimal text -/

/-- The number of decimal places, and for an integer the number of zeros at the end. -/
def places (q : ℚ) : Option ℕ := (List.range 400).find? fun k => q.den ∣ 10 ^ k

def zeros (n : ℕ) : ℕ :=
  ((List.range (Nat.log 10 n + 1)).reverse.find? fun z => 10 ^ z ∣ n).getD 0

/-- `q = s * 10 ^ e` for a positive decimal `q`. -/
def decompose (q : ℚ) : ℕ × ℤ :=
  match places q with
  | none => (0, 0)
  | some 0 => (q.num.natAbs / 10 ^ zeros q.num.natAbs, zeros q.num.natAbs)
  | some (k + 1) => (q.num.natAbs * 10 ^ (k + 1) / q.den, -(k + 1 : ℕ))

/-- The exponent part: `e`, a sign and the digits. -/
def expText (e : ℤ) : JsString :=
  unit 'e' :: (if 0 ≤ e then unit '+' else unit '-') :: decText e.natAbs

/-- The text of `s * 10 ^ e`. -/
def layout (s : ℕ) (e : ℤ) : JsString :=
  let ds := decText s
  let n : ℤ := ds.length + e
  if 0 ≤ e ∧ n ≤ 21 then ds ++ List.replicate e.toNat 48
  else if 0 < n ∧ n ≤ 21 then ds.take n.toNat ++ unit '.' :: ds.drop n.toNat
  else if -6 < n ∧ n ≤ 0 then 48 :: unit '.' :: (List.replicate (-n).toNat 48 ++ ds)
  else if ds.length = 1 then ds ++ expText (n - 1)
  else ds.take 1 ++ unit '.' :: (ds.drop 1 ++ expText (n - 1))

/-- The text of a finite number. -/
def numText (q : ℚ) : JsString :=
  if q = 0 then [48]
  else if q < 0 then unit '-' :: layout (decompose (-q)).1 (decompose (-q)).2
  else layout (decompose q).1 (decompose q).2

/-- `String(x)` of a number. -/
def JsNumber.toText : JsNumber → JsString
  | .fin q _ => numText q
  | .posInf => js "Infinity"
  | .negInf => js "-Infinity"

/-! ### Number literals of JSON -/

/-- The digits after a point; nothing without a point. -/
def readFraction : JsString → Option (JsString × JsString)
  | [] => some ([], [])
  | c :: r =>
    if c = unit '.' then
      if r.takeWhile isDigit = [] then none else some (r.takeWhile isDigit, r.dropWhile isDigit)
    else some ([], c :: r)

/-- The digits of an exponent. -/
def readExpDigits (neg : Bool) (r : JsString) : Option (ℤ × JsString) :=
  if r.takeWhile isDigit = [] then none
  else some (if neg then -(digitsVal (r.takeWhile isDigit) : ℤ) else digitsVal (r.takeWhile isDigit),
    r.dropWhile isDigit)

/-- The exponent; zero without an exponent part. -/
def readExponent : JsString → Option (ℤ × JsString)
  | [] => some (0, [])
  | c :: r =>
    if c = unit 'e' ∨ c = unit 'E' then
      match r with
      | [] => none
      | d :: r' =>
        if d = unit '+' then readExpDigits false r'
        else if d = unit '-' then readExpDigits true r'
        else readExpDigits false (d :: r')
    else some (0, c :: r)

/-- A number without a sign. -/
def readUnsigned (s : JsString) : Option (ℚ × JsString) :=
  let ip := s.takeWhile isDigit
  if ip = [] ∨ (1 < ip.length ∧ ip.head? = some 48) then none else
    match readFraction (s.dropWhile isDigit) with
    | none => none
    | some (fp, r) =>
      match readExponent r with
      | none => none
      | some (ex, r) => some ((digitsVal (ip ++ fp) : ℚ) * 10 ^ (ex - fp.length), r)

/-- A number literal. -/
def readNumber : JsString → Option (ℚ × JsString)
  | [] => none
  | c :: r => if c = unit '-' then (readUnsigned r).map fun p => (-p.1, p.2) else readUnsigned (c :: r)

/-! ### Reading back what was written -/

theorem places_spec {q : ℚ} (h : IsDecimal q) : ∃ k, places q = some k ∧ q.den ∣ 10 ^ k := by
  obtain ⟨k, hk, hd⟩ := h
  have hs : (places q).isSome := by
    unfold places
    rw [List.find?_isSome]
    exact ⟨k, List.mem_range.mpr hk, by simpa using hd⟩
  obtain ⟨j, hj⟩ := Option.isSome_iff_exists.mp hs
  exact ⟨j, hj, by simpa using List.find?_some hj⟩

theorem zeros_dvd (n : ℕ) : 10 ^ zeros n ∣ n := by
  unfold zeros
  cases h : (List.range (Nat.log 10 n + 1)).reverse.find? fun z => decide (10 ^ z ∣ n) with
  | none => simp
  | some z => simpa using List.find?_some h

theorem decompose_spec {q : ℚ} (hq : 0 < q) (hd : IsDecimal q) :
    0 < (decompose q).1 ∧ ((decompose q).1 : ℚ) * 10 ^ (decompose q).2 = q := by
  obtain ⟨k, hk, hdvd⟩ := places_spec hd
  have hnum : (q.num.natAbs : ℚ) = q.num := by
    have := Rat.num_pos.mpr hq
    rw [← Int.cast_natCast, Int.natCast_natAbs, abs_of_pos this]
  have hpos : 0 < q.num.natAbs := Int.natAbs_pos.mpr (Rat.num_pos.mpr hq).ne'
  have hden : (q.den : ℚ) ≠ 0 := by exact_mod_cast q.den_nz
  have hmul : ((decompose q).1 : ℚ) * 10 ^ (decompose q).2 = q := by
    unfold decompose
    rw [hk]
    cases k with
    | zero =>
      have h1 : q.den = 1 := by simpa using hdvd
      have h2 := zeros_dvd q.num.natAbs
      show ((q.num.natAbs / 10 ^ zeros q.num.natAbs : ℕ) : ℚ) * 10 ^ ((zeros q.num.natAbs : ℕ) : ℤ) = q
      rw [zpow_natCast, Nat.cast_div h2 (by positivity)]
      rw [Nat.cast_pow, Nat.cast_ofNat, div_mul_cancel₀ _ (by positivity), hnum]
      exact Rat.den_eq_one_iff q |>.mp h1
    | succ k =>
      show ((q.num.natAbs * 10 ^ (k + 1) / q.den : ℕ) : ℚ) * 10 ^ (-((k + 1 : ℕ) : ℤ)) = q
      rw [Nat.cast_div (hdvd.mul_left _) hden, zpow_neg, zpow_natCast, Nat.cast_mul, hnum,
        Nat.cast_pow, Nat.cast_ofNat]
      calc (q.num : ℚ) * 10 ^ (k + 1) / q.den * (10 ^ (k + 1))⁻¹ = q.num / q.den := by field_simp
        _ = q := Rat.num_div_den q
  refine ⟨?_, hmul⟩
  rcases Nat.eq_zero_or_pos (decompose q).1 with h0 | h0
  · rw [h0] at hmul; simp at hmul; rw [← hmul] at hq; exact absurd hq (lt_irrefl _)
  · exact h0

/-- The text after a number: it does not go on as a number. -/
def NumEnd (r : JsString) : Prop :=
  ∀ c ∈ r.head?, isDigit c = false ∧ c ≠ unit '.' ∧ c ≠ unit 'e' ∧ c ≠ unit 'E'

theorem takeWhile_digits {ds r : JsString} (hds : ∀ c ∈ ds, isDigit c = true)
    (hr : ∀ c ∈ r.head?, isDigit c = false) : (ds ++ r).takeWhile isDigit = ds := by
  rw [List.takeWhile_append_of_pos hds]
  cases r with
  | nil => simp
  | cons c r => rw [List.takeWhile_cons_of_neg (by simp [hr c rfl])]; simp

theorem dropWhile_digits {ds r : JsString} (hds : ∀ c ∈ ds, isDigit c = true)
    (hr : ∀ c ∈ r.head?, isDigit c = false) : (ds ++ r).dropWhile isDigit = r := by
  rw [List.dropWhile_append_of_pos hds]
  cases r with
  | nil => rfl
  | cons c r => exact List.dropWhile_cons_of_neg (by simp [hr c rfl])

theorem readFraction_none {r : JsString} (h : ∀ c ∈ r.head?, c ≠ unit '.') :
    readFraction r = some ([], r) := by
  cases r with
  | nil => rfl
  | cons c r => rw [readFraction, if_neg (h c rfl)]

theorem readFraction_point {fp r : JsString} (hne : fp ≠ []) (hfp : ∀ c ∈ fp, isDigit c = true)
    (hr : ∀ c ∈ r.head?, isDigit c = false) :
    readFraction (unit '.' :: (fp ++ r)) = some (fp, r) := by
  rw [readFraction, if_pos rfl, takeWhile_digits hfp hr, dropWhile_digits hfp hr, if_neg hne]

theorem readExponent_none {r : JsString} (h : NumEnd r) : readExponent r = some (0, r) := by
  cases r with
  | nil => rfl
  | cons c r =>
    obtain ⟨-, -, h1, h2⟩ := h c rfl
    have hc : ¬ (c = unit 'e' ∨ c = unit 'E') := by rintro (h | h) <;> contradiction
    cases r <;> simp only [readExponent, if_neg hc]

theorem readExponent_expText (e : ℤ) {r : JsString} (hr : NumEnd r) :
    readExponent (expText e ++ r) = some (e, r) := by
  have hd : ∀ c ∈ decText e.natAbs, isDigit c = true := fun c => isDigit_of_mem_decText
  have hr' : ∀ c ∈ r.head?, isDigit c = false := fun c hc => (hr c hc).1
  have hread : ∀ neg, readExpDigits neg (decText e.natAbs ++ r) =
      some (if neg then -(e.natAbs : ℤ) else e.natAbs, r) := by
    intro neg
    unfold readExpDigits
    rw [takeWhile_digits hd hr', dropWhile_digits hd hr', if_neg (decText_ne_nil _),
      digitsVal_decText]
  unfold expText
  by_cases he : 0 ≤ e
  · rw [if_pos he, List.cons_append, List.cons_append, readExponent, if_pos (Or.inl rfl)]
    show (if unit '+' = unit '+' then readExpDigits false _ else _) = _
    rw [if_pos rfl, hread]
    simp [abs_of_nonneg he]
  · rw [if_neg he, List.cons_append, List.cons_append, readExponent, if_pos (Or.inl rfl)]
    show (if unit '-' = unit '+' then _ else if unit '-' = unit '-' then readExpDigits true _ else _) = _
    rw [if_neg (by decide), if_pos rfl, hread]
    simp [abs_of_neg (not_le.mp he)]

/-- What `readUnsigned` makes of an integer part, a fraction and the text of an exponent. -/
theorem readUnsigned_parts {a b x r t : JsString} {e : ℤ} (hne : a ≠ [])
    (hz : ¬ (1 < a.length ∧ a.head? = some 48)) (hip : ∀ c ∈ a, isDigit c = true)
    (ht : ∀ c ∈ t.head?, isDigit c = false) (hf : readFraction t = some (b, x))
    (he : readExponent x = some (e, r)) :
    readUnsigned (a ++ t) = some ((digitsVal (a ++ b) : ℚ) * 10 ^ (e - b.length), r) := by
  unfold readUnsigned
  simp only [takeWhile_digits hip ht, dropWhile_digits hip ht, hf, he]
  rw [if_neg (by rintro (h | h); exacts [hne h, hz h])]

theorem head_append_of_ne_nil {a b : JsString} (h : a ≠ []) : (a ++ b).head? = a.head? := by
  cases a with
  | nil => exact absurd rfl h
  | cons c a => rfl

/-- **Reading the text of `s * 10 ^ e`.** -/
theorem readUnsigned_layout {s : ℕ} (hs : 0 < s) (e : ℤ) {r : JsString} (hr : NumEnd r) :
    readUnsigned (layout s e ++ r) = some ((s : ℚ) * 10 ^ e, r) := by
  have hds : ∀ c ∈ decText s, isDigit c = true := fun c => isDigit_of_mem_decText
  have hne := decText_ne_nil s
  have hlen : 0 < (decText s).length := List.length_pos_of_ne_nil hne
  have hhead : (decText s).head? ≠ some 48 := by
    intro h
    obtain ⟨c, t, hct⟩ := List.exists_cons_of_ne_nil hne
    rw [hct] at h
    exact head_decText hs hct (by simpa using h)
  have hval := digitsVal_decText s
  have hr1 : ∀ c ∈ r.head?, isDigit c = false := fun c hc => (hr c hc).1
  have hpoint : isDigit (unit '.') = false := by decide
  have hexp : isDigit (unit 'e') = false := by decide
  have h48 : ∀ c ∈ List.replicate e.toNat (48 : UInt16), isDigit c = true := by
    intro c hc; rw [List.eq_of_mem_replicate hc]; rfl
  unfold layout
  simp only []
  split_ifs with h1 h2 h3 h4
  · -- the digits and zeros, no point
    have hip : ∀ c ∈ decText s ++ List.replicate e.toNat 48, isDigit c = true := fun c hc =>
      (List.mem_append.mp hc).elim (hds c) (h48 c)
    have := readUnsigned_parts (b := []) (by simp [hne])
      (by rw [head_append_of_ne_nil hne]; exact fun h => hhead h.2) hip hr1
      (readFraction_none fun c hc => (hr c hc).2.1) (readExponent_none hr)
    rw [this]
    obtain ⟨m, hm⟩ := Int.eq_ofNat_of_zero_le h1.1
    have hz := digitsVal_zeros m []
    rw [List.append_nil] at hz
    rw [List.append_nil, digitsVal_append, hval, hm, Int.toNat_natCast, hz]
    simp [digitsVal]
  · -- a point inside the digits
    obtain ⟨m, hm⟩ := Int.eq_ofNat_of_zero_le h2.1.le
    have hm0 : 0 < m := by omega
    have he0 : e < 0 := by
      by_contra hc
      exact h1 ⟨not_lt.mp hc, h2.2⟩
    have hmlt : m < (decText s).length := by omega
    rw [hm] at h2 ⊢
    simp only [Int.toNat_natCast]
    have hfp : (decText s).drop m ≠ [] := by rw [ne_eq, List.drop_eq_nil_iff]; omega
    have htake : (decText s).take m ≠ [] := by simp; exact ⟨by omega, hne⟩
    have := readUnsigned_parts (a := (decText s).take m) htake
      (by rw [List.head?_take, if_neg (by omega)]; exact fun h => hhead h.2)
      (fun c hc => hds c (List.mem_of_mem_take hc))
      (t := unit '.' :: ((decText s).drop m ++ r)) (by simp [hpoint])
      (readFraction_point hfp (fun c hc => hds c (List.mem_of_mem_drop hc)) hr1)
      (readExponent_none hr)
    have hexp' : (0 : ℤ) - ((decText s).drop m).length = e := by rw [List.length_drop]; omega
    rw [List.append_assoc, List.cons_append, this, List.take_append_drop, hval, hexp']
  · -- a fraction that starts with zeros
    obtain ⟨m, hm⟩ := Int.eq_ofNat_of_zero_le (by omega : 0 ≤ -(((decText s).length : ℤ) + e))
    rw [hm]
    simp only [Int.toNat_natCast, List.cons_append]
    have hfpd : ∀ c ∈ List.replicate m 48 ++ decText s, isDigit c = true := by
      intro c hc
      rcases List.mem_append.mp hc with h | h
      · rw [List.eq_of_mem_replicate h]; rfl
      · exact hds c h
    have := readUnsigned_parts (a := [48]) (by simp) (by simp) (by simp [isDigit])
      (t := unit '.' :: ((List.replicate m 48 ++ decText s) ++ r)) (by simp [hpoint])
      (readFraction_point (by simp [hne]) hfpd hr1) (readExponent_none hr)
    have h0 : digitsVal ([48] ++ (List.replicate m 48 ++ decText s)) = s := by
      rw [← List.append_assoc, show [(48 : UInt16)] ++ List.replicate m 48 =
        List.replicate (m + 1) 48 from rfl, digitsVal_zeros, hval]
    rw [h0] at this
    rw [show 48 :: unit '.' :: (List.replicate m 48 ++ decText s ++ r) =
      [48] ++ unit '.' :: (List.replicate m 48 ++ decText s ++ r) from rfl, this]
    have hexp' : (0 : ℤ) - (List.replicate m (48 : UInt16) ++ decText s).length = e := by
      rw [List.length_append, List.length_replicate]; push_cast; omega
    rw [hexp']
  · -- one digit and an exponent
    have := readUnsigned_parts (a := decText s) hne (by omega) hds
      (t := expText ((decText s).length + e - 1) ++ r) (b := [])
      (by simp [expText, hexp]) (readFraction_none (by simp [expText, unit]))
      (readExponent_expText _ hr)
    rw [List.append_assoc, this, List.append_nil, hval, h4]
    simp
  · -- a digit, a point, the other digits and an exponent
    have hfp : (decText s).drop 1 ≠ [] := by rw [ne_eq, List.drop_eq_nil_iff]; omega
    have htake : (decText s).take 1 ≠ [] := by simp [hne]
    have := readUnsigned_parts (a := (decText s).take 1) htake (by simp)
      (fun c hc => hds c (List.mem_of_mem_take hc))
      (t := unit '.' :: ((decText s).drop 1 ++ (expText ((decText s).length + e - 1) ++ r)))
      (by simp [hpoint])
      (readFraction_point hfp (fun c hc => hds c (List.mem_of_mem_drop hc))
        (by simp [expText, hexp])) (readExponent_expText _ hr)
    have hexp' : ((decText s).length : ℤ) + e - 1 - ((decText s).drop 1).length = e := by
      rw [List.length_drop]; omega
    rw [List.append_assoc, List.cons_append, List.append_assoc, this, List.take_append_drop, hval,
      hexp']

theorem head_layout {s : ℕ} (e : ℤ) : ∃ c t, layout s e = c :: t ∧ isDigit c = true := by
  have hne := decText_ne_nil s
  obtain ⟨c, t, hct⟩ := List.exists_cons_of_ne_nil hne
  have hc : isDigit c = true := isDigit_of_mem_decText (n := s) (by rw [hct]; simp)
  unfold layout
  simp only []
  split_ifs with h1 h2 h3 h4
  · exact ⟨c, _, by rw [hct]; rfl, hc⟩
  · obtain ⟨m, hm⟩ := Int.eq_succ_of_zero_lt h2.1
    refine ⟨c, _, by rw [hm, hct]; rfl, hc⟩
  · exact ⟨48, _, rfl, rfl⟩
  · exact ⟨c, _, by rw [hct]; rfl, hc⟩
  · exact ⟨c, _, by rw [hct]; rfl, hc⟩

/-- **Reading back a number.** -/
theorem readNumber_numText {q : ℚ} (hq : IsDecimal q) {r : JsString} (hr : NumEnd r) :
    readNumber (numText q ++ r) = some (q, r) := by
  have hminus : ∀ c, isDigit c = true → c ≠ unit '-' := by
    rintro c hc rfl; exact absurd hc (by decide)
  unfold numText
  split_ifs with h0 hneg
  · subst h0
    have hr1 : ∀ c ∈ r.head?, isDigit c = false := fun c hc => (hr c hc).1
    have := readUnsigned_parts (a := [48]) (b := []) (by simp) (by simp) (by simp [isDigit]) hr1
      (readFraction_none fun c hc => (hr c hc).2.1) (readExponent_none hr)
    show readNumber (48 :: r) = _
    rw [readNumber, if_neg (by decide)]
    exact this.trans (by simp [digitsVal])
  · have hd : IsDecimal (-q) := by simpa [IsDecimal] using hq
    obtain ⟨hs, he⟩ := decompose_spec (neg_pos.mpr hneg) hd
    show readNumber (unit '-' :: (layout _ _ ++ r)) = _
    rw [readNumber, if_pos rfl, readUnsigned_layout hs _ hr, he]
    simp
  · have hpos : 0 < q := lt_of_le_of_ne (not_lt.mp hneg) (Ne.symm h0)
    obtain ⟨hs, he⟩ := decompose_spec hpos hq
    obtain ⟨c, t, hct, hc⟩ := head_layout (s := (decompose q).1) (decompose q).2
    have hl := readUnsigned_layout hs (decompose q).2 hr
    rw [hct] at hl ⊢
    show readNumber (c :: (t ++ r)) = _
    rw [readNumber, if_neg (hminus c hc)]
    exact hl.trans (by rw [he])

end ConsensusNode.Js
