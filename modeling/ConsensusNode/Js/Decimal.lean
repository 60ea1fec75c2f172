import ConsensusNode.Js.Value
import Mathlib.Data.List.DropRight

/-! # Whole numbers as text

* `numberOfText_digits`: `Number` of digits, and of nothing else.
* `toText_ofNat`: the text of a whole number is its decimal text.
* `decText_nines`, `decText_carry`: the text of the next number, by the nines at the end. -/

namespace ConsensusNode.Js

/-! ### Digits -/

theorem isDigit_iff {c : UInt16} : isDigit c = true ↔ 48 ≤ c.toNat ∧ c.toNat ≤ 57 := by
  simp only [isDigit, Bool.and_eq_true, decide_eq_true_eq, UInt16.le_iff_toNat_le, UInt16.reduceToNat]

/-- A digit is the digit of its value. -/
theorem digit_of_isDigit {c : UInt16} (h : isDigit c = true) : digit (c.toNat - 48) = c := by
  unfold digit
  rw [Nat.add_sub_cancel' (isDigit_iff.mp h).1, UInt16.ofNat_toNat]

theorem digit_ne {c d : UInt16} (hc : isDigit c = true) (hd : isDigit d = false) : c ≠ d := by
  rintro rfl
  rw [hc] at hd
  cases hd

/-! ### From text -/

theorem trim_of_digits {s : JsString} (h : ∀ c ∈ s, isDigit c = true) : trim s = s := by
  refine trim_of_not_space fun c hc => ?_
  obtain ⟨h1, h2⟩ := isDigit_iff.mp (h c hc)
  simp only [isSpace, Bool.or_eq_false_iff, Bool.and_eq_false_iff, decide_eq_false_iff_not,
    UInt16.le_iff_toNat_le, ← UInt16.toNat_inj]
  simp
  omega

theorem readDecimal_digits {s : JsString} (hne : s ≠ []) (h : ∀ c ∈ s, isDigit c = true) :
    readDecimal s = some (digitsVal s : ℚ) := by
  unfold readDecimal
  rw [List.takeWhile_eq_self_iff.mpr h, List.dropWhile_eq_nil_iff.mpr h]
  simp [hne, readExponent]

theorem ofRat_natCast {n : ℕ} (h : n ≤ 2 ^ 53) : ofRat (n : ℚ) = JsNumber.ofNat n := by
  unfold ofRat
  have habs : |(n : ℚ)| ≤ 2 ^ 53 := by
    rw [abs_of_nonneg (by positivity)]
    exact_mod_cast h
  rw [if_pos ⟨by simp, habs⟩]
  rfl

/-- Digits are read as their value. -/
theorem numberOfText_digits {s : JsString} (hne : s ≠ []) (h : ∀ c ∈ s, isDigit c = true)
    (hle : digitsVal s ≤ 2 ^ 53) : numberOfText s = some (JsNumber.ofNat (digitsVal s)) := by
  have hread := readDecimal_digits hne h
  unfold numberOfText
  rw [trim_of_digits h]
  rcases s with _ | ⟨c, r⟩
  · exact absurd rfl hne
  have hc : isDigit c = true := h c List.mem_cons_self
  have hinf : c :: r ≠ js "Infinity" := by
    intro he
    have hhead : some c = some (unit 'I') := congrArg List.head? he
    exact digit_ne hc (by decide) (Option.some.inj hhead)
  have hor : ¬ (c = unit '-' ∨ c = unit '+') := by
    rintro (h' | h')
    · exact digit_ne hc (by decide) h'
    · exact digit_ne hc (by decide) h'
  dsimp only
  rw [if_neg hor, if_neg (digit_ne hc (by decide)), if_neg hinf]
  split
  · rename_i b ds heq
    -- after a first digit `0` comes a digit, which is not the mark of a base
    cases heq
    have hb : isDigit b = true := h b (by simp)
    have hmark : ∀ x y : UInt16, isDigit x = false → isDigit y = false → ¬ (b = x ∨ b = y) := by
      rintro x y hx hy (h' | h')
      · exact digit_ne hb hx h'
      · exact digit_ne hb hy h'
    rw [if_neg (hmark _ _ (by decide) (by decide)), if_neg (hmark _ _ (by decide) (by decide)),
      if_neg (hmark _ _ (by decide) (by decide)), hread]
    exact congrArg some (ofRat_natCast hle)
  · rw [hread]
    simp [ofRat_natCast hle]

theorem numberOfText_decText {n : ℕ} (h : n ≤ 2 ^ 53) : numberOfText (decText n) = some (JsNumber.ofNat n) := by
  have hval := numberOfText_digits (decText_ne_nil n) (fun c hc => isDigit_of_mem_decText hc)
    ((digitsVal_decText n).trans_le h)
  rwa [digitsVal_decText] at hval

/-- Adding one is exact below `2 ^ 53`. -/
theorem ofNat_add_one {n : ℕ} (h : n + 1 ≤ 2 ^ 53) :
    (JsNumber.ofNat n).add (JsNumber.ofNat 1) = some (JsNumber.ofNat (n + 1)) := by
  have hdouble : ∀ m : ℕ, m ≤ 2 ^ 53 → double (m : ℚ) = m := by
    intro m hm
    have habs : |(m : ℚ)| ≤ 2 ^ 53 := by
      rw [abs_of_nonneg (by positivity)]
      exact_mod_cast hm
    exact if_pos ⟨by simp, habs⟩
  show some (ofRat (double ((n : ℤ) : ℚ) + double (((1 : ℕ) : ℤ) : ℚ))) = _
  rw [Int.cast_natCast, Int.cast_natCast, hdouble n (by omega), hdouble 1 (by norm_num), ← Nat.cast_add,
    ofRat_natCast h]

/-! ### To text -/

/-- Digits without a zero in front are the text of their value. -/
theorem decText_digitsVal {c : UInt16} {r : JsString} (h : ∀ x ∈ c :: r, isDigit x = true) (hc : c ≠ 48) :
    decText (digitsVal (c :: r)) = c :: r := by
  set l : List ℕ := (c :: r).reverse.map fun x => x.toNat - 48 with hl
  have hback : l.reverse.map digit = c :: r := by
    rw [hl, ← List.map_reverse, List.reverse_reverse, List.map_map]
    exact (List.map_congr_left fun x hx => digit_of_isDigit (h x hx)).trans (List.map_id _)
  have hten : ∀ d ∈ l, d < 10 := by
    intro d hd
    obtain ⟨x, hx, rfl⟩ := List.mem_map.mp hd
    have hbound := isDigit_iff.mp (h x (List.mem_reverse.mp hx))
    omega
  have hlast : ∀ hne : l ≠ [], l.getLast hne ≠ 0 := by
    intro hne
    have hc48 := (isDigit_iff.mp (h c List.mem_cons_self)).1
    have hne48 : c.toNat ≠ 48 := fun h48 => hc (UInt16.toNat_inj.mp h48)
    simp only [hl, List.reverse_cons, List.map_append, List.map_cons, List.map_nil, List.getLast_append_singleton]
    omega
  have hval : digitsVal (c :: r) = Nat.ofDigits 10 l := by rw [← hback, digitsVal_digits hten]
  have hdigits := Nat.digits_ofDigits 10 (by norm_num) l hten hlast
  unfold decText
  rw [hval, if_neg ?_, hdigits, hback]
  intro hzero
  rw [hzero, Nat.digits_zero] at hdigits
  rw [← hdigits] at hback
  cases hback

theorem isDigit_zeros (k : ℕ) : ∀ c ∈ List.replicate k (48 : UInt16), isDigit c = true := by
  intro c hc
  rw [List.eq_of_mem_replicate hc]
  rfl

theorem digitsVal_only_zeros (k : ℕ) : digitsVal (List.replicate k 48) = 0 := by
  have hzeros := digitsVal_zeros k []
  rw [List.append_nil] at hzeros
  exact hzeros

theorem decText_mul_pow {s : ℕ} (hs : 0 < s) (k : ℕ) : decText (s * 10 ^ k) = decText s ++ List.replicate k 48 := by
  obtain ⟨c, r, hcr⟩ := List.exists_cons_of_ne_nil (decText_ne_nil s)
  have hdigits : ∀ x ∈ c :: (r ++ List.replicate k 48), isDigit x = true := by
    intro x hx
    rw [← List.cons_append, ← hcr, List.mem_append] at hx
    exact hx.elim isDigit_of_mem_decText (isDigit_zeros k x)
  have hval : digitsVal (c :: (r ++ List.replicate k 48)) = s * 10 ^ k := by
    rw [← List.cons_append, ← hcr, digitsVal_append, digitsVal_decText, List.length_replicate]
    rw [digitsVal_only_zeros]
    rfl
  rw [← hval, decText_digitsVal hdigits (head_decText hs hcr), hcr, List.cons_append]

theorem decompose_natCast (n : ℕ) : decompose (n : ℚ) = (n / 10 ^ zeros n, (zeros n : ℤ)) := by
  have hplaces : places (n : ℚ) = some 0 := by
    unfold places
    rw [show 400 = 399 + 1 from rfl, List.range_succ_eq_map, List.find?_cons_of_pos (by simp)]
  unfold decompose
  rw [hplaces]
  simp

/-- A whole number below `10 ^ 21` is written with all its digits. -/
theorem numText_natCast {n : ℕ} (h : (decText n).length ≤ 21) : numText (n : ℚ) = decText n := by
  unfold numText
  rcases Nat.eq_zero_or_pos n with rfl | hn
  · rfl
  · have hq : (0 : ℚ) < n := Nat.cast_pos.mpr hn
    rw [if_neg hq.ne', if_neg hq.not_gt, decompose_natCast]
    have hs : 0 < n / 10 ^ zeros n := Nat.div_pos (Nat.le_of_dvd hn (zeros_dvd n)) (by positivity)
    have htext : decText (n / 10 ^ zeros n) ++ List.replicate (zeros n) 48 = decText n := by
      rw [← decText_mul_pow hs, Nat.div_mul_cancel (zeros_dvd n)]
    have hlen : ((decText (n / 10 ^ zeros n)).length : ℤ) + zeros n ≤ 21 := by
      rw [← htext, List.length_append, List.length_replicate] at h
      omega
    unfold layout
    dsimp only
    rw [if_pos ⟨Int.natCast_nonneg _, hlen⟩, Int.toNat_natCast, htext]

theorem length_decText_le {n k : ℕ} (hk : 0 < k) (h : n < 10 ^ k) : (decText n).length ≤ k := by
  unfold decText
  split_ifs with h0
  · exact hk
  · rw [List.length_map, List.length_reverse, Nat.digits_length_le_iff (by norm_num)]
    exact h

theorem toText_ofNat {n : ℕ} (h : n ≤ 2 ^ 53) : (JsNumber.ofNat n).toText = decText n := by
  show numText ((n : ℤ) : ℚ) = _
  rw [Int.cast_natCast]
  exact numText_natCast (length_decText_le (by norm_num) (by omega))

/-! ### The next number -/

theorem digitsVal_nines (k : ℕ) : digitsVal (List.replicate k 57) + 1 = 10 ^ k := by
  induction k with
  | zero => rfl
  | succ k ih =>
    rw [List.replicate_succ', digitsVal_append, List.length_singleton, pow_one, pow_succ 10 k, ← ih,
      show digitsVal [57] = 9 from rfl]
    omega

/-- After nines alone comes a power of ten. -/
theorem decText_nines (k : ℕ) : decText (digitsVal (List.replicate k 57) + 1) = 49 :: List.replicate k 48 := by
  rw [digitsVal_nines, ← one_mul (10 ^ k), decText_mul_pow one_pos]
  rfl

/-- After nines at the end come zeros, and the digit before them goes up by one. -/
theorem decText_carry {a : JsString} {d k : ℕ} (hd : d < 9)
    (h : ∀ x ∈ a ++ digit d :: List.replicate k 57, isDigit x = true) (hhead : ∀ c ∈ a.head?, c ≠ 48) :
    decText (digitsVal (a ++ digit d :: List.replicate k 57) + 1) =
      a ++ digit (d + 1) :: List.replicate k 48 := by
  have hone : ∀ m < 10, digitsVal [digit m] = m := by
    intro m hm
    show 0 * 10 + ((digit m).toNat - 48) = m
    rw [digit_toNat hm]
    omega
  have hsplit : ∀ m (t : JsString), m < 10 →
      digitsVal (a ++ digit m :: t) = digitsVal a * 10 ^ (t.length + 1) + (m * 10 ^ t.length + digitsVal t) := by
    intro m t hm
    rw [digitsVal_append, ← List.singleton_append, digitsVal_append, hone m hm]
    rfl
  have hval : digitsVal (a ++ digit d :: List.replicate k 57) + 1 =
      digitsVal (a ++ digit (d + 1) :: List.replicate k 48) := by
    rw [hsplit d _ (by omega), hsplit (d + 1) _ (by omega), digitsVal_only_zeros, List.length_replicate,
      List.length_replicate, add_assoc, add_assoc, digitsVal_nines]
    ring
  have hdigits : ∀ x ∈ a ++ digit (d + 1) :: List.replicate k 48, isDigit x = true := by
    intro x hx
    simp only [List.mem_append, List.mem_cons] at hx h
    rcases hx with hx | rfl | hx
    · exact h x (.inl hx)
    · exact isDigit_digit (by omega)
    · exact isDigit_zeros k x hx
  rw [hval]
  rcases a with _ | ⟨c, a⟩
  · refine decText_digitsVal hdigits fun hzero => ?_
    have hnat := congrArg UInt16.toNat hzero
    rw [digit_toNat (by omega)] at hnat
    simp at hnat
  · exact decText_digitsVal hdigits (hhead c rfl)

end ConsensusNode.Js
