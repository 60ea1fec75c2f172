import ConsensusNode.Js.RoundTrip
import ConsensusNode.Runtime.SsrfGuard

/-! # Numeric IPv4 literals

`normalizeToIPv4` of `runtime/ssrf.ts` with the numbers of the language: `parseInt` gives doubles, and the
shifts work on signed 32-bit integers. `Ssrf` has the same function over natural numbers.

* `Doubles.normalizeToIPv4_eq`: the two agree on every text.
* `normalizeToIPv4_inetAton`: a literal of one to four numbers is the address that `inet_aton` gives it. -/

namespace ConsensusNode.Runtime

open Js Lib

/-! ### 32-bit integers -/

namespace Doubles

/-- `ToInt32` and `ToUint32` of an integer: its last 32 bits. -/
def bits (x : ℤ) : BitVec 32 := BitVec.ofInt 32 x

/-- `x << k`. -/
def shl (x : ℤ) (k : ℕ) : ℤ := (bits x <<< k).toInt

/-- `x | y`. -/
def bor (x y : ℤ) : ℤ := (bits x ||| bits y).toInt

/-- `x & y`. -/
def band (x y : ℤ) : ℤ := (bits x &&& bits y).toInt

/-- `x >>> k`. -/
def ushr (x : ℤ) (k : ℕ) : ℤ := (bits x >>> k).toNat

/-! ### The function -/

/-- `^(0x[0-9a-f]+|0[0-7]*|[1-9]\d*|0)$` -/
def isIpPart : JsString → Bool
  | 48 :: 120 :: ds => !ds.isEmpty && ds.all fun d => isDigit d || (97 ≤ d && d ≤ 102)
  | 48 :: ds => ds.all fun d => 48 ≤ d && d ≤ 55
  | d :: ds => (49 ≤ d && d ≤ 57) && ds.all isDigit
  | [] => false

/-- `p.startsWith('0x') ? 16 : p.startsWith('0') && p.length > 1 ? 8 : 10`. -/
def partRadix (s : JsString) : ℕ :=
  if startsWith s (js "0x") then 16 else if startsWith s (js "0") && 1 < s.length then 8 else 10

/-- `parseInt(s, radix)`: the double nearest to the value of the digits, which is an integer; `none` is `NaN`
or `Infinity`. -/
def parseInt (s : JsString) (radix : ℕ) : Option ℤ :=
  ((readBase radix (if radix = 16 then s.drop 2 else s)).bind fun n => roundDouble n).map Int.floor

/-- The parts as one number, with the bounds of each of the four forms. -/
def ip32 : List ℤ → Option ℤ
  | [a] => if a > 0xffffffff then none else some a
  | [a, b] => if a > 0xff ∨ b > 0xffffff then none else some (bor (shl a 24) b)
  | [a, b, c] =>
    if a > 0xff ∨ b > 0xff ∨ c > 0xffff then none else some (bor (bor (shl a 24) (shl b 16)) c)
  | [a, b, c, d] =>
    if a > 0xff ∨ b > 0xff ∨ c > 0xff ∨ d > 0xff then none
    else some (bor (bor (bor (shl a 24) (shl b 16)) (shl c 8)) d)
  | _ => none

/-- The four octets, joined. -/
def dotted (x : ℤ) : JsString :=
  join (unit '.') ([band (ushr x 24) 0xff, band (ushr x 16) 0xff, band (ushr x 8) 0xff, band x 0xff].map
    fun o => decText o.toNat)

/-- A literal of one to four numbers. -/
def numericLiteral (parts : List JsString) : Option JsString :=
  if parts.length < 1 ∨ 4 < parts.length then none
  else if !parts.all isIpPart then none
  else match parts.mapM fun s => parseInt s (partRadix s) with
    | none => none
    | some nums => if nums.any fun n => n < 0 then none else (ip32 nums).map dotted

def normalizeToIPv4 (p : Platform) (raw : JsString) : Option JsString :=
  let s := p.toLowerCase (stripBrackets raw)
  match mappedQuad s with
  | some q => some q
  | none =>
    match mappedGroups s with
    | some (hi, lo) => some (quadText (hi / 256) (hi % 256) (lo / 256) (lo % 256))
    | none => numericLiteral (s.splitOn (unit '.'))

/-! ### Bits -/

theorem bits_natCast (n : ℕ) : bits n = BitVec.ofNat 32 n := by
  unfold bits
  rw [BitVec.ofInt_natCast]

theorem bits_shl (x : ℤ) (k : ℕ) : bits (shl x k) = bits x <<< k := BitVec.ofInt_toInt

theorem bits_bor (x y : ℤ) : bits (bor x y) = bits x ||| bits y := BitVec.ofInt_toInt

/-- Bits that do not overlap are added. -/
theorem or_ofNat {a b k : ℕ} (ha : 2 ^ k ∣ a) (hb : b < 2 ^ k) :
    (BitVec.ofNat 32 a ||| BitVec.ofNat 32 b) = BitVec.ofNat 32 (a + b) := by
  obtain ⟨q, rfl⟩ := ha
  rw [← BitVec.ofNat_or, ← Nat.two_pow_add_eq_or_of_lt hb]

theorem shl_ofNat (a k : ℕ) : BitVec.ofNat 32 a <<< k = BitVec.ofNat 32 (a * 2 ^ k) := by
  apply BitVec.eq_of_toNat_eq
  rw [BitVec.toNat_shiftLeft, BitVec.toNat_ofNat, BitVec.toNat_ofNat, Nat.shiftLeft_eq, Nat.mod_mul_mod]

/-- The last eight bits of a number whose bits are known. -/
theorem band_octet {x : ℤ} {n : ℕ} (hn : n < 2 ^ 32) (hx : bits x = BitVec.ofNat 32 n) :
    (band x 0xff).toNat = n % 256 := by
  have hand : (bits x &&& bits 0xff).toNat = n % 256 := by
    rw [hx, BitVec.toNat_and, BitVec.toNat_ofNat, Nat.mod_eq_of_lt hn]
    exact Nat.and_two_pow_sub_one_eq_mod n 8
  unfold band
  rw [BitVec.toInt_eq_toNat_of_lt (by rw [hand]; omega), hand, Int.toNat_natCast]

theorem bits_ushr {x : ℤ} {n : ℕ} (hn : n < 2 ^ 32) (hx : bits x = BitVec.ofNat 32 n) (k : ℕ) :
    bits (ushr x k) = BitVec.ofNat 32 (n / 2 ^ k) := by
  unfold ushr
  rw [bits_natCast, hx, BitVec.toNat_ushiftRight, BitVec.toNat_ofNat, Nat.mod_eq_of_lt hn,
    Nat.shiftRight_eq_div_pow]

theorem dotted_eq {x : ℤ} {n : ℕ} (hn : n < 2 ^ 32) (hx : bits x = BitVec.ofNat 32 n) :
    dotted x = ipv4Text n := by
  have hshift : ∀ k, (band (ushr x k) 0xff).toNat = n / 2 ^ k % 256 := fun k =>
    band_octet ((Nat.div_le_self n _).trans_lt hn) (bits_ushr hn hx k)
  unfold dotted ipv4Text octets
  simp only [List.map_cons, List.map_nil, hshift, band_octet hn hx]

/-! ### Rounding -/

/-- What `parseInt` makes of the value `n`: it rounds only beyond every bound that is checked. -/
def Rounds (n : ℕ) (z : ℤ) : Prop := z = n ∨ (2 ^ 53 ≤ n ∧ 2 ^ 53 ≤ z)

theorem ulpExp_natCast {n : ℕ} (h : 0 < n) : ulpExp (n : ℚ) = Nat.log 2 n - 52 := by
  unfold ulpExp
  rw [abs_of_nonneg (by positivity), Int.log_natCast]
  omega

theorem roundDouble_natCast {n : ℕ} (h : n < 2 ^ 53) : roundDouble (n : ℚ) = some (n : ℚ) := by
  rcases Nat.eq_zero_or_pos n with rfl | hpos
  · rfl
  have hlog : Nat.log 2 n < 53 := Nat.log_lt_of_lt_pow hpos.ne' h
  obtain ⟨k, hk⟩ := Nat.exists_eq_add_of_le (show Nat.log 2 n ≤ 52 by omega)
  have hexp : ulpExp (n : ℚ) = -(k : ℤ) := by
    rw [ulpExp_natCast hpos]
    omega
  refine roundDouble_of_int (z := n * 2 ^ k) ?_ ?_
  · rw [hexp, zpow_neg, zpow_natCast]
    push_cast
    field_simp
  · rw [abs_of_nonneg (by positivity), not_le]
    have hlt : (n : ℚ) < 2 ^ 53 := by exact_mod_cast h
    exact hlt.trans (pow_lt_pow_right₀ (by norm_num) (by norm_num))

theorem roundDouble_big {n : ℕ} (h : 2 ^ 53 ≤ n) {v : ℚ} (hv : roundDouble (n : ℚ) = some v) :
    (2 : ℚ) ^ 53 ≤ v := by
  have hpos : 0 < n := lt_of_lt_of_le (by norm_num) h
  have hlog : 53 ≤ Nat.log 2 n := Nat.le_log_of_pow_le (by norm_num) h
  obtain ⟨k, hk⟩ := Nat.exists_eq_add_of_le hlog
  have hexp : ulpExp (n : ℚ) = ((k + 1 : ℕ) : ℤ) := by
    rw [ulpExp_natCast hpos]
    omega
  obtain ⟨hval, -⟩ := roundDouble_eq_some (by exact_mod_cast hpos.ne') hv
  rw [hexp, zpow_natCast] at hval
  -- the mantissa has all of its bits
  have hmant : ((2 ^ 52 : ℤ) : ℚ) ≤ (n : ℚ) / 2 ^ (k + 1) := by
    rw [le_div_iff₀ (by positivity)]
    have hpow : 2 ^ Nat.log 2 n ≤ n := Nat.pow_log_le_self 2 hpos.ne'
    have hsplit : 2 ^ 52 * 2 ^ (k + 1) = 2 ^ Nat.log 2 n := by
      rw [← pow_add]
      congr 1
      omega
    rw [← hsplit] at hpow
    exact_mod_cast hpow
  have hround : (2 ^ 52 : ℤ) ≤ roundHalfEven ((n : ℚ) / 2 ^ (k + 1)) := by
    have hfloor := Int.le_floor.mpr hmant
    rcases roundHalfEven_cases ((n : ℚ) / 2 ^ (k + 1)) with hr | hr <;> omega
  have hone : (1 : ℚ) ≤ 2 ^ k := one_le_pow₀ (by norm_num)
  rw [hval, pow_succ (2 : ℚ) k]
  calc (2 : ℚ) ^ 53 = ((2 ^ 52 : ℤ) : ℚ) * (1 * 2) := by norm_num
    _ ≤ (roundHalfEven ((n : ℚ) / (2 ^ k * 2)) : ℚ) * (2 ^ k * 2) := by
      refine mul_le_mul ?_ (by linarith) (by norm_num) ?_
      · rw [← pow_succ]
        exact_mod_cast hround
      · rw [← pow_succ]
        exact_mod_cast (show (0 : ℤ) ≤ 2 ^ 52 by norm_num).trans hround

theorem rounds_parseInt {s : JsString} {radix n : ℕ}
    (h : readBase radix (if radix = 16 then s.drop 2 else s) = some n) :
    (∃ z, parseInt s radix = some z ∧ Rounds n z) ∨ (parseInt s radix = none ∧ 2 ^ 53 ≤ n) := by
  unfold parseInt
  rw [h, Option.bind_some]
  rcases Nat.lt_or_ge n (2 ^ 53) with hlt | hge
  · left
    rw [roundDouble_natCast hlt]
    exact ⟨n, by simp, .inl rfl⟩
  · cases hv : roundDouble (n : ℚ) with
    | none => exact .inr ⟨rfl, hge⟩
    | some v =>
      refine .inl ⟨⌊v⌋, rfl, .inr ⟨hge, Int.le_floor.mpr ?_⟩⟩
      exact_mod_cast roundDouble_big hge hv

/-- Rounding does not move a value across a bound that is checked. -/
theorem Rounds.gt_iff {n b : ℕ} {z c : ℤ} (h : Rounds n z) (hc : c = b) (hb : b < 2 ^ 53) :
    z > c ↔ b < n := by
  rcases h with rfl | ⟨hn, hz⟩ <;> omega

theorem Rounds.byte {n : ℕ} {z : ℤ} (h : Rounds n z) : z > 0xff ↔ 0xff < n := h.gt_iff rfl (by norm_num)

theorem Rounds.exact {n : ℕ} {z : ℤ} (h : Rounds n z) (hn : n < 2 ^ 53) : z = n := by
  rcases h with rfl | ⟨hge, -⟩
  · rfl
  · omega

/-! ### The parts -/

/-- A hexadecimal part. -/
theorem hex_part (ds : JsString) :
    partRadix (48 :: 120 :: ds) = 16 ∧ isIpPart (48 :: 120 :: ds) =
      (!ds.isEmpty && ds.all fun d => isDigit d || (97 ≤ d && d ≤ 102)) ∧
    ipNumber (48 :: 120 :: ds) =
      if ds.all fun d => isDigit d || (97 ≤ d && d ≤ 102) then readBase 16 ds else none :=
  ⟨rfl, rfl, rfl⟩

/-- An octal part. -/
theorem octal_part {d : UInt16} (h : d ≠ 120) (ds : JsString) :
    partRadix (48 :: d :: ds) = 8 ∧ isIpPart (48 :: d :: ds) = ((d :: ds).all fun d => 48 ≤ d && d ≤ 55) ∧
    ipNumber (48 :: d :: ds) =
      if (d :: ds).all fun d => 48 ≤ d && d ≤ 55 then readBase 8 (48 :: d :: ds) else none := by
  refine ⟨?_, ?_, ?_⟩
  · have h0x : startsWith (48 :: d :: ds) (js "0x") = false := by
      show (48 == (48 : UInt16) && ((120 : UInt16) == d && List.isPrefixOf [] ds)) = false
      simp [Ne.symm h]
    unfold partRadix
    rw [h0x]
    rfl
  · unfold isIpPart
    split
    · rename_i heq
      cases heq
      exact absurd rfl h
    · rename_i heq
      cases heq
      rfl
    · rename_i hne heq
      cases heq
      exact absurd rfl hne
    · rename_i heq
      cases heq
  · exact if_neg h

/-- A decimal part. -/
theorem decimal_part {d : UInt16} (h : d ≠ 48) (ds : JsString) :
    partRadix (d :: ds) = 10 ∧ isIpPart (d :: ds) = ((49 ≤ d && d ≤ 57) && ds.all isDigit) ∧
    ipNumber (d :: ds) = if (d :: ds).all isDigit then readBase 10 (d :: ds) else none := by
  have hd : ∀ t : JsString, startsWith (d :: ds) (48 :: t) = false := by
    intro t
    show ((48 : UInt16) == d && List.isPrefixOf t ds) = false
    simp [Ne.symm h]
  refine ⟨?_, ?_, ?_⟩
  · unfold partRadix
    rw [show js "0x" = 48 :: [120] from rfl, show js "0" = 48 :: [] from rfl, hd, hd]
    rfl
  · unfold isIpPart
    split
    · rename_i heq
      cases heq
      exact absurd rfl h
    · rename_i heq
      cases heq
      exact absurd rfl h
    · rename_i heq
      cases heq
      rfl
    · rename_i heq
      cases heq
  · unfold ipNumber
    split
    · rename_i heq
      cases heq
    · rename_i heq
      cases heq
      exact absurd rfl h
    · rfl

/-- The pattern and the radix, against the reader of a part. -/
theorem ipNumber_eq (s : JsString) : ipNumber s =
    if isIpPart s then readBase (partRadix s) (if partRadix s = 16 then s.drop 2 else s) else none := by
  rcases s with _ | ⟨c, s⟩
  · rfl
  by_cases hc : c = 48
  · subst hc
    rcases s with _ | ⟨d, s⟩
    · rfl
    by_cases hd : d = 120
    · subst hd
      obtain ⟨hradix, hpart, hnum⟩ := hex_part s
      rw [hradix, hpart, hnum]
      cases s with
      | nil => rfl
      | cons e s => simp
    · obtain ⟨hradix, hpart, hnum⟩ := octal_part hd s
      rw [hradix, hpart, hnum]
      rfl
  · obtain ⟨hradix, hpart, hnum⟩ := decimal_part hc s
    have hfirst : isDigit c = (decide (49 ≤ c) && decide (c ≤ 57)) := by
      have hne : c.toNat ≠ 48 := fun h => hc (UInt16.toNat_inj.mp h)
      rw [Bool.eq_iff_iff]
      simp only [isDigit, Bool.and_eq_true, decide_eq_true_eq, UInt16.le_iff_toNat_le, UInt16.reduceToNat]
      omega
    rw [hradix, hpart, hnum, List.all_cons, hfirst]
    rfl

/-- **The shifts put the parts together** as addition does. -/
theorem ip32_eq {ns : List ℕ} {zs : List ℤ} (h : List.Forall₂ Rounds ns zs) :
    (ip32 zs).map dotted = (ipValue ns).map ipv4Text := by
  rcases h with _ | ⟨h1, _ | ⟨h2, _ | ⟨h3, _ | ⟨h4, _ | ⟨h5, h⟩⟩⟩⟩⟩
  · rfl
  · rename_i a x
    unfold ip32 ipValue
    dsimp only
    simp only [h1.gt_iff (c := 0xffffffff) rfl (by norm_num)]
    split_ifs with hc
    · rfl
    · obtain rfl := h1.exact (by omega)
      exact congrArg some (dotted_eq (by omega) (bits_natCast a))
  · rename_i a x b y
    unfold ip32 ipValue
    dsimp only
    simp only [h1.byte, h2.gt_iff (c := 0xffffff) rfl (by norm_num)]
    split_ifs with hc
    · rfl
    · simp only [not_or, not_lt] at hc
      obtain rfl := h1.exact (by omega)
      obtain rfl := h2.exact (by omega)
      refine congrArg some (dotted_eq (by omega) ?_)
      simp only [bits_bor, bits_shl, bits_natCast, shl_ofNat]
      rw [or_ofNat (k := 24) (by omega) (by omega)]
  · rename_i a x b y c z
    unfold ip32 ipValue
    dsimp only
    simp only [h1.byte, h2.byte, h3.gt_iff (c := 0xffff) rfl (by norm_num)]
    split_ifs with hc
    · rfl
    · simp only [not_or, not_lt] at hc
      obtain rfl := h1.exact (by omega)
      obtain rfl := h2.exact (by omega)
      obtain rfl := h3.exact (by omega)
      refine congrArg some (dotted_eq (by omega) ?_)
      simp only [bits_bor, bits_shl, bits_natCast, shl_ofNat]
      rw [or_ofNat (k := 24) (by omega) (by omega), or_ofNat (k := 16) (by omega) (by omega)]
  · rename_i a x b y c z d w
    unfold ip32 ipValue
    dsimp only
    simp only [h1.byte, h2.byte, h3.byte, h4.byte]
    split_ifs with hc
    · rfl
    · simp only [not_or, not_lt] at hc
      obtain rfl := h1.exact (by omega)
      obtain rfl := h2.exact (by omega)
      obtain rfl := h3.exact (by omega)
      obtain rfl := h4.exact (by omega)
      refine congrArg some (dotted_eq (by omega) ?_)
      simp only [bits_bor, bits_shl, bits_natCast, shl_ofNat]
      rw [or_ofNat (k := 24) (by omega) (by omega), or_ofNat (k := 16) (by omega) (by omega),
        or_ofNat (k := 8) (by omega) (by omega)]
  · rfl

/-- A part that is too large makes the literal no address. -/
theorem ipValue_big : ∀ {ns : List ℕ} {n : ℕ}, n ∈ ns → 2 ^ 53 ≤ n → ipValue ns = none
  | [a], n, hn, h => by
    rw [List.mem_singleton] at hn
    exact if_pos (by omega)
  | [a, b], n, hn, h => by
    simp only [List.mem_cons, List.not_mem_nil, or_false] at hn
    exact if_pos (by omega)
  | [a, b, c], n, hn, h => by
    simp only [List.mem_cons, List.not_mem_nil, or_false] at hn
    exact if_pos (by omega)
  | [a, b, c, d], n, hn, h => by
    simp only [List.mem_cons, List.not_mem_nil, or_false] at hn
    exact if_pos (by omega)
  | _ :: _ :: _ :: _ :: _ :: _, _, _, _ => rfl

/-- One part, as a double and exactly. -/
theorem part_cases {s : JsString} (h : isIpPart s = true) :
    (ipNumber s = none ∧ parseInt s (partRadix s) = none) ∨
      ∃ n, ipNumber s = some n ∧ ((∃ z, parseInt s (partRadix s) = some z ∧ Rounds n z) ∨
        (parseInt s (partRadix s) = none ∧ 2 ^ 53 ≤ n)) := by
  rw [ipNumber_eq, if_pos h]
  cases hn : readBase (partRadix s) (if partRadix s = 16 then s.drop 2 else s) with
  | none =>
    refine .inl ⟨rfl, ?_⟩
    unfold parseInt
    rw [hn]
    rfl
  | some n => exact .inr ⟨n, rfl, rounds_parseInt hn⟩

/-- All parts, as doubles and exactly. -/
theorem parts_cases : ∀ {parts : List JsString}, parts.all isIpPart = true →
    (parts.mapM ipNumber = none ∧ (parts.mapM fun s => parseInt s (partRadix s)) = none) ∨
      ∃ ns, parts.mapM ipNumber = some ns ∧
        ((∃ zs, (parts.mapM fun s => parseInt s (partRadix s)) = some zs ∧ List.Forall₂ Rounds ns zs) ∨
          ((parts.mapM fun s => parseInt s (partRadix s)) = none ∧ ∃ n ∈ ns, 2 ^ 53 ≤ n))
  | [], _ => .inr ⟨[], rfl, .inl ⟨[], rfl, .nil⟩⟩
  | s :: parts, h => by
    rw [List.all_cons, Bool.and_eq_true] at h
    rw [List.mapM_cons, List.mapM_cons]
    rcases part_cases h.1 with ⟨hn, hz⟩ | ⟨n, hn, hz⟩
    · exact .inl ⟨by rw [hn]; rfl, by rw [hz]; rfl⟩
    rcases parts_cases h.2 with ⟨hns, hzs⟩ | ⟨ns, hns, hzs⟩
    · refine .inl ⟨by rw [hn, hns]; rfl, ?_⟩
      rw [hzs]
      cases parseInt s (partRadix s) <;> rfl
    · refine .inr ⟨n :: ns, by rw [hn, hns]; rfl, ?_⟩
      rcases hz with ⟨z, hz, hround⟩ | ⟨hz, hbig⟩
      · rcases hzs with ⟨zs, hzs, hrounds⟩ | ⟨hzs, m, hm, hbig⟩
        · exact .inl ⟨z :: zs, by rw [hz, hzs]; rfl, .cons hround hrounds⟩
        · exact .inr ⟨by rw [hz, hzs]; rfl, m, List.mem_cons_of_mem _ hm, hbig⟩
      · exact .inr ⟨by rw [hz]; rfl, n, List.mem_cons_self, hbig⟩

theorem Rounds.nonneg {n : ℕ} {z : ℤ} (h : Rounds n z) : 0 ≤ z := by
  rcases h with rfl | ⟨-, hz⟩ <;> omega

theorem ipValue_length : ∀ {ns : List ℕ}, ns.length < 1 ∨ 4 < ns.length → ipValue ns = none
  | [], _ => rfl
  | [_], h => by simp at h
  | [_, _], h => by simp at h
  | [_, _, _], h => by simp at h
  | [_, _, _, _], h => by simp at h
  | _ :: _ :: _ :: _ :: _ :: _, _ => rfl

theorem mapM_ipNumber_none {parts : List JsString} (h : ¬parts.all isIpPart = true) :
    parts.mapM ipNumber = none := by
  induction parts with
  | nil => simp at h
  | cons s parts ih =>
    rw [List.mapM_cons]
    by_cases hs : isIpPart s = true
    · rw [ih (by simpa [hs] using h)]
      cases ipNumber s <;> rfl
    · rw [ipNumber_eq, if_neg hs]
      rfl

/-- **Rounding and 32-bit integers change nothing.** -/
theorem numericLiteral_eq (parts : List JsString) :
    numericLiteral parts = ((parts.mapM ipNumber).bind ipValue).map ipv4Text := by
  unfold numericLiteral
  split_ifs with hlen hall
  · cases hns : parts.mapM ipNumber with
    | none => rfl
    | some ns =>
      rw [Option.bind_some, ipValue_length (by rw [← (mapM_eq_some.mp hns).length_eq]; exact hlen)]
      rfl
  · rw [mapM_ipNumber_none (by simpa using hall)]
    rfl
  · rcases parts_cases (by simpa using hall) with ⟨hns, hzs⟩ | ⟨ns, hns, ⟨zs, hzs, hrounds⟩ | ⟨hzs, n, hn, hbig⟩⟩
    · rw [hns, hzs]
      rfl
    · have hneg : (zs.any fun n => n < 0) = false := by
        rw [List.any_eq_false]
        intro z hz
        obtain ⟨n, -, hround⟩ := forall₂_mem_right hrounds z hz
        simpa using hround.nonneg
      rw [hns, hzs]
      dsimp only
      rw [if_neg (by rw [hneg]; decide), Option.bind_some, ip32_eq hrounds]
    · rw [hns, hzs, Option.bind_some, ipValue_big hn hbig]
      rfl

theorem normalizeToIPv4_eq (p : Platform) (raw : JsString) :
    normalizeToIPv4 p raw = Runtime.normalizeToIPv4 p raw := by
  unfold normalizeToIPv4 Runtime.normalizeToIPv4
  dsimp only
  cases mappedQuad (p.toLowerCase (stripBrackets raw)) with
  | some q => rfl
  | none =>
    dsimp only
    cases mappedGroups (p.toLowerCase (stripBrackets raw)) with
    | some g => rfl
    | none =>
      dsimp only
      rw [numericLiteral_eq]
      cases ((p.toLowerCase (stripBrackets raw)).splitOn (unit '.')).mapM ipNumber |>.bind ipValue <;> rfl

end Doubles

/-! ### What a literal means -/

/-- The digits of `n` in a base. -/
def HasDigits (base : ℕ) (s : JsString) (n : ℕ) : Prop :=
  ∃ ds, List.Forall₂ (fun c d => digitIn base c = some d) s ds ∧ n = Nat.ofDigits base ds.reverse

/-- **The spellings of a number**: decimal without a zero in front, octal with one (so `0` itself), hexadecimal
with `0x`. -/
inductive IpNumeral : JsString → ℕ → Prop
  | decimal {c : UInt16} {s : JsString} {n : ℕ} (h : HasDigits 10 (c :: s) n) (h0 : c ≠ 48) : IpNumeral (c :: s) n
  | octal {s : JsString} {n : ℕ} (h : HasDigits 8 s n) : IpNumeral (48 :: s) n
  | hex {x : UInt16} {s : JsString} {n : ℕ} (hx : x = unit 'x' ∨ x = unit 'X') (hne : s ≠ [])
      (h : HasDigits 16 s n) : IpNumeral (48 :: x :: s) n

/-- The text is one to four numbers with dots between them. -/
structure Spells (s : JsString) (lead : List ℕ) (last : ℕ) : Prop where
  short : lead.length ≤ 3
  parts : ∃ ps q, List.Forall₂ IpNumeral ps lead ∧ IpNumeral q last ∧ s = join (unit '.') (ps ++ [q])

/-- The leading numbers are bytes, and the last one fits in what is left. -/
def NumbersFit (lead : List ℕ) (last : ℕ) : Prop := (∀ b ∈ lead, b ≤ 255) ∧ last < 256 ^ (4 - lead.length)

instance (lead : List ℕ) (last : ℕ) : Decidable (NumbersFit lead last) := inferInstanceAs (Decidable (_ ∧ _))

/-- The 32-bit address: the leading numbers as bytes, the last one in the bytes that are left. -/
def inetAton (lead : List ℕ) (last : ℕ) : ℕ :=
  Nat.ofDigits 256 lead.reverse * 256 ^ (4 - lead.length) + last

theorem foldl_ofDigits (b : ℕ) : ∀ (ds : List ℕ) (a : ℕ),
    ds.foldl (fun a d => a * b + d) a = a * b ^ ds.length + Nat.ofDigits b ds.reverse
  | [], a => by simp
  | d :: ds, a => by
    rw [List.foldl_cons, foldl_ofDigits, List.reverse_cons, Nat.ofDigits_append, List.length_reverse,
      Nat.ofDigits_singleton, List.length_cons, pow_succ]
    ring

theorem readBase_digits {base : ℕ} {s : JsString} {n : ℕ} (h : HasDigits base s n) (hne : s ≠ []) :
    readBase base s = some n := by
  obtain ⟨ds, hds, rfl⟩ := h
  have hfold : ∀ {s : JsString} {ds : List ℕ}, List.Forall₂ (fun c d => digitIn base c = some d) s ds →
      ∀ a, s.foldl (fun a c => do return (← a) * base + (← digitIn base c)) (some a) =
        some (ds.foldl (fun a d => a * base + d) a) := by
    intro s ds h
    induction h with
    | nil => exact fun _ => rfl
    | cons hd _ ih =>
      intro a
      rw [List.foldl_cons, List.foldl_cons, ← ih, hd]
      rfl
  unfold readBase
  rw [if_neg hne, hfold hds, foldl_ofDigits, Nat.zero_mul, Nat.zero_add]

/-- The bounds and the value, written out for each of the four forms. -/
theorem ipValue_form {ns : List ℕ} {bad : Prop} [Decidable bad] {v : ℕ} {lead : List ℕ} {last : ℕ}
    (h : ipValue ns = if bad then none else some v) (hfits : NumbersFit lead last ↔ ¬bad)
    (hvalue : inetAton lead last = v) :
    ipValue ns = if NumbersFit lead last then some (inetAton lead last) else none := by
  rw [h, hvalue]
  by_cases hb : bad
  · rw [if_pos hb, if_neg (by rw [hfits]; simpa using hb)]
  · rw [if_neg hb, if_pos (hfits.mpr hb)]

theorem ipValue_inetAton : ∀ {lead : List ℕ} (last : ℕ), lead.length ≤ 3 →
    ipValue (lead ++ [last]) = if NumbersFit lead last then some (inetAton lead last) else none
  | [], last, _ => by
    refine ipValue_form (show ipValue [last] = _ from rfl) ?_ (by simp [inetAton])
    simp [NumbersFit]
    omega
  | [a], last, _ => by
    refine ipValue_form (show ipValue [a, last] = _ from rfl) ?_ (by simp [inetAton])
    simp [NumbersFit]
    omega
  | [a, b], last, _ => by
    refine ipValue_form (show ipValue [a, b, last] = _ from rfl) ?_
      (by simp [inetAton, Nat.ofDigits_cons]; omega)
    simp [NumbersFit]
    omega
  | [a, b, c], last, _ => by
    refine ipValue_form (show ipValue [a, b, c, last] = _ from rfl) ?_
      (by simp [inetAton, Nat.ofDigits_cons]; omega)
    simp [NumbersFit]
    omega

theorem ipValue_lt : ∀ {ns : List ℕ} {n : ℕ}, ipValue ns = some n → n < 2 ^ 32
  | [_], n, h | [_, _], n, h | [_, _, _], n, h | [_, _, _, _], n, h => by
    unfold ipValue at h
    dsimp only at h
    split_ifs at h
    cases h
    omega

/-- The units of a digit. -/
theorem digitIn_unit {base d : ℕ} {c : UInt16} (h : digitIn base c = some d) (hbase : base ≤ 16) :
    d < base ∧ ((48 ≤ c.toNat ∧ c.toNat ≤ 57 ∧ d = c.toNat - 48) ∨
      (97 ≤ c.toNat ∧ c.toNat ≤ 102 ∧ d = c.toNat - 87) ∨ (65 ≤ c.toNat ∧ c.toNat ≤ 70 ∧ d = c.toNat - 55)) := by
  unfold digitIn at h
  dsimp only at h
  split_ifs at h <;> simp only [Option.some.injEq] at h <;> omega

theorem digitIn_lower (base : ℕ) (c : UInt16) :
    digitIn base (if 65 ≤ c ∧ c ≤ 90 then c + 32 else c) = digitIn base c := by
  split_ifs with h
  · have h1 := UInt16.le_iff_toNat_le.mp h.1
    have h2 := UInt16.le_iff_toNat_le.mp h.2
    have hadd : (c + 32).toNat = c.toNat + 32 := by
      rw [UInt16.toNat_add]
      simp only [UInt16.reduceToNat] at h1 h2 ⊢
      omega
    simp only [UInt16.reduceToNat] at h1 h2
    unfold digitIn
    rw [hadd]
    dsimp only
    have hn : ¬(48 ≤ c.toNat + 32 ∧ c.toNat + 32 ≤ 57) ∧ ¬(48 ≤ c.toNat ∧ c.toNat ≤ 57) ∧
        ¬(97 ≤ c.toNat ∧ c.toNat ≤ 102) ∧ ¬(65 ≤ c.toNat + 32 ∧ c.toNat + 32 ≤ 70) := by omega
    rw [if_neg hn.1, if_neg hn.2.1, if_neg hn.2.2.1, if_neg hn.2.2.2]
    have hsame : (97 ≤ c.toNat + 32 ∧ c.toNat + 32 ≤ 102) ↔ (65 ≤ c.toNat ∧ c.toNat ≤ 70) := by omega
    have hval : c.toNat + 32 - 87 = c.toNat - 55 := by omega
    simp only [hsame, hval]
  · rfl

theorem hasDigits_lower {base : ℕ} {s : JsString} {n : ℕ} (h : HasDigits base s n) :
    HasDigits base (asciiLower s) n := by
  obtain ⟨ds, hds, rfl⟩ := h
  refine ⟨ds, ?_, rfl⟩
  unfold asciiLower
  rw [List.forall₂_map_left_iff]
  exact hds.imp fun c d hd => by rw [digitIn_lower]; exact hd

theorem HasDigits.digit {base : ℕ} {s : JsString} {n : ℕ} (h : HasDigits base s n) {c : UInt16} (hc : c ∈ s) :
    ∃ d, digitIn base c = some d := by
  obtain ⟨ds, hds, -⟩ := h
  obtain ⟨d, -, hd⟩ := forall₂_mem_left hds c hc
  exact ⟨d, hd⟩

/-- Up to base ten the digits are the decimal ones. -/
theorem HasDigits.decimal {base : ℕ} {s : JsString} {n : ℕ} (h : HasDigits base s n) (hbase : base ≤ 10)
    {c : UInt16} (hc : c ∈ s) : 48 ≤ c.toNat ∧ c.toNat < 48 + base := by
  obtain ⟨d, hd⟩ := h.digit hc
  have hunit := digitIn_unit hd (by omega)
  omega

theorem asciiLower_decimal {base : ℕ} {s : JsString} {n : ℕ} (h : HasDigits base s n) (hbase : base ≤ 10) :
    asciiLower s = s := by
  refine asciiLower_eq_self fun c hc => ?_
  have hdec := h.decimal hbase hc
  simp only [UInt16.le_iff_toNat_le, UInt16.reduceToNat]
  omega

/-- A hexadecimal digit in lower case. -/
theorem hexDigit_lower {c : UInt16} {d : ℕ} (h : digitIn 16 c = some d) :
    (isDigit (if 65 ≤ c ∧ c ≤ 90 then c + 32 else c) ||
      (decide (97 ≤ (if 65 ≤ c ∧ c ≤ 90 then c + 32 else c)) &&
        decide ((if 65 ≤ c ∧ c ≤ 90 then c + 32 else c) ≤ 102))) = true := by
  obtain ⟨-, hunit⟩ := digitIn_unit h le_rfl
  rw [Bool.or_eq_true, isDigit_iff, Bool.and_eq_true, decide_eq_true_eq, decide_eq_true_eq]
  by_cases hup : 65 ≤ c ∧ c ≤ 90
  · rw [if_pos hup, UInt16.le_iff_toNat_le, UInt16.le_iff_toNat_le, UInt16.toNat_add]
    simp only [UInt16.le_iff_toNat_le, UInt16.reduceToNat] at hup ⊢
    omega
  · rw [if_neg hup]
    simp only [UInt16.le_iff_toNat_le, UInt16.reduceToNat] at hup ⊢
    omega

/-- A spelling in lower case is read as its number. -/
theorem ipNumber_numeral {s : JsString} {n : ℕ} (h : IpNumeral s n) : ipNumber (asciiLower s) = some n := by
  cases h with
  | @decimal c s n h h0 =>
    have hall : (c :: s).all isDigit = true := by
      rw [List.all_eq_true]
      intro x hx
      have := h.decimal le_rfl hx
      exact isDigit_iff.mpr (by omega)
    rw [asciiLower_decimal h le_rfl, (Doubles.decimal_part h0 s).2.2, if_pos hall]
    exact readBase_digits h (List.cons_ne_nil _ _)
  | @octal s n h =>
    have hlow : asciiLower (48 :: s) = 48 :: s := congrArg (48 :: ·) (asciiLower_decimal h (by norm_num))
    rw [hlow]
    cases s with
    | nil =>
      obtain ⟨ds, hds, rfl⟩ := h
      cases hds
      rfl
    | cons d s =>
      have hoct : ∀ x ∈ d :: s, 48 ≤ x.toNat ∧ x.toNat < 48 + 8 := fun x hx => h.decimal (by norm_num) hx
      have hd : d ≠ 120 := by
        rintro rfl
        have := hoct 120 List.mem_cons_self
        simp only [UInt16.reduceToNat] at this
        omega
      have hall : ((d :: s).all fun d => decide (48 ≤ d) && decide (d ≤ 55)) = true := by
        rw [List.all_eq_true]
        intro x hx
        have := hoct x hx
        simp only [Bool.and_eq_true, decide_eq_true_eq, UInt16.le_iff_toNat_le, UInt16.reduceToNat]
        omega
      have hzero : HasDigits 8 (48 :: d :: s) n := by
        obtain ⟨ds, hds, rfl⟩ := h
        refine ⟨0 :: ds, .cons rfl hds, ?_⟩
        rw [List.reverse_cons, Nat.ofDigits_append, Nat.ofDigits_singleton, Nat.mul_zero, Nat.add_zero]
      rw [(Doubles.octal_part hd s).2.2, if_pos hall]
      exact readBase_digits hzero (List.cons_ne_nil _ _)
  | @hex x s n hx hne h =>
    have hlow : asciiLower (48 :: x :: s) = 48 :: 120 :: asciiLower s := by
      rcases hx with rfl | rfl <;> rfl
    have hall : ((asciiLower s).all fun d => isDigit d || (97 ≤ d && d ≤ 102)) = true := by
      rw [List.all_eq_true]
      intro y hy
      obtain ⟨c, hc, rfl⟩ := List.mem_map.mp hy
      obtain ⟨d, hd⟩ := h.digit hc
      exact hexDigit_lower hd
    have hne' : asciiLower s ≠ [] := by
      unfold asciiLower
      simpa using hne
    rw [hlow, (Doubles.hex_part _).2.2, if_pos hall]
    exact readBase_digits (hasDigits_lower h) hne'

/-- No unit of a spelling is a bracket, a colon or a dot, and all are ASCII. -/
theorem unit_of_numeral {s : JsString} {n : ℕ} (h : IpNumeral s n) {c : UInt16} (hc : c ∈ s) :
    c.toNat < 128 ∧ c.toNat ≠ 91 ∧ c.toNat ≠ 93 ∧ c.toNat ≠ 58 ∧ c.toNat ≠ 46 := by
  cases h with
  | decimal h h0 =>
    have := h.decimal le_rfl hc
    omega
  | octal h =>
    rcases List.mem_cons.mp hc with rfl | hc
    · decide
    · have := h.decimal (by norm_num) hc
      omega
  | hex hx hne h =>
    rcases List.mem_cons.mp hc with rfl | hc
    · decide
    rcases List.mem_cons.mp hc with rfl | hc
    · rcases hx with rfl | rfl <;> decide
    · obtain ⟨d, hd⟩ := h.digit hc
      obtain ⟨-, hunit⟩ := digitIn_unit hd le_rfl
      omega

/-! ### The whole literal -/

theorem asciiLower_join (sep : UInt16) (hsep : asciiLower [sep] = [sep]) : ∀ l : List JsString,
    asciiLower (join sep l) = join sep (l.map asciiLower)
  | [] => rfl
  | [a] => by
    rw [join_singleton, List.map_singleton, join_singleton]
  | a :: b :: l => by
    have hcons : asciiLower (sep :: join sep (b :: l)) = sep :: asciiLower (join sep (b :: l)) := by
      have := List.head_eq_of_cons_eq hsep
      exact congrArg (· :: _) this
    rw [join_cons_cons, List.map_cons, List.map_cons, join_cons_cons, ← List.map_cons, ← asciiLower_join sep hsep,
      ← hcons]
    exact List.map_append

/-- The units of a literal. -/
theorem unit_of_spells {s : JsString} {lead : List ℕ} {last : ℕ} (h : Spells s lead last) {c : UInt16}
    (hc : c ∈ s) : c.toNat < 128 ∧ c.toNat ≠ 91 ∧ c.toNat ≠ 93 ∧ c.toNat ≠ 58 := by
  obtain ⟨ps, q, hps, hq, rfl⟩ := h.parts
  rcases mem_join hc with rfl | ⟨x, hx, hcx⟩
  · decide
  · obtain ⟨n, -, hn⟩ := forall₂_mem_left (List.rel_append hps (.cons hq .nil)) x hx
    have := unit_of_numeral hn hcx
    omega

/-- A unit in front of the small letters is in the text in lower case only if it is in the text. -/
theorem mem_of_mem_asciiLower {s : JsString} {b : UInt16} (hb : b.toNat < 97) (h : b ∈ asciiLower s) : b ∈ s := by
  obtain ⟨c, hc, hcb⟩ := List.mem_map.mp h
  split_ifs at hcb with hup
  · have hnat := congrArg UInt16.toNat hcb
    simp only [UInt16.toNat_add, UInt16.le_iff_toNat_le, UInt16.reduceToNat] at hnat hup
    omega
  · exact hcb ▸ hc

/-- A literal is read as its numbers. -/
theorem normalizeToIPv4_spells (p : Platform) (hp : p.AsciiCase) {s : JsString} {lead : List ℕ} {last : ℕ}
    (h : Spells s lead last) :
    normalizeToIPv4 p s = (ipValue (lead ++ [last])).map ipv4Text := by
  have hunits := fun c hc => unit_of_spells h (c := c) hc
  have hlow : p.toLowerCase (stripBrackets s) = asciiLower s := by
    rw [stripBrackets_of_not_mem (fun hm => (hunits _ hm).2.1 rfl) (fun hm => (hunits _ hm).2.2.1 rfl)]
    refine hp.lower s ?_
    unfold isAscii
    rw [List.all_eq_true]
    exact fun c hc => decide_eq_true (UInt16.lt_iff_toNat_lt.mpr (hunits c hc).1)
  have hcolon : unit ':' ∉ asciiLower s := fun hm =>
    (hunits _ (mem_of_mem_asciiLower (by decide) hm)).2.2.2 rfl
  have hquad : mappedQuad (asciiLower s) = none := by
    cases hq : mappedQuad (asciiLower s) with
    | none => rfl
    | some q => exact absurd (mappedQuad_eq_some hq).1 hcolon
  have hgroups : mappedGroups (asciiLower s) = none := by
    have hnone : afterMappedPrefix (asciiLower s) = none := by
      cases ha : afterMappedPrefix (asciiLower s) with
      | none => rfl
      | some r =>
        rw [afterMappedPrefix_eq_some ha] at hcolon
        exact absurd List.mem_cons_self hcolon
    unfold mappedGroups
    rw [hnone]
    rfl
  obtain ⟨ps, q, hps, hq, rfl⟩ := h.parts
  have hsplit : (asciiLower (join (unit '.') (ps ++ [q]))).splitOn (unit '.') = (ps ++ [q]).map asciiLower := by
    rw [asciiLower_join _ rfl]
    refine List.splitOn_intercalate _ (fun l hl hdot => ?_) (by simp)
    obtain ⟨x, hx, rfl⟩ := List.mem_map.mp hl
    obtain ⟨n, -, hn⟩ := forall₂_mem_left (List.rel_append hps (.cons hq .nil)) x hx
    exact (unit_of_numeral hn (mem_of_mem_asciiLower (by decide) hdot)).2.2.2.2 rfl
  have hnums : ((ps ++ [q]).map asciiLower).mapM ipNumber = some (lead ++ [last]) := by
    rw [mapM_eq_some, List.forall₂_map_left_iff]
    exact (List.rel_append hps (.cons hq .nil)).imp fun _ _ h => ipNumber_numeral h
  unfold normalizeToIPv4
  dsimp only
  rw [hlow, hquad, hgroups, hsplit, hnums]
  dsimp only
  rw [Option.bind_some]
  cases ipValue (lead ++ [last]) <;> rfl

/-- **Numeric literals are read as by `inet_aton`.** -/
theorem normalizeToIPv4_inetAton (p : Platform) (hp : p.AsciiCase) :
    (∀ s lead last, Spells s lead last → Doubles.normalizeToIPv4 p s =
      if NumbersFit lead last then some (ipv4Text (inetAton lead last)) else none) ∧
    (∀ s lead last s' lead' last', Spells s lead last → Spells s' lead' last' → NumbersFit lead last →
      NumbersFit lead' last' → inetAton lead last = inetAton lead' last' →
      Doubles.normalizeToIPv4 p s = Doubles.normalizeToIPv4 p s') ∧
    (∀ s lead last ip, Spells s lead last → Doubles.normalizeToIPv4 p s = some ip →
      (isPrivateIPv4 ip = true ↔ Blocked4 (inetAton lead last))) := by
  have hread : ∀ s lead last, Spells s lead last → Doubles.normalizeToIPv4 p s =
      if NumbersFit lead last then some (ipv4Text (inetAton lead last)) else none := by
    intro s lead last h
    rw [Doubles.normalizeToIPv4_eq, normalizeToIPv4_spells p hp h, ipValue_inetAton last h.short]
    split_ifs <;> rfl
  refine ⟨hread, ?_, ?_⟩
  · intro s lead last s' lead' last' h h' hf hf' hsame
    rw [hread _ _ _ h, hread _ _ _ h', if_pos hf, if_pos hf', hsame]
  · intro s lead last ip h hip
    rw [hread _ _ _ h] at hip
    split_ifs at hip with hf
    cases hip
    exact isPrivateIPv4_iff (ipValue_lt (by rw [ipValue_inetAton last h.short, if_pos hf]))

namespace Sample

theorem spells_loopback : Spells (js "0X7f.1") [127] 1 where
  short := by decide
  parts := ⟨[js "0X7f"], js "1",
    .cons (.hex (.inr rfl) (List.cons_ne_nil _ _) ⟨[7, 15], .cons rfl (.cons rfl .nil), rfl⟩) .nil,
    .decimal ⟨[1], .cons rfl .nil, rfl⟩ (by decide), rfl⟩

/-- `http://0X7f.1/` is the loopback address. -/
theorem loopback_literal : Doubles.normalizeToIPv4 guardTables.platform (js "0X7f.1") = some (js "127.0.0.1") :=
  ((normalizeToIPv4_inetAton guardTables.platform guardTables.asciiCase).1 _ _ _ spells_loopback).trans
    (by decide)

end Sample

end ConsensusNode.Runtime
