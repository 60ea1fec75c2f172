import ConsensusNode.Tickets.Authenticity

/-! # The length encoding

`le64` of `tickets/paseto.ts` as the loop that it is, over doubles: in each round a byte is the remainder modulo
256, and the quotient is rounded to a double before `Math.floor`. `Paseto` has the bytes of a natural number.

* `Doubles.le64_eq`: the loop writes these bytes.
* `pae_unambiguous`: the encoding of the lengths is little-endian, and that of the pieces is injective. -/

namespace ConsensusNode.Tickets

open Js

namespace Doubles

/-- `x % y` for `0 ≤ x` and `0 < y`; it is exact. -/
def rem (x y : ℚ) : ℚ := x - y * ⌊x / y⌋

/-- `Math.floor(x / y)`. -/
def floorDiv (x y : ℚ) : ℚ := ⌊(roundDouble (x / y)).getD 0⌋

/-- What a byte of a buffer keeps of an integer. -/
def toUint8 (x : ℚ) : UInt8 := UInt8.ofNat (⌊x⌋ % 256).toNat

/-- One round: `buf` and `value`. -/
def le64Round (s : Bytes × ℚ) (i : ℕ) : Bytes × ℚ := (s.1.set i (toUint8 (rem s.2 256)), floorDiv s.2 256)

def le64 (n : ℕ) : Bytes :=
  let buf := ((List.range 8).foldl le64Round (List.replicate 8 0, (n : ℚ))).1
  buf.set 7 (buf.getD 7 0 &&& 0x7f)

theorem floor_div_256 (n : ℕ) : ⌊(n : ℚ) / 256⌋ = ((n / 256 : ℕ) : ℤ) := by
  exact_mod_cast Rat.floor_natCast_div_natCast n 256

theorem rem_natCast (n : ℕ) : rem (n : ℚ) 256 = (n % 256 : ℕ) := by
  have hmod : 256 * ((n / 256 : ℕ) : ℚ) + ((n % 256 : ℕ) : ℚ) = n := by exact_mod_cast Nat.div_add_mod n 256
  unfold rem
  rw [floor_div_256, Int.cast_natCast]
  linarith

theorem toUint8_natCast (n : ℕ) : toUint8 ((n % 256 : ℕ) : ℚ) = UInt8.ofNat (n % 256) := by
  unfold toUint8
  rw [Int.floor_natCast]
  congr 1
  omega

/-- A double has a place for every bit of the quotient. -/
theorem roundDouble_div_256 {n : ℕ} (h : n < 2 ^ 53) : roundDouble ((n : ℚ) / 256) = some ((n : ℚ) / 256) := by
  rcases Nat.eq_zero_or_pos n with rfl | hpos
  · simp [roundDouble]
  have hq : (0 : ℚ) < n / 256 := by positivity
  have hn : (n : ℚ) < 2 ^ 53 := by exact_mod_cast h
  have hlt : (n : ℚ) / 256 < ((2 : ℕ) : ℚ) ^ (45 : ℤ) := by
    rw [div_lt_iff₀ (by norm_num)]
    exact hn.trans_le (by norm_num)
  have hlog : Int.log 2 ((n : ℚ) / 256) < 45 := (Int.lt_zpow_iff_log_lt (by norm_num) hq).mp hlt
  have hexp : ulpExp ((n : ℚ) / 256) ≤ -8 := by
    unfold ulpExp
    rw [abs_of_pos hq]
    omega
  obtain ⟨k, hk⟩ := Int.eq_ofNat_of_zero_le (show 0 ≤ -8 - ulpExp ((n : ℚ) / 256) by omega)
  have hulp : ulpExp ((n : ℚ) / 256) = -((8 + k : ℕ) : ℤ) := by
    push_cast
    omega
  refine roundDouble_of_int (z := n * 2 ^ k) ?_ ?_
  · rw [hulp, zpow_neg, zpow_natCast, pow_add]
    push_cast
    field_simp
    norm_num
  · rw [abs_of_pos hq, not_le]
    have hpow : ((2 : ℕ) : ℚ) ^ (45 : ℤ) < 2 ^ 1024 := by
      rw [Nat.cast_ofNat, ← zpow_natCast]
      exact zpow_lt_zpow_right₀ (by norm_num) (by norm_num)
    exact hlt.trans hpow

theorem floorDiv_natCast {n : ℕ} (h : n < 2 ^ 53) : floorDiv (n : ℚ) 256 = (n / 256 : ℕ) := by
  unfold floorDiv
  rw [roundDouble_div_256 h, Option.getD_some, floor_div_256, Int.cast_natCast]

theorem leBytes_succ (k n : ℕ) : leBytes (k + 1) n = leBytes k n ++ [UInt8.ofNat (n / 256 ^ k % 256)] := by
  induction k generalizing n with
  | zero => simp [leBytes]
  | succ k ih =>
    rw [leBytes, ih, leBytes, pow_succ', Nat.div_div_eq_div_mul]
    rfl

/-- **The loop invariant.** After `k` rounds the first `k` bytes are written, and `value` is what is left. -/
theorem le64_rounds {n : ℕ} (h : n < 2 ^ 53) : ∀ {k : ℕ}, k ≤ 8 →
    (List.range k).foldl le64Round (List.replicate 8 0, (n : ℚ)) =
      (leBytes k n ++ List.replicate (8 - k) 0, ((n / 256 ^ k : ℕ) : ℚ))
  | 0, _ => by simp [leBytes]
  | k + 1, hk => by
    have hleft : n / 256 ^ k < 2 ^ 53 := (Nat.div_le_self _ _).trans_lt h
    have hzeros : List.replicate (8 - k) (0 : UInt8) = 0 :: List.replicate (8 - (k + 1)) 0 := by
      rw [← List.replicate_succ, show 8 - (k + 1) + 1 = 8 - k by omega]
    rw [List.range_succ, List.foldl_append, le64_rounds h (by omega), List.foldl_cons, List.foldl_nil, le64Round,
      rem_natCast, toUint8_natCast, floorDiv_natCast hleft, Nat.div_div_eq_div_mul, ← pow_succ, hzeros,
      leBytes_succ, List.append_assoc]
    congr 1
    rw [List.set_append_right _ _ (by simp), length_leBytes, Nat.sub_self]
    rfl

theorem le64_eq {n : ℕ} (h : n < 2 ^ 53) : le64 n = Tickets.le64 n := by
  unfold le64 Tickets.le64
  rw [le64_rounds h le_rfl]
  simp [leBytes]

end Doubles

/-- The value of the bytes, the least significant first. -/
theorem ofDigits_leBytes (k n : ℕ) : Nat.ofDigits 256 ((leBytes k n).map UInt8.toNat) = n % 256 ^ k := by
  induction k generalizing n with
  | zero => simp [leBytes, Nat.mod_one]
  | succ k ih =>
    have hbyte : (UInt8.ofNat (n % 256)).toNat = n % 256 := UInt8.toNat_ofNat_of_lt' (Nat.mod_lt _ (by norm_num))
    rw [leBytes, List.map_cons, Nat.ofDigits_cons, ih, hbyte, pow_succ', Nat.mod_mul]

/-- The byte that holds the top bit. -/
theorem top_le64 (n : ℕ) : ((le64 n).getD 7 0).toNat < 128 := by
  have hand : ∀ b : ℕ, b &&& 127 < 128 := fun b => Nat.and_lt_two_pow (n := 7) b (by decide)
  simpa [le64, leBytes] using hand _

/-- **Pre-authentication encoding is injective**, and the lengths in it are little-endian numbers of eight bytes with
the top bit clear, as the loop over doubles writes them. -/
theorem pae_unambiguous :
    (∀ xs ys : List Bytes, (∀ x ∈ xs, x.length < 2 ^ 53) → (∀ y ∈ ys, y.length < 2 ^ 53) → pae xs = pae ys →
      xs = ys) ∧
    ∀ n < 2 ^ 53, Doubles.le64 n = le64 n ∧ (le64 n).length = 8 ∧
      Nat.ofDigits 256 ((le64 n).map UInt8.toNat) = n ∧ ((le64 n).getD 7 0).toNat < 128 := by
  refine ⟨fun xs ys hxs hys h => ?_, fun n hn => ⟨Doubles.le64_eq hn, length_le64 n, ?_, top_le64 n⟩⟩
  · have hlt : ∀ {k : ℕ}, k < 2 ^ 53 → k < 2 ^ 63 := fun hk => hk.trans (by norm_num)
    exact pae_injective (fun x hx => hlt (hxs x hx)) (fun y hy => hlt (hys y hy)) h
  · rw [le64_eq (hn.trans (by norm_num)), ofDigits_leBytes]
    exact Nat.mod_eq_of_lt (hn.trans (by norm_num))

/-- Two ways to cut the same bytes. -/
example : pae [[1, 2], [3]] ≠ pae [[1], [2, 3]] := by decide

end ConsensusNode.Tickets
