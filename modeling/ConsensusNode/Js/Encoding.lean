import Mathlib.Data.List.TakeWhile
import ConsensusNode.Js.Buffer

/-! # Encodings of byte strings

`base64`, `base64url` and `hex` are the encodings of `toString`. `decodeBase64` is the decoder of
`Buffer.from(s, 'base64')` and of `'base64url'`: it reads both alphabets, stops at the first `=`, skips
every other character outside the alphabets and drops an incomplete byte at the end.

`beBytes k n` are the last `k` bytes of `n`, most significant first, and `beVal` is the number of such
bytes; `leBytes` are the bytes in the other order. -/

namespace ConsensusNode.Js

/-! ### Base64 -/

/-- The groups of six bits of a byte string, the last one filled with zeros. -/
def sextets : Bytes → List ℕ
  | [] => []
  | [a] => [a.toNat / 4, a.toNat % 4 * 16]
  | [a, b] => [a.toNat / 4, a.toNat % 4 * 16 + b.toNat / 16, b.toNat % 16 * 4]
  | a :: b :: c :: bs =>
    a.toNat / 4 :: (a.toNat % 4 * 16 + b.toNat / 16) :: (b.toNat % 16 * 4 + c.toNat / 64) ::
      c.toNat % 64 :: sextets bs

/-- The bytes of groups of six bits; an incomplete byte is dropped. -/
def unsextets : List ℕ → Bytes
  | [] => []
  | [_] => []
  | [p, q] => [UInt8.ofNat (p * 4 + q / 16)]
  | [p, q, r] => [UInt8.ofNat (p * 4 + q / 16), UInt8.ofNat (q % 16 * 16 + r / 4)]
  | p :: q :: r :: s :: l =>
    UInt8.ofNat (p * 4 + q / 16) :: UInt8.ofNat (q % 16 * 16 + r / 4) ::
      UInt8.ofNat (r % 4 * 64 + s) :: unsextets l

/-- A character of the alphabet; `url` selects the URL-safe one. -/
def b64Char (url : Bool) (n : ℕ) : UInt16 :=
  if n < 26 then UInt16.ofNat (65 + n)
  else if n < 52 then UInt16.ofNat (71 + n)
  else if n < 62 then UInt16.ofNat (n - 4)
  else if n = 62 then (if url then unit '-' else unit '+')
  else (if url then unit '_' else unit '/')

/-- The value of a character of either alphabet. -/
def b64Val (c : UInt16) : Option ℕ :=
  let n := c.toNat
  if 65 ≤ n ∧ n ≤ 90 then some (n - 65)
  else if 97 ≤ n ∧ n ≤ 122 then some (n - 71)
  else if 48 ≤ n ∧ n ≤ 57 then some (n + 4)
  else if c = unit '+' ∨ c = unit '-' then some 62
  else if c = unit '/' ∨ c = unit '_' then some 63
  else none

/-- `toString('base64url')`. -/
def base64url (bs : Bytes) : JsString := (sextets bs).map (b64Char true)

/-- `toString('base64')`. -/
def base64 (bs : Bytes) : JsString :=
  (sextets bs).map (b64Char false) ++ List.replicate ((3 - bs.length % 3) % 3) (unit '=')

/-- `Buffer.from(s, 'base64')` and `Buffer.from(s, 'base64url')`. -/
def decodeBase64 (s : JsString) : Bytes :=
  unsextets ((s.takeWhile (· ≠ unit '=')).filterMap b64Val)

theorem sextets_lt : ∀ bs : Bytes, ∀ n ∈ sextets bs, n < 64
  | [], n, hn => by simp [sextets] at hn
  | [a], n, hn => by
    have ha : a.toNat < 256 := a.toNat_lt
    simp only [sextets, List.mem_cons, List.not_mem_nil, or_false] at hn
    rcases hn with rfl | rfl <;> omega
  | [a, b], n, hn => by
    have ha : a.toNat < 256 := a.toNat_lt
    have hb : b.toNat < 256 := b.toNat_lt
    simp only [sextets, List.mem_cons, List.not_mem_nil, or_false] at hn
    rcases hn with rfl | rfl | rfl <;> omega
  | a :: b :: c :: bs, n, hn => by
    have ha : a.toNat < 256 := a.toNat_lt
    have hb : b.toNat < 256 := b.toNat_lt
    have hc : c.toNat < 256 := c.toNat_lt
    simp only [sextets, List.mem_cons] at hn
    rcases hn with rfl | rfl | rfl | rfl | hn
    · omega
    · omega
    · omega
    · omega
    · exact sextets_lt bs n hn

theorem ofNat_eq_of_toNat {a : UInt8} {n : ℕ} (h : n = a.toNat) : UInt8.ofNat n = a := by
  rw [h, UInt8.ofNat_toNat]

theorem unsextets_sextets : ∀ bs : Bytes, unsextets (sextets bs) = bs
  | [] => rfl
  | [a] => by
    have ha : a.toNat < 256 := a.toNat_lt
    simp only [sextets, unsextets]
    rw [ofNat_eq_of_toNat (a := a) (by omega)]
  | [a, b] => by
    have ha : a.toNat < 256 := a.toNat_lt
    have hb : b.toNat < 256 := b.toNat_lt
    simp only [sextets, unsextets]
    rw [ofNat_eq_of_toNat (a := a) (by omega), ofNat_eq_of_toNat (a := b) (by omega)]
  | a :: b :: c :: bs => by
    have ha : a.toNat < 256 := a.toNat_lt
    have hb : b.toNat < 256 := b.toNat_lt
    have hc : c.toNat < 256 := c.toNat_lt
    simp only [sextets, unsextets]
    rw [ofNat_eq_of_toNat (a := a) (by omega), ofNat_eq_of_toNat (a := b) (by omega),
      ofNat_eq_of_toNat (a := c) (by omega), unsextets_sextets bs]

theorem b64Val_b64Char (url : Bool) {n : ℕ} (h : n < 64) :
    b64Val (b64Char url n) = some n ∧ b64Char url n ≠ unit '=' := by
  have h' : ∀ u : Bool, ∀ n < 64, b64Val (b64Char u n) = some n ∧ b64Char u n ≠ unit '=' := by decide
  exact h' url n h

theorem filterMap_b64 (url : Bool) {l : List ℕ} (h : ∀ n ∈ l, n < 64) :
    (l.map (b64Char url)).filterMap b64Val = l := by
  induction l with
  | nil => rfl
  | cons n l ih =>
    rw [List.map_cons, List.filterMap_cons_some (b64Val_b64Char url (h n (by simp))).1,
      ih fun m hm => h m (by simp [hm])]

theorem b64_ne_pad (url : Bool) {l : List ℕ} (h : ∀ n ∈ l, n < 64) :
    ∀ c ∈ l.map (b64Char url), decide (c ≠ unit '=') = true := by
  intro c hc
  obtain ⟨n, hn, rfl⟩ := List.mem_map.mp hc
  simpa using (b64Val_b64Char url (h n hn)).2

theorem decodeBase64_base64 (bs : Bytes) : decodeBase64 (base64 bs) = bs := by
  have hlt := sextets_lt bs
  unfold decodeBase64 base64
  rw [List.takeWhile_append_of_pos (b64_ne_pad false hlt)]
  have hpad : ∀ m, (List.replicate m (unit '=')).takeWhile (fun c => decide (c ≠ unit '=')) = [] := by
    intro m; cases m <;> simp [List.replicate_succ]
  rw [hpad, List.append_nil, filterMap_b64 false hlt, unsextets_sextets]

theorem decodeBase64_base64url (bs : Bytes) : decodeBase64 (base64url bs) = bs := by
  have hlt := sextets_lt bs
  unfold decodeBase64 base64url
  rw [List.takeWhile_eq_self_iff.mpr (b64_ne_pad true hlt), filterMap_b64 true hlt, unsextets_sextets]

theorem base64_injective : Function.Injective base64 := fun a b h => by
  rw [← decodeBase64_base64 a, h, decodeBase64_base64]

/-! ### Hexadecimal -/

/-- `toString('hex')`. -/
def hex (bs : Bytes) : JsString := bs.flatMap fun b => [hexDigit (b.toNat / 16), hexDigit (b.toNat % 16)]

theorem hexDigit_inj {d e : ℕ} (hd : d < 16) (he : e < 16) (h : hexDigit d = hexDigit e) : d = e := by
  have h1 := hexVal_hexDigit hd
  rw [h, hexVal_hexDigit he] at h1
  exact (Option.some.inj h1).symm

theorem hex_injective : ∀ a b : Bytes, hex a = hex b → a = b
  | [], [], _ => rfl
  | [], _ :: _, h => by simp [hex] at h
  | _ :: _, [], h => by simp [hex] at h
  | x :: a, y :: b, h => by
    have hx : x.toNat < 256 := x.toNat_lt
    have hy : y.toNat < 256 := y.toNat_lt
    simp only [hex, List.flatMap_cons, List.cons_append, List.nil_append, List.cons.injEq] at h
    obtain ⟨h1, h2, h3⟩ := h
    have e1 := hexDigit_inj (by omega) (by omega) h1
    have e2 := hexDigit_inj (by omega) (by omega) h2
    rw [hex_injective a b h3, UInt8.toNat_inj.mp (by omega : x.toNat = y.toNat)]

theorem plain_hex (bs : Bytes) : ∀ c ∈ hex bs, Plain c := by
  intro c hc
  obtain ⟨b, -, hb⟩ := List.mem_flatMap.mp hc
  have hlt : b.toNat < 256 := b.toNat_lt
  simp only [List.mem_cons, List.not_mem_nil, or_false] at hb
  rcases hb with rfl | rfl
  · exact plain_hexDigit (by omega)
  · exact plain_hexDigit (by omega)

/-! ### Integers -/

/-- The last `k` bytes of `n`, most significant first. -/
def beBytes (k n : ℕ) : Bytes := (List.range k).reverse.map fun i => UInt8.ofNat (n / 256 ^ i % 256)

/-- The number of the bytes, most significant first. -/
def beVal : Bytes → ℕ
  | [] => 0
  | b :: bs => b.toNat * 256 ^ bs.length + beVal bs

/-- The last `k` bytes of `n`, least significant first. -/
def leBytes : ℕ → ℕ → Bytes
  | 0, _ => []
  | k + 1, n => UInt8.ofNat (n % 256) :: leBytes k (n / 256)

@[simp] theorem length_beBytes (k n : ℕ) : (beBytes k n).length = k := by simp [beBytes]

@[simp] theorem length_leBytes (k n : ℕ) : (leBytes k n).length = k := by
  induction k generalizing n with
  | zero => rfl
  | succ k ih => simp [leBytes, ih]

theorem beBytes_succ (k n : ℕ) :
    beBytes (k + 1) n = UInt8.ofNat (n / 256 ^ k % 256) :: beBytes k n := by
  simp [beBytes, List.range_succ]

theorem beVal_lt (bs : Bytes) : beVal bs < 256 ^ bs.length := by
  induction bs with
  | nil => simp [beVal]
  | cons b bs ih =>
    have hb : b.toNat < 256 := b.toNat_lt
    rw [beVal, List.length_cons, pow_succ]
    calc b.toNat * 256 ^ bs.length + beVal bs < b.toNat * 256 ^ bs.length + 256 ^ bs.length := by omega
      _ = (b.toNat + 1) * 256 ^ bs.length := by ring
      _ ≤ 256 * 256 ^ bs.length := Nat.mul_le_mul_right _ (by omega)
      _ = 256 ^ bs.length * 256 := by ring

theorem beVal_beBytes (k n : ℕ) : beVal (beBytes k n) = n % 256 ^ k := by
  induction k with
  | zero => simp [beBytes, beVal, Nat.mod_one]
  | succ k ih =>
    have hbyte : (UInt8.ofNat (n / 256 ^ k % 256)).toNat = n / 256 ^ k % 256 :=
      UInt8.toNat_ofNat_of_lt' (Nat.mod_lt _ (by norm_num))
    rw [beBytes_succ, beVal, ih, length_beBytes, hbyte, pow_succ, Nat.mod_mul, add_comm, mul_comm]

theorem beVal_beBytes_of_lt {k n : ℕ} (h : n < 256 ^ k) : beVal (beBytes k n) = n := by
  rw [beVal_beBytes, Nat.mod_eq_of_lt h]

theorem beBytes_add_mul (k m c : ℕ) : beBytes k (c * 256 ^ k + m) = beBytes k m := by
  unfold beBytes
  refine List.map_congr_left fun i hi => ?_
  have hik : i < k := List.mem_range.mp (List.mem_reverse.mp hi)
  obtain ⟨j, rfl⟩ : ∃ j, k = i + 1 + j := ⟨k - i - 1, by omega⟩
  congr 1
  have h1 : c * 256 ^ (i + 1 + j) + m = m + 256 ^ i * (256 * (c * 256 ^ j)) := by ring
  rw [h1, Nat.add_mul_div_left _ _ (by positivity), Nat.add_mul_mod_self_left]

theorem beBytes_beVal (bs : Bytes) : beBytes bs.length (beVal bs) = bs := by
  induction bs with
  | nil => rfl
  | cons b bs ih =>
    have hb : b.toNat < 256 := b.toNat_lt
    have hlt := beVal_lt bs
    rw [List.length_cons, beBytes_succ, beVal, beBytes_add_mul, ih]
    congr 1
    refine ofNat_eq_of_toNat ?_
    rw [mul_comm, Nat.mul_add_div (by positivity), Nat.div_eq_of_lt hlt, add_zero, Nat.mod_eq_of_lt hb]

end ConsensusNode.Js
