import ConsensusNode.Js.Decimal
import ConsensusNode.Lib.IpText
import ConsensusNode.Runtime.Ssrf

/-! # Address texts and the guard's tests

What the guard's tests on text say about the address by value, for canonical texts.

* `isPrivateIPv4_iff`: the IPv4 test is exact.
* `blocked6_flagged`: the IPv6 test finds every blocked address except `::` and the part of `fe80::/10`
  outside `fe80::/16` (`Missed`).
* `normalizeToIPv4_form`: what the literal normalizer returns is a canonical IPv4 text, unless the input
  has both colons and dots. -/

namespace ConsensusNode.Runtime

open Js Lib

variable {p : Platform}

/-! ### Blocks by value -/

/-- The IPv4 blocks that must not be reached. -/
def Blocked4 (n : ℕ) : Prop :=
  n / 2 ^ 24 = 127 ∨ n / 2 ^ 24 = 0 ∨ n / 2 ^ 24 = 10 ∨
  n / 2 ^ 20 = 172 * 16 + 1 ∨          -- 172.16.0.0/12
  n / 2 ^ 16 = 192 * 256 + 168 ∨       -- 192.168.0.0/16
  n / 2 ^ 16 = 169 * 256 + 254 ∨       -- 169.254.0.0/16
  n / 2 ^ 22 = 100 * 4 + 1 ∨           -- 100.64.0.0/10
  n / 2 ^ 8 = (192 * 256 + 0) * 256 + 2 ∨
  n / 2 ^ 8 = (198 * 256 + 51) * 256 + 100 ∨
  n / 2 ^ 8 = (203 * 256 + 0) * 256 + 113

/-- The IPv6 addresses that must not be reached. -/
def Blocked6 (n : ℕ) : Prop :=
  n = 0 ∨ n = 1 ∨
  n / 2 ^ 118 = 0xfe80 / 2 ^ 6 ∨       -- fe80::/10
  n / 2 ^ 121 = 0xfc00 / 2 ^ 9 ∨       -- fc00::/7
  (n / 2 ^ 32 = 0xffff ∧ Blocked4 (n % 2 ^ 32))

/-- The addresses the test on text does not find: `::`, and `fe81::` to `febf::`. -/
def Missed (n : ℕ) : Prop := n = 0 ∨ (0xfe81 ≤ n / 2 ^ 112 ∧ n / 2 ^ 112 ≤ 0xfebf)

/-! ### Numbers in text -/

theorem JsNumber_ofNat_inj {a b : ℕ} : JsNumber.ofNat a = JsNumber.ofNat b ↔ a = b := by
  simp [JsNumber.ofNat, JsNumber.ofInt]

theorem lt_ofNat (a b : ℕ) :
    JsNumber.lt (some (JsNumber.ofNat a)) (some (JsNumber.ofNat b)) = decide (a < b) := by
  simp [JsNumber.lt, JsNumber.ofNat, JsNumber.ofInt, JsNumber.val]

theorem between_ofNat (lo hi n : ℕ) : between lo hi (JsNumber.ofNat n) = decide (lo ≤ n ∧ n ≤ hi) := by
  unfold between
  rw [lt_ofNat, lt_ofNat, Bool.eq_iff_iff]
  simp

/-! ### The IPv4 test is exact -/

/-- The blocks by octets and by value. -/
theorem blocked4_octets {n : ℕ} (h : n < 2 ^ 32) : Blocked4 n ↔
    let a := n / 2 ^ 24 % 256; let b := n / 2 ^ 16 % 256; let c := n / 2 ^ 8 % 256
    a = 127 ∨ a = 0 ∨ a = 10 ∨ (a = 172 ∧ 16 ≤ b ∧ b ≤ 31) ∨ (a = 192 ∧ b = 168) ∨
      (a = 169 ∧ b = 254) ∨ (a = 100 ∧ 64 ≤ b ∧ b ≤ 127) ∨ (a = 192 ∧ b = 0 ∧ c = 2) ∨
      (a = 198 ∧ b = 51 ∧ c = 100) ∨ (a = 203 ∧ b = 0 ∧ c = 113) := by
  unfold Blocked4
  refine or_congr (by omega) (or_congr (by omega) (or_congr (by omega) (or_congr (by omega)
    (or_congr (by omega) (or_congr (by omega) (or_congr (by omega) (or_congr (by omega)
    (or_congr (by omega) (by omega)))))))))

theorem isPrivateIPv4_octets {a b c d : ℕ} (ha : a < 256) (hb : b < 256) (hc : c < 256) (hd : d < 256) :
    isPrivateIPv4 (quadText a b c d) = true ↔
      (a = 127 ∨ a = 0 ∨ a = 10 ∨ (a = 172 ∧ 16 ≤ b ∧ b ≤ 31) ∨ (a = 192 ∧ b = 168) ∨
        (a = 169 ∧ b = 254) ∨ (a = 100 ∧ 64 ≤ b ∧ b ≤ 127) ∨ (a = 192 ∧ b = 0 ∧ c = 2) ∨
        (a = 198 ∧ b = 51 ∧ c = 100) ∨ (a = 203 ∧ b = 0 ∧ c = 113)) := by
  have hsplit : (quadText a b c d).splitOn (unit '.') = [decText a, decText b, decText c, decText d] := by
    unfold quadText join
    refine List.splitOn_intercalate _ (fun l hl => ?_) (by simp)
    have hl' : l ∈ [a, b, c, d].map decText := hl
    obtain ⟨k, -, rfl⟩ := List.mem_map.mp hl'
    exact not_mem_decText (by decide) k
  have hread : ∀ k < 256, numberOfText (decText k) = some (JsNumber.ofNat k) := fun k hk =>
    numberOfText_decText (by omega)
  unfold isPrivateIPv4
  rw [hsplit, List.map_cons, List.map_cons, List.map_cons, List.map_cons, List.map_nil, hread a ha,
    hread b hb, hread c hc, hread d hd]
  have hall : [JsNumber.ofNat a, JsNumber.ofNat b, JsNumber.ofNat c, JsNumber.ofNat d].all
      (between 0 255) = true := by
    simp only [List.all_cons, List.all_nil, between_ofNat, Bool.and_true, Bool.and_eq_true,
      decide_eq_true_eq]
    omega
  dsimp only
  rw [if_pos hall]
  simp only [privateOctets, JsNumber_ofNat_inj, between_ofNat, Bool.or_eq_true, Bool.and_eq_true,
    decide_eq_true_eq, or_assoc, and_assoc]

theorem isPrivateIPv4_iff {n : ℕ} (h : n < 2 ^ 32) : isPrivateIPv4 (ipv4Text n) = true ↔ Blocked4 n := by
  rw [blocked4_octets h]
  exact isPrivateIPv4_octets (Nat.mod_lt _ (by norm_num)) (Nat.mod_lt _ (by norm_num))
    (Nat.mod_lt _ (by norm_num)) (Nat.mod_lt _ (by norm_num))

/-! ### Texts of addresses are left alone -/

theorem addressUnit_bounds {c : UInt16} (h : isAddressUnit c = true) :
    c < 128 ∧ ¬ (65 ≤ c ∧ c ≤ 90) ∧ c ≠ unit '[' ∧ c ≠ unit ']' := by
  simp only [isAddressUnit, isDigit, Bool.or_eq_true, Bool.and_eq_true, decide_eq_true_eq,
    beq_iff_eq, unit, UInt16.le_iff_toNat_le, ← UInt16.toNat_inj] at h
  simp only [UInt16.lt_iff_toNat_lt, UInt16.le_iff_toNat_le, ne_eq, ← UInt16.toNat_inj, unit]
  simp at h ⊢
  omega

theorem lower_of_lower (hp : p.AsciiCase) {s : JsString} (ha : isAscii s = true)
    (hl : asciiLower s = s) : p.toLowerCase s = s := by rw [hp.lower s ha, hl]

theorem asciiLower_eq_self {s : JsString} (h : ∀ c ∈ s, ¬ (65 ≤ c ∧ c ≤ 90)) : asciiLower s = s := by
  unfold asciiLower
  conv_rhs => rw [← List.map_id s]
  exact List.map_congr_left fun c hc => if_neg (h c hc)

theorem lower_address (hp : p.AsciiCase) {s : JsString} (h : ∀ c ∈ s, isAddressUnit c = true) :
    p.toLowerCase s = s := by
  refine lower_of_lower hp ?_ (asciiLower_eq_self fun c hc => (addressUnit_bounds (h c hc)).2.1)
  unfold isAscii
  rw [List.all_eq_true]
  exact fun c hc => decide_eq_true (addressUnit_bounds (h c hc)).1

theorem stripBrackets_of_not_mem {s : JsString} (h1 : unit '[' ∉ s) (h2 : unit ']' ∉ s) :
    stripBrackets s = s := by
  have hhead : s.head? ≠ some (unit '[') := fun h => h1 (List.mem_of_mem_head? h)
  have hlast : s.getLast? ≠ some (unit ']') := fun h => h2 (List.mem_of_mem_getLast? h)
  unfold stripBrackets
  rw [if_neg hhead]
  exact if_neg hlast

/-- The normalizer on a text that it neither strips nor lowers. -/
theorem normalizeToIPv4_address (hp : p.AsciiCase) {s : JsString}
    (h : ∀ c ∈ s, isAddressUnit c = true) : p.toLowerCase (stripBrackets s) = s := by
  rw [stripBrackets_of_not_mem (fun hm => (addressUnit_bounds (h _ hm)).2.2.1 rfl)
    (fun hm => (addressUnit_bounds (h _ hm)).2.2.2 rfl), lower_address hp h]

/-! ### The literal normalizer -/

theorem mem_of_mem_splitOn {s l : JsString} {sep c : UInt16} (hl : l ∈ s.splitOn sep) (hc : c ∈ l) :
    c ∈ s := by
  have hs : c ∈ join sep (s.splitOn sep) := mem_join_of_mem hl hc
  have hjoin : join sep (s.splitOn sep) = s := List.intercalate_splitOn sep
  rw [hjoin] at hs
  exact hs

theorem dot_of_isDottedQuad {s : JsString} (h : isDottedQuad s = true) : unit '.' ∈ s := by
  by_contra hne
  unfold isDottedQuad at h
  rw [List.splitOn_eq_singleton hne] at h
  simp at h

theorem afterMappedPrefix_eq_some {s r : JsString} (h : afterMappedPrefix s = some r) :
    s = js "::ffff:" ++ r := by
  unfold afterMappedPrefix at h
  split_ifs at h with hs
  cases h
  obtain ⟨t, ht⟩ := List.isPrefixOf_iff_prefix.mp hs
  rw [← ht]
  rfl

theorem afterMappedPrefix_append (r : JsString) : afterMappedPrefix (js "::ffff:" ++ r) = some r := rfl

/-- A dotted tail is found only in a text with colons and dots. -/
theorem mappedQuad_eq_some {s q : JsString} (h : mappedQuad s = some q) :
    unit ':' ∈ s ∧ unit '.' ∈ s := by
  unfold mappedQuad at h
  dsimp only at h
  split at h
  · rename_i q' hq
    split at hq
    · rename_i a b c d e f r hsplit
      split_ifs at hq with hc
      cases hq
      simp only [Bool.and_eq_true] at hc
      refine ⟨?_, mem_of_mem_splitOn (l := q') (by rw [hsplit]; simp) (dot_of_isDottedQuad hc.2)⟩
      by_contra hne
      rw [List.splitOn_eq_singleton hne] at hsplit
      simp at hsplit
    · cases hq
  · obtain ⟨hr, hq⟩ := Option.filter_eq_some_iff.mp h
    have hs := afterMappedPrefix_eq_some hr
    rw [hs]
    refine ⟨List.mem_append_left _ (by decide), List.mem_append_right _ (dot_of_isDottedQuad hq)⟩

theorem digitIn_lt {b : ℕ} {c : UInt16} {d : ℕ} (h : digitIn b c = some d) : d < b := by
  unfold digitIn at h
  dsimp only at h
  generalize (if 48 ≤ c.toNat ∧ c.toNat ≤ 57 then c.toNat - 48 else if 97 ≤ c.toNat ∧ c.toNat ≤ 102
    then c.toNat - 87 else if 65 ≤ c.toNat ∧ c.toNat ≤ 70 then c.toNat - 55 else b) = x at h
  split_ifs at h with hx
  cases h
  exact hx

theorem foldl_base_lt {b : ℕ} : ∀ {s : JsString} {a v k : ℕ}, a < b ^ k →
    s.foldl (fun a c => do return (← a) * b + (← digitIn b c)) (some a) = some v → v < b ^ (k + s.length)
  | [], a, v, k, ha, h => by cases h; simpa using ha
  | c :: s, a, v, k, ha, h => by
    rw [List.foldl_cons] at h
    cases hd : digitIn b c with
    | none =>
      rw [hd] at h
      have hnone : ∀ t : JsString, t.foldl (fun a c => do return (← a) * b + (← digitIn b c))
          (none : Option ℕ) = none := by
        intro t
        induction t with
        | nil => rfl
        | cons x t ih => exact ih
      have h' : s.foldl (fun a c => do return (← a) * b + (← digitIn b c)) (none : Option ℕ) = some v := h
      rw [hnone] at h'
      cases h'
    | some d =>
      rw [hd] at h
      have hlt : a * b + d < b ^ (k + 1) := by
        have := digitIn_lt hd
        calc a * b + d < a * b + b := by omega
          _ = (a + 1) * b := by ring
          _ ≤ b ^ k * b := Nat.mul_le_mul_right _ ha
          _ = b ^ (k + 1) := by ring
      have := foldl_base_lt hlt h
      rw [List.length_cons]
      rwa [show k + 1 + s.length = k + (s.length + 1) by omega] at this

theorem hexGroup_lt {s : JsString} {v : ℕ} (h : hexGroup s = some v) : v < 65536 := by
  unfold hexGroup at h
  split_ifs at h with hc
  simp only [Bool.and_eq_true, decide_eq_true_eq] at hc
  unfold readBase at h
  split_ifs at h
  have := foldl_base_lt (b := 16) (k := 0) (by norm_num) h
  rw [Nat.zero_add] at this
  exact lt_of_lt_of_le this (Nat.pow_le_pow_right (by norm_num) hc.1)

theorem quadText_groups {a b : ℕ} (ha : a < 65536) (hb : b < 65536) :
    quadText (a / 256) (a % 256) (b / 256) (b % 256) = ipv4Text (a * 65536 + b) := by
  have h1 : (a * 65536 + b) / 2 ^ 24 % 256 = a / 256 := by omega
  have h2 : (a * 65536 + b) / 2 ^ 16 % 256 = a % 256 := by omega
  have h3 : (a * 65536 + b) / 2 ^ 8 % 256 = b / 256 := by omega
  have h4 : (a * 65536 + b) % 256 = b % 256 := by omega
  unfold ipv4Text octets
  rw [h1, h2, h3, h4]
  rfl

/-- Except for the tail of a mapped literal, the result is a canonical text. -/
theorem normalizeToIPv4_form {raw t : JsString} (h : normalizeToIPv4 p raw = some t) :
    mappedQuad (p.toLowerCase (stripBrackets raw)) = some t ∨ ∃ n < 2 ^ 32, t = ipv4Text n := by
  unfold normalizeToIPv4 at h
  dsimp only at h
  split at h
  · rename_i q hq
    cases h
    exact .inl hq
  · right
    split at h
    · rename_i hi lo hg
      cases h
      unfold mappedGroups at hg
      split at hg
      · split at hg
        · rename_i hi' lo' hhi hlo
          cases hg
          have h1 := hexGroup_lt hhi
          have h2 := hexGroup_lt hlo
          exact ⟨hi * 65536 + lo, by omega, quadText_groups h1 h2⟩
        · cases hg
      · cases hg
    · split at h
      · rename_i n _
        cases h
        refine ⟨n % 2 ^ 32, Nat.mod_lt _ (by norm_num), ?_⟩
        have h1 : n % 2 ^ 32 / 2 ^ 24 % 256 = n / 2 ^ 24 % 256 := by omega
        have h2 : n % 2 ^ 32 / 2 ^ 16 % 256 = n / 2 ^ 16 % 256 := by omega
        have h3 : n % 2 ^ 32 / 2 ^ 8 % 256 = n / 2 ^ 8 % 256 := by omega
        have h4 : n % 2 ^ 32 % 256 = n % 256 := by omega
        unfold ipv4Text octets
        rw [h1, h2, h3, h4]
        rfl
      · cases h

/-! ### Mapped addresses -/

theorem foldl_hexDigit : ∀ {l : List ℕ}, (∀ d ∈ l, d < 16) → ∀ a : ℕ,
    (l.map hexDigit).foldl (fun a c => do return (← a) * 16 + (← digitIn 16 c)) (some a) =
      some (l.foldl (fun a d => a * 16 + d) a)
  | [], _, a => rfl
  | d :: l, h, a => by
    have hall : ∀ d < 16, digitIn 16 (hexDigit d) = some d := by decide
    rw [List.map_cons, List.foldl_cons, List.foldl_cons, hall d (h d (by simp))]
    exact foldl_hexDigit (fun x hx => h x (by simp [hx])) _

theorem foldl_dropWhile_zero (b : ℕ) : ∀ l : List ℕ,
    (l.dropWhile (· == 0)).foldl (fun a d => a * b + d) 0 = l.foldl (fun a d => a * b + d) 0
  | [] => rfl
  | d :: l => by
    by_cases hd : d = 0
    · subst hd
      rw [List.dropWhile_cons_of_pos (by rfl), foldl_dropWhile_zero b l, List.foldl_cons]
      simp
    · rw [List.dropWhile_cons_of_neg (by simpa using hd)]

theorem hexText_ne_nil {g : ℕ} (h : g < 65536) : hexText g ≠ [] := by
  unfold hexText
  split_ifs with h0
  · simp
  · intro hnil
    rw [List.map_eq_nil_iff, List.dropWhile_eq_nil_iff] at hnil
    simp [groupDigits] at hnil
    omega

theorem readBase_hexText {g : ℕ} (h : g < 65536) : readBase 16 (hexText g) = some g := by
  unfold readBase
  rw [if_neg (hexText_ne_nil h)]
  unfold hexText
  split_ifs with h0
  · rw [h0]; rfl
  · rw [foldl_hexDigit (fun d hd => groupDigits_lt h ((List.dropWhile_sublist _).subset hd)),
      foldl_dropWhile_zero]
    simp only [groupDigits, List.foldl_cons, List.foldl_nil, Option.some.injEq]
    omega

theorem hexGroup_hexText {g : ℕ} (h : g < 65536) : hexGroup (hexText g) = some g := by
  have hlen : (hexText g).length ≤ 4 := by
    unfold hexText
    split_ifs
    · simp
    · rw [List.length_map]
      exact (List.dropWhile_sublist _).length_le
  unfold hexGroup
  rw [if_pos, readBase_hexText h]
  rw [Bool.and_eq_true, decide_eq_true_eq, List.all_eq_true]
  refine ⟨hlen, fun c hc => ?_⟩
  rcases mem_hexText h hc with hd | ⟨h1, h2⟩
  · simp [hd]
  · simp [h1, h2]

theorem colon_not_mem_hexText {g : ℕ} (h : g < 65536) : unit ':' ∉ hexText g := by
  intro hm
  rcases mem_hexText h hm with hd | hd
  · exact absurd hd (by decide)
  · exact absurd hd (by decide)

theorem flagged_of_normalize {t q : JsString} (h : normalizeToIPv4 p t = some q)
    (hq : isPrivateIPv4 q = true) : isPrivateIPv6Bare p t = true := by
  unfold isPrivateIPv6Bare
  split_ifs
  · rfl
  · rfl
  · rfl
  · rw [h]; exact hq

/-- A mapped address with its tail in hexadecimal. -/
theorem normalize_mappedHex (hp : p.AsciiCase) {n : ℕ} (h : n / 2 ^ 32 = 0xffff) :
    normalizeToIPv4 p (ipv6Hex n) = some (ipv4Text (n % 2 ^ 32)) := by
  have hlow := normalizeToIPv4_address hp fun c hc => isAddressUnit_ipv6Hex (n := n) hc
  have ha : n / 2 ^ 16 % 65536 < 65536 := Nat.mod_lt _ (by norm_num)
  have hb : n % 65536 < 65536 := Nat.mod_lt _ (by norm_num)
  have hquad : mappedQuad (ipv6Hex n) = none := by
    cases hq : mappedQuad (ipv6Hex n) with
    | none => rfl
    | some q =>
      rcases mem_ipv6Hex (mappedQuad_eq_some hq).2 with hm | hm | hm
      · exact absurd hm (by decide)
      · exact absurd hm (by decide)
      · exact absurd hm (by decide)
  have hsplit : (hexText (n / 2 ^ 16 % 65536) ++ unit ':' :: hexText (n % 65536)).splitOn (unit ':') =
      [hexText (n / 2 ^ 16 % 65536), hexText (n % 65536)] := by
    rw [List.splitOn_append_cons_self, List.splitOn_eq_singleton (colon_not_mem_hexText ha),
      List.splitOn_eq_singleton (colon_not_mem_hexText hb)]
    rfl
  have hpre : afterMappedPrefix (ipv6Hex n) =
      some (hexText (n / 2 ^ 16 % 65536) ++ unit ':' :: hexText (n % 65536)) := by
    rw [ipv6Hex_mapped h, afterMappedPrefix_append]
  have hgroups : mappedGroups (ipv6Hex n) = some (n / 2 ^ 16 % 65536, n % 65536) := by
    unfold mappedGroups
    rw [hpre, Option.map_some, hsplit]
    dsimp only
    rw [hexGroup_hexText ha, hexGroup_hexText hb]
  unfold normalizeToIPv4
  rw [hlow]
  dsimp only
  rw [hquad, hgroups]
  dsimp only
  rw [quadText_groups ha hb]
  congr 2
  omega

theorem isDottedQuad_ipv4Text (n : ℕ) : isDottedQuad (ipv4Text n) = true := by
  have hlen : ∀ k < 256, (decText k).length ≤ 3 := by decide +kernel
  unfold isDottedQuad
  rw [splitOn_ipv4Text, Bool.and_eq_true, List.all_eq_true]
  refine ⟨rfl, fun q hq => ?_⟩
  obtain ⟨k, hk, rfl⟩ := List.mem_map.mp hq
  have hk' : k < 256 := by
    simp only [octets, List.mem_cons, List.not_mem_nil, or_false] at hk
    omega
  simp only [Bool.and_eq_true, decide_eq_true_eq, List.all_eq_true, Bool.not_eq_true',
    List.isEmpty_eq_false_iff]
  exact ⟨⟨decText_ne_nil k, hlen k hk'⟩, fun c hc => isDigit_of_mem_decText hc⟩

/-- A mapped address with its tail in decimal. -/
theorem normalize_mappedQuad (hp : p.AsciiCase) (n : ℕ) :
    normalizeToIPv4 p (js "::ffff:" ++ ipv4Text n) = some (ipv4Text n) := by
  have hunits : ∀ c ∈ js "::ffff:" ++ ipv4Text n, isAddressUnit c = true := by
    intro c hc
    rcases List.mem_append.mp hc with hc | hc
    · have hall : ∀ x ∈ js "::ffff:", isAddressUnit x = true := by decide
      exact hall c hc
    · exact isAddressUnit_ipv4Text hc
  have hcolon : unit ':' ∉ ipv4Text n := by
    intro hm
    rcases mem_ipv4Text hm with hm | hm
    · exact absurd hm (by decide)
    · exact absurd hm (by decide)
  have hsplit : (js "::ffff:" ++ ipv4Text n).splitOn (unit ':') = [[], [], js "ffff", ipv4Text n] := by
    have hpre : js "::ffff:" ++ ipv4Text n = js "::ffff" ++ unit ':' :: ipv4Text n := rfl
    rw [hpre, List.splitOn_append_cons_self, List.splitOn_eq_singleton hcolon]
    rfl
  unfold normalizeToIPv4
  rw [normalizeToIPv4_address hp hunits]
  have hquad : mappedQuad (js "::ffff:" ++ ipv4Text n) = some (ipv4Text n) := by
    unfold mappedQuad
    rw [hsplit]
    dsimp only
    rw [afterMappedPrefix_append, Option.filter_some, if_pos (isDottedQuad_ipv4Text n)]
  dsimp only
  rw [hquad]

/-! ### The IPv6 test -/

theorem text_head {n : ℕ} {t : JsString} (ht : IsIpv6Text n t) (h : n / 2 ^ 112 % 65536 ≠ 0) :
    ∃ r, t = hexText (n / 2 ^ 112 % 65536) ++ unit ':' :: r := by
  have hhex := ipv6Hex_head h
  rcases ht with rfl | rfl
  · exact hhex
  · unfold ipv6Mixed
    rw [if_neg (by omega), if_neg (by omega)]
    exact hhex

theorem flagged_linkLocal {n : ℕ} {t : JsString} (ht : IsIpv6Text n t)
    (h : n / 2 ^ 112 % 65536 = 0xfe80) : isPrivateIPv6Bare p t = true := by
  obtain ⟨r, rfl⟩ := text_head ht (by omega)
  have hs : startsWith (hexText (n / 2 ^ 112 % 65536) ++ unit ':' :: r) (js "fe80:") = true := by
    rw [h]
    rfl
  unfold isPrivateIPv6Bare
  split_ifs
  · rfl
  · rfl

theorem flagged_uniqueLocal {n : ℕ} {t : JsString} (ht : IsIpv6Text n t)
    (h1 : 0xfc00 ≤ n / 2 ^ 112 % 65536) (h2 : n / 2 ^ 112 % 65536 < 0xfe00) :
    isPrivateIPv6Bare p t = true := by
  obtain ⟨r, rfl⟩ := text_head ht (by omega)
  have hs : isUniqueLocalText (hexText (n / 2 ^ 112 % 65536) ++ unit ':' :: r) = true := by
    generalize n / 2 ^ 112 % 65536 = g at h1 h2
    rw [hexText_four (by omega)]
    have hf : g / 4096 = 15 := by omega
    have hc : g / 256 % 16 = 12 ∨ g / 256 % 16 = 13 := by omega
    have hall : ∀ d < 16, (digitIn 16 (hexDigit d)).isSome = true := by decide
    have hd1 := hall (g / 16 % 16) (by omega)
    have hd2 := hall (g % 16) (by omega)
    simp only [groupDigits, List.map_cons, List.map_nil, List.cons_append, List.nil_append,
      isUniqueLocalText, hf, hd1, hd2]
    rcases hc with hc | hc
    · rw [hc]; rfl
    · rw [hc]; rfl
  unfold isPrivateIPv6Bare
  split_ifs
  · rfl
  · rfl
  · rfl

/-- **The IPv6 test finds every blocked address, except the missed ones.** -/
theorem blocked6_flagged (hp : p.AsciiCase) {n : ℕ} (hn : n < 2 ^ 128) {t : JsString}
    (ht : IsIpv6Text n t) (hb : Blocked6 n) : isPrivateIPv6Bare p t = true ∨ Missed n := by
  have hg : n / 2 ^ 112 % 65536 = n / 2 ^ 112 := by omega
  rcases hb with rfl | rfl | hb | hb | ⟨hm, hb⟩
  · exact .inr (.inl rfl)
  · left
    have ht' : t = js "::1" := by
      rcases ht with rfl | rfl
      · decide
      · decide
    unfold isPrivateIPv6Bare
    rw [if_pos ht']
  · by_cases h80 : n / 2 ^ 112 = 0xfe80
    · exact .inl (flagged_linkLocal ht (by omega))
    · exact .inr (.inr (by omega))
  · exact .inl (flagged_uniqueLocal ht (by omega) (by omega))
  · left
    have hpriv : isPrivateIPv4 (ipv4Text (n % 2 ^ 32)) = true :=
      (isPrivateIPv4_iff (Nat.mod_lt _ (by norm_num))).mpr hb
    rcases ht with rfl | rfl
    · exact flagged_of_normalize (normalize_mappedHex hp hm) hpriv
    · unfold ipv6Mixed
      rw [if_pos hm]
      exact flagged_of_normalize (normalize_mappedQuad hp _) hpriv

end ConsensusNode.Runtime
