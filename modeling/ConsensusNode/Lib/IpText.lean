import ConsensusNode.Js.Value

/-! # Addresses in text

IPv4 and IPv6 addresses as natural numbers and their canonical texts: four decimal octets, and eight
hexadecimal groups without leading zeros, the first longest run of two or more zero groups written `::`.
`ipv6Mixed` is the form `inet_ntop` prints, which writes the last four octets of an IPv4-mapped or
IPv4-compatible address in decimal.

* `ipv6Hex_head`: a text starts with its first group, if that is not zero.
* `ipv6Hex_mapped`: the text of an IPv4-mapped address. -/

namespace ConsensusNode.Lib

open Js

/-! ### IPv4 -/

/-- The four octets of a 32-bit address. -/
def octets (n : ℕ) : List ℕ := [n / 2 ^ 24 % 256, n / 2 ^ 16 % 256, n / 2 ^ 8 % 256, n % 256]

def ipv4Text (n : ℕ) : JsString := join (unit '.') ((octets n).map decText)

theorem not_mem_decText {c : UInt16} (h : isDigit c = false) (n : ℕ) : c ∉ decText n := by
  intro hc
  rw [isDigit_of_mem_decText hc] at h
  cases h

theorem splitOn_ipv4Text (n : ℕ) : (ipv4Text n).splitOn (unit '.') = (octets n).map decText := by
  unfold ipv4Text join
  refine List.splitOn_intercalate _ (fun l hl => ?_) (by simp [octets])
  obtain ⟨k, -, rfl⟩ := List.mem_map.mp hl
  exact not_mem_decText (by decide) k

/-! ### Groups of 16 bits -/

/-- The hexadecimal digits of a group, the leading zeros included. -/
def groupDigits (g : ℕ) : List ℕ := [g / 4096, g / 256 % 16, g / 16 % 16, g % 16]

/-- A group without leading zeros. -/
def hexText (g : ℕ) : JsString :=
  if g = 0 then [48] else ((groupDigits g).dropWhile (· == 0)).map hexDigit

/-- The eight groups of a 128-bit address. -/
def groups (n : ℕ) : List ℕ :=
  [n / 2 ^ 112 % 65536, n / 2 ^ 96 % 65536, n / 2 ^ 80 % 65536, n / 2 ^ 64 % 65536,
    n / 2 ^ 48 % 65536, n / 2 ^ 32 % 65536, n / 2 ^ 16 % 65536, n % 65536]

/-- The number of zero groups from position `i` on. -/
def runLength (gs : List ℕ) (i : ℕ) : ℕ := ((gs.drop i).takeWhile (· == 0)).length

/-- Where the first longest run of at least two zero groups starts. -/
def bestRun (gs : List ℕ) : Option ℕ :=
  (List.range 8).find? fun i =>
    decide (2 ≤ runLength gs i) && (List.range 8).all fun j => decide (runLength gs j ≤ runLength gs i)

/-- The text of a list of groups. -/
def groupsText (gs : List ℕ) : JsString :=
  match bestRun gs with
  | none => join (unit ':') (gs.map hexText)
  | some i => join (unit ':') ((gs.take i).map hexText) ++ js "::" ++
      join (unit ':') ((gs.drop (i + runLength gs i)).map hexText)

/-- The text of an IPv6 address, all groups in hexadecimal. -/
def ipv6Hex (n : ℕ) : JsString := groupsText (groups n)

/-- The text of an IPv6 address as `inet_ntop` prints it. -/
def ipv6Mixed (n : ℕ) : JsString :=
  if n / 2 ^ 32 = 0xffff then js "::ffff:" ++ ipv4Text (n % 2 ^ 32)
  else if n / 2 ^ 32 = 0 ∧ 2 ^ 16 ≤ n then js "::" ++ ipv4Text n
  else ipv6Hex n

/-- A canonical text of the IPv6 address `n`. -/
def IsIpv6Text (n : ℕ) (t : JsString) : Prop := t = ipv6Hex n ∨ t = ipv6Mixed n

theorem join_cons_cons (sep : UInt16) (a b : JsString) (l : List JsString) :
    join sep (a :: b :: l) = a ++ sep :: join sep (b :: l) := by
  simp [join, List.intercalate]

theorem join_singleton (sep : UInt16) (a : JsString) : join sep [a] = a := by
  simp [join, List.intercalate]

theorem hexText_four {g : ℕ} (h : 4096 ≤ g) : hexText g = (groupDigits g).map hexDigit := by
  have hne : g / 4096 ≠ 0 := by omega
  unfold hexText
  rw [if_neg (by omega), groupDigits, List.dropWhile_cons_of_neg (by simpa using hne)]

theorem groupsText_head {g h : ℕ} {gs : List ℕ} (hg : g ≠ 0) :
    ∃ r, groupsText (g :: h :: gs) = hexText g ++ unit ':' :: r := by
  unfold groupsText
  cases hb : bestRun (g :: h :: gs) with
  | none => exact ⟨_, join_cons_cons _ _ _ _⟩
  | some i =>
    have hi := List.find?_some hb
    cases i with
    | zero =>
      have hrun : runLength (g :: h :: gs) 0 = 0 := by simp [runLength, hg]
      rw [hrun] at hi
      simp at hi
    | succ i =>
      dsimp only
      rw [List.take_succ_cons, List.map_cons]
      cases i with
      | zero =>
        rw [List.take_zero, List.map_nil, join_singleton, List.append_assoc]
        exact ⟨_, rfl⟩
      | succ i =>
        rw [List.take_succ_cons, List.map_cons, join_cons_cons]
        exact ⟨_, by rw [List.append_assoc, List.append_assoc, List.cons_append]⟩

/-- The text starts with its first group, if that is not zero. -/
theorem ipv6Hex_head {n : ℕ} (h : n / 2 ^ 112 % 65536 ≠ 0) :
    ∃ r, ipv6Hex n = hexText (n / 2 ^ 112 % 65536) ++ unit ':' :: r := groupsText_head h

/-- The groups of an IPv4-mapped address. -/
theorem groups_mapped {n : ℕ} (h : n / 2 ^ 32 = 0xffff) :
    groups n = [0, 0, 0, 0, 0, 0xffff, n / 2 ^ 16 % 65536, n % 65536] := by
  unfold groups
  have h1 : n / 2 ^ 112 % 65536 = 0 := by omega
  have h2 : n / 2 ^ 96 % 65536 = 0 := by omega
  have h3 : n / 2 ^ 80 % 65536 = 0 := by omega
  have h4 : n / 2 ^ 64 % 65536 = 0 := by omega
  have h5 : n / 2 ^ 48 % 65536 = 0 := by omega
  have h6 : n / 2 ^ 32 % 65536 = 0xffff := by omega
  rw [h1, h2, h3, h4, h5, h6]

theorem bestRun_mapped (a b : ℕ) : bestRun [0, 0, 0, 0, 0, 0xffff, a, b] = some 0 := by
  have hall : ∀ j ∈ List.range 8, runLength [0, 0, 0, 0, 0, 0xffff, a, b] j ≤ 5 := by
    intro j hj
    by_cases h3 : 3 ≤ j
    · refine (List.takeWhile_sublist _).length_le.trans ?_
      simp only [List.length_drop, List.length_cons, List.length_nil]
      omega
    · have hj' : j = 0 ∨ j = 1 ∨ j = 2 := by omega
      rcases hj' with rfl | rfl | rfl
      · exact le_of_eq rfl
      · exact (le_of_eq (show _ = 4 from rfl)).trans (by omega)
      · exact (le_of_eq (show _ = 3 from rfl)).trans (by omega)
  have h0 : (decide (2 ≤ runLength [0, 0, 0, 0, 0, 0xffff, a, b] 0) && (List.range 8).all fun j =>
      decide (runLength [0, 0, 0, 0, 0, 0xffff, a, b] j ≤ runLength [0, 0, 0, 0, 0, 0xffff, a, b] 0))
        = true := by
    rw [show runLength [0, 0, 0, 0, 0, 0xffff, a, b] 0 = 5 from rfl]
    simpa using fun j hj => hall j (List.mem_range.mpr hj)
  exact List.find?_cons_of_pos (l := [1, 2, 3, 4, 5, 6, 7]) (p := fun i =>
    decide (2 ≤ runLength [0, 0, 0, 0, 0, 0xffff, a, b] i) && (List.range 8).all fun j =>
      decide (runLength [0, 0, 0, 0, 0, 0xffff, a, b] j ≤ runLength [0, 0, 0, 0, 0, 0xffff, a, b] i)) h0

/-- The text of an IPv4-mapped address. -/
theorem ipv6Hex_mapped {n : ℕ} (h : n / 2 ^ 32 = 0xffff) :
    ipv6Hex n = js "::ffff:" ++ (hexText (n / 2 ^ 16 % 65536) ++ unit ':' :: hexText (n % 65536)) := by
  unfold ipv6Hex groupsText
  rw [groups_mapped h, bestRun_mapped]
  show [] ++ js "::" ++ join (unit ':') [hexText 0xffff, hexText _, hexText _] = _
  rw [join_cons_cons, join_cons_cons, join_singleton, show hexText 0xffff = js "ffff" by decide]
  rfl

theorem ipv6Hex_ne_nil (n : ℕ) : ipv6Hex n ≠ [] := by
  unfold ipv6Hex groupsText
  split
  · obtain ⟨a, b, l, hl⟩ : ∃ a b l, (groups n).map hexText = a :: b :: l := ⟨_, _, _, rfl⟩
    rw [hl, join_cons_cons]
    simp
  · exact List.append_ne_nil_of_left_ne_nil
      (List.append_ne_nil_of_right_ne_nil _ (by decide)) _

/-! ### The characters of an address -/

/-- A digit, a lower-case hexadecimal letter, a dot or a colon. -/
def isAddressUnit (c : UInt16) : Bool :=
  isDigit c || (97 ≤ c && c ≤ 102) || c == unit '.' || c == unit ':'

theorem mem_join {sep c : UInt16} {l : List JsString} (h : c ∈ join sep l) :
    c = sep ∨ ∃ x ∈ l, c ∈ x := by
  induction l with
  | nil => simp [join] at h
  | cons x l ih =>
    cases l with
    | nil => exact .inr ⟨x, by simp, by simpa [join, List.intercalate] using h⟩
    | cons y l =>
      rw [join_cons_cons] at h
      rcases List.mem_append.mp h with h | h
      · exact .inr ⟨x, by simp, h⟩
      · rcases List.mem_cons.mp h with h | h
        · exact .inl h
        · rcases ih h with h | ⟨z, hz, hc⟩
          · exact .inl h
          · exact .inr ⟨z, by simp only [List.mem_cons] at hz ⊢; exact .inr hz, hc⟩

theorem mem_join_of_mem {sep c : UInt16} : ∀ {l : List JsString} {x : JsString}, x ∈ l → c ∈ x →
    c ∈ join sep l
  | [y], x, hx, hc => by
    rw [List.mem_singleton.mp hx] at hc
    rw [join_singleton]
    exact hc
  | y :: z :: l, x, hx, hc => by
    rw [join_cons_cons]
    rcases List.mem_cons.mp hx with rfl | hx
    · exact List.mem_append_left _ hc
    · exact List.mem_append_right _ (List.mem_cons_of_mem _ (mem_join_of_mem hx hc))

theorem isAddressUnit_hexDigit {d : ℕ} (h : d < 16) :
    isDigit (hexDigit d) = true ∨ (97 ≤ hexDigit d ∧ hexDigit d ≤ 102) := by
  have hall : ∀ d < 16, isDigit (hexDigit d) = true ∨ (97 ≤ hexDigit d ∧ hexDigit d ≤ 102) := by decide
  exact hall d h

theorem groupDigits_lt {g d : ℕ} (hg : g < 65536) (h : d ∈ groupDigits g) : d < 16 := by
  simp only [groupDigits, List.mem_cons, List.not_mem_nil, or_false] at h
  omega

/-- A group is written with digits and the letters up to `f`. -/
theorem mem_hexText {g : ℕ} (hg : g < 65536) {c : UInt16} (h : c ∈ hexText g) :
    isDigit c = true ∨ (97 ≤ c ∧ c ≤ 102) := by
  unfold hexText at h
  split_ifs at h
  · left; rw [List.mem_singleton.mp h]; decide
  · obtain ⟨d, hd, rfl⟩ := List.mem_map.mp h
    exact isAddressUnit_hexDigit (groupDigits_lt hg ((List.dropWhile_sublist _).subset hd))

theorem isAddressUnit_of_hex {c : UInt16} (h : isDigit c = true ∨ (97 ≤ c ∧ c ≤ 102)) :
    isAddressUnit c = true := by
  unfold isAddressUnit
  rcases h with h | ⟨h1, h2⟩
  · simp [h]
  · simp [h1, h2]

theorem groups_lt {n g : ℕ} (h : g ∈ groups n) : g < 65536 := by
  simp only [groups, List.mem_cons, List.not_mem_nil, or_false] at h
  rcases h with rfl | rfl | rfl | rfl | rfl | rfl | rfl | rfl <;> exact Nat.mod_lt _ (by norm_num)

theorem mem_joinGroups {c : UInt16} {gs : List ℕ} (hgs : ∀ g ∈ gs, g < 65536)
    (h : c ∈ join (unit ':') (gs.map hexText)) :
    c = unit ':' ∨ isDigit c = true ∨ (97 ≤ c ∧ c ≤ 102) := by
  rcases mem_join h with h | ⟨x, hx, hc⟩
  · exact .inl h
  · obtain ⟨g, hg, rfl⟩ := List.mem_map.mp hx
    exact .inr (mem_hexText (hgs g hg) hc)

theorem mem_ipv6Hex {n : ℕ} {c : UInt16} (h : c ∈ ipv6Hex n) :
    c = unit ':' ∨ isDigit c = true ∨ (97 ≤ c ∧ c ≤ 102) := by
  unfold ipv6Hex groupsText at h
  split at h
  · exact mem_joinGroups (fun g => groups_lt) h
  · rcases List.mem_append.mp h with h | h
    · rcases List.mem_append.mp h with h | h
      · exact mem_joinGroups (fun g hg => groups_lt (List.mem_of_mem_take hg)) h
      · have hall : ∀ x ∈ js "::", x = unit ':' := by decide
        exact .inl (hall c h)
    · exact mem_joinGroups (fun g hg => groups_lt (List.mem_of_mem_drop hg)) h

theorem mem_ipv4Text {n : ℕ} {c : UInt16} (h : c ∈ ipv4Text n) : c = unit '.' ∨ isDigit c = true := by
  rcases mem_join h with h | ⟨x, hx, hc⟩
  · exact .inl h
  · obtain ⟨k, -, rfl⟩ := List.mem_map.mp hx
    exact .inr (isDigit_of_mem_decText hc)

theorem isAddressUnit_ipv4Text {n : ℕ} {c : UInt16} (h : c ∈ ipv4Text n) : isAddressUnit c = true := by
  rcases mem_ipv4Text h with rfl | h
  · decide
  · exact isAddressUnit_of_hex (.inl h)

theorem isAddressUnit_ipv6Hex {n : ℕ} {c : UInt16} (h : c ∈ ipv6Hex n) : isAddressUnit c = true := by
  rcases mem_ipv6Hex h with rfl | h
  · decide
  · exact isAddressUnit_of_hex h

theorem IsIpv6Text.isAddressUnit {n : ℕ} {t : JsString} (ht : IsIpv6Text n t) {c : UInt16}
    (h : c ∈ t) : isAddressUnit c = true := by
  rcases ht with rfl | rfl
  · exact isAddressUnit_ipv6Hex h
  · unfold ipv6Mixed at h
    split_ifs at h
    · rcases List.mem_append.mp h with h | h
      · have hall : ∀ x ∈ js "::ffff:", ConsensusNode.Lib.isAddressUnit x = true := by decide
        exact hall c h
      · exact isAddressUnit_ipv4Text h
    · rcases List.mem_append.mp h with h | h
      · have hall : ∀ x ∈ js "::", ConsensusNode.Lib.isAddressUnit x = true := by decide
        exact hall c h
      · exact isAddressUnit_ipv4Text h
    · exact isAddressUnit_ipv6Hex h

end ConsensusNode.Lib
