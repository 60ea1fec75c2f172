import Mathlib.Data.List.Basic
import Mathlib.Data.List.Sort
import Mathlib.Data.Nat.Digits.Lemmas

/-! # Strings of the language

A string is a list of UTF-16 code units; a surrogate may stand alone. Strings are compared by code
units, which is the lexicographic order of the lists. `js` reads a literal. `trim`, `splitOn` and the
white space of `\s` follow the language; `sortText` is `Array.prototype.sort` without a comparator,
which is stable.

Numbers in text: `decText` writes a natural number in decimal and `digitsVal` reads it back. -/

namespace ConsensusNode.Js

/-- A string: its UTF-16 code units. -/
abbrev JsString := List UInt16

instance lawfulText : LawfulBEq JsString := List.instLawfulBEq

/-- A statement about the units of a text is decided along the text (and not over all code units). -/
instance (priority := 1100) decidableUnits {q : UInt16 → Prop} [DecidablePred q] (s : JsString) :
    Decidable (∀ c ∈ s, q c) := List.decidableBAll q s

/-- The code units of a character. -/
def charUnits (c : Char) : JsString :=
  let n := c.toNat
  if n < 0x10000 then [UInt16.ofNat n]
  else [UInt16.ofNat (0xD800 + (n - 0x10000) / 0x400), UInt16.ofNat (0xDC00 + (n - 0x10000) % 0x400)]

/-- The string of a literal. -/
def js (s : String) : JsString := s.toList.flatMap charUnits

/-- The code unit of an ASCII character. -/
def unit (c : Char) : UInt16 := UInt16.ofNat c.toNat

/-- A high (leading) surrogate. -/
def isHigh (c : UInt16) : Bool := 0xD800 ≤ c && c ≤ 0xDBFF

/-- A low (trailing) surrogate. -/
def isLow (c : UInt16) : Bool := 0xDC00 ≤ c && c ≤ 0xDFFF

/-- White space and line terminators: what `trim` removes and `\s` matches. -/
def isSpace (c : UInt16) : Bool :=
  (9 ≤ c && c ≤ 13) || c = 32 || c = 0xA0 || c = 0x1680 || (0x2000 ≤ c && c ≤ 0x200A) ||
    c = 0x2028 || c = 0x2029 || c = 0x202F || c = 0x205F || c = 0x3000 || c = 0xFEFF

def trimStart (s : JsString) : JsString := s.dropWhile isSpace

def trimEnd (s : JsString) : JsString := (s.reverse.dropWhile isSpace).reverse

def trim (s : JsString) : JsString := trimEnd (trimStart s)

/-- Every unit is ASCII. -/
def isAscii (s : JsString) : Bool := s.all fun c => c < 128

/-- The ASCII letters in upper case. -/
def asciiUpper (s : JsString) : JsString := s.map fun c => if 97 ≤ c ∧ c ≤ 122 then c - 32 else c

/-- The ASCII letters in lower case. -/
def asciiLower (s : JsString) : JsString := s.map fun c => if 65 ≤ c ∧ c ≤ 90 then c + 32 else c

/-- `replace(/\s+/g, ' ')`: every maximal run of white space becomes one space. -/
def collapseSpace : JsString → JsString
  | [] => []
  | [c] => if isSpace c then [32] else [c]
  | c :: d :: s =>
    if isSpace c then (if isSpace d then collapseSpace (d :: s) else 32 :: collapseSpace (d :: s))
    else c :: collapseSpace (d :: s)

def startsWith (s p : JsString) : Bool := p.isPrefixOf s

/-- `join` with a separator of one code unit. -/
def join (sep : UInt16) (l : List JsString) : JsString := [sep].intercalate l

/-- `sort()` on strings. -/
def sortText (l : List JsString) : List JsString := l.insertionSort (· ≤ ·)

theorem sortText_perm (l : List JsString) : (sortText l).Perm l := List.perm_insertionSort _ _

theorem sortText_sorted (l : List JsString) : (sortText l).Pairwise (· ≤ ·) :=
  List.pairwise_insertionSort _ _

theorem sortText_of_sorted {l : List JsString} (h : l.Pairwise (· ≤ ·)) : sortText l = l :=
  List.Pairwise.insertionSort_eq h

/-! ### Splitting and trimming -/

/-- The pieces of a split do not contain the separator. -/
theorem not_mem_of_mem_splitOn {sep : UInt16} : ∀ {s l : JsString}, l ∈ s.splitOn sep → sep ∉ l
  | [], l, h => by
    rw [List.splitOn_nil, List.mem_singleton] at h
    simp [h]
  | c :: s, l, h => by
    rw [List.splitOn_cons_eq_if_modifyHead] at h
    split_ifs at h with hc
    · rcases List.mem_cons.mp h with rfl | h
      · simp
      · exact not_mem_of_mem_splitOn h
    · obtain ⟨x, xs, hx⟩ := List.exists_cons_of_ne_nil (List.splitOn_ne_nil sep s)
      rw [hx, List.modifyHead_cons] at h
      have hne : sep ≠ c := by
        rintro rfl
        simp at hc
      rcases List.mem_cons.mp h with rfl | h
      · have hmem : x ∈ s.splitOn sep := by rw [hx]; simp
        have := not_mem_of_mem_splitOn hmem
        simp [hne, this]
      · exact not_mem_of_mem_splitOn (s := s) (by rw [hx]; simp [h])

theorem dropWhile_idem {α : Type*} (p : α → Bool) (l : List α) :
    (l.dropWhile p).dropWhile p = l.dropWhile p := by
  induction l with
  | nil => rfl
  | cons a l ih =>
    by_cases h : p a = true
    · rw [List.dropWhile_cons_of_pos h]; exact ih
    · rw [List.dropWhile_cons_of_neg h, List.dropWhile_cons_of_neg h]

theorem trimEnd_trimEnd (s : JsString) : trimEnd (trimEnd s) = trimEnd s := by
  unfold trimEnd; rw [List.reverse_reverse, dropWhile_idem]

/-- Trimming the end keeps a first character that is not white space. -/
theorem trimEnd_cons {c : UInt16} (s : JsString) (hc : isSpace c = false) :
    trimEnd (c :: s) = c :: trimEnd s := by
  unfold trimEnd
  rw [List.reverse_cons, List.dropWhile_append]
  split_ifs with h
  · have hnil : s.reverse.dropWhile isSpace = [] := List.isEmpty_iff.mp h
    rw [hnil]; simp [hc]
  · simp

theorem trimStart_of_head {c : UInt16} {s : JsString} (hc : isSpace c = false) :
    trimStart (c :: s) = c :: s := by
  unfold trimStart; rw [List.dropWhile_cons_of_neg (by simp [hc])]

theorem trimStart_head (s : JsString) : trimStart s = [] ∨
    ∃ c r, trimStart s = c :: r ∧ isSpace c = false := by
  cases h : trimStart s with
  | nil => exact Or.inl rfl
  | cons c r =>
    refine Or.inr ⟨c, r, rfl, ?_⟩
    have hne : s.dropWhile isSpace ≠ [] := by rw [show s.dropWhile isSpace = c :: r from h]; simp
    have := List.head_dropWhile_not isSpace hne
    simpa [show s.dropWhile isSpace = c :: r from h] using this

theorem trim_trim (s : JsString) : trim (trim s) = trim s := by
  rcases trimStart_head s with h | ⟨c, r, h, hc⟩
  · unfold trim; rw [h]; rfl
  · have h1 : trim s = c :: trimEnd r := by unfold trim; rw [h, trimEnd_cons r hc]
    rw [h1]
    unfold trim
    rw [trimStart_of_head hc, trimEnd_cons _ hc, trimEnd_trimEnd]

theorem trim_of_not_space {s : JsString} (h : ∀ c ∈ s, isSpace c = false) : trim s = s := by
  have hstart : trimStart s = s := by
    rcases s with _ | ⟨c, s⟩
    · rfl
    · exact trimStart_of_head (h c (by simp))
  have hend : s.reverse.dropWhile isSpace = s.reverse := by
    rcases hr : s.reverse with _ | ⟨c, r⟩
    · rfl
    · have hc : c ∈ s := List.mem_reverse.mp (by simp [hr])
      exact List.dropWhile_cons_of_neg (by simp [h c hc])
  unfold trim trimEnd
  rw [hstart, hend, List.reverse_reverse]

theorem mem_of_mem_trim {s : JsString} {c : UInt16} (h : c ∈ trim s) : c ∈ s := by
  have h1 : c ∈ (trimStart s).reverse := (List.dropWhile_suffix _).subset (List.mem_reverse.mp h)
  exact (List.dropWhile_suffix _).subset (List.mem_reverse.mp h1)

/-! ### Decimal digits -/

/-- The digit of a number below ten. -/
def digit (d : ℕ) : UInt16 := UInt16.ofNat (48 + d)

def isDigit (c : UInt16) : Bool := 48 ≤ c && c ≤ 57

/-- A natural number in decimal. -/
def decText (n : ℕ) : JsString := if n = 0 then [48] else (Nat.digits 10 n).reverse.map digit

/-- The value of a list of digits. -/
def digitsVal (ds : JsString) : ℕ := ds.foldl (fun a c => a * 10 + (c.toNat - 48)) 0

theorem digit_toNat {d : ℕ} (h : d < 10) : (digit d).toNat = 48 + d := by
  unfold digit
  rw [UInt16.toNat_ofNat_of_lt' (by simp [UInt16.size]; omega)]

theorem isDigit_digit {d : ℕ} (h : d < 10) : isDigit (digit d) = true := by
  unfold isDigit
  simp only [Bool.and_eq_true, decide_eq_true_eq, UInt16.le_iff_toNat_le, digit_toNat h]
  exact ⟨by show 48 ≤ 48 + d; omega, by show 48 + d ≤ 57; omega⟩

theorem foldl_digits (a : ℕ) (ds : JsString) :
    ds.foldl (fun a c => a * 10 + (c.toNat - 48)) a = a * 10 ^ ds.length + digitsVal ds := by
  unfold digitsVal
  induction ds generalizing a with
  | nil => simp
  | cons c ds ih =>
    simp only [List.foldl_cons, List.length_cons]
    rw [ih, ih (0 * 10 + (c.toNat - 48))]
    ring

theorem digitsVal_append (ds es : JsString) :
    digitsVal (ds ++ es) = digitsVal ds * 10 ^ es.length + digitsVal es := by
  rw [digitsVal, List.foldl_append, foldl_digits]; rfl

theorem digitsVal_digits {l : List ℕ} (h : ∀ d ∈ l, d < 10) :
    digitsVal (l.reverse.map digit) = Nat.ofDigits 10 l := by
  induction l with
  | nil => rfl
  | cons a l ih =>
    rw [List.reverse_cons, List.map_append, digitsVal_append, ih fun d hd => h d (by simp [hd])]
    have ha : (digit a).toNat = 48 + a := digit_toNat (h a (by simp))
    rw [Nat.ofDigits_cons]
    simp [digitsVal, ha]
    ring

theorem digitsVal_decText (n : ℕ) : digitsVal (decText n) = n := by
  unfold decText
  split_ifs with h
  · subst h; rfl
  · rw [digitsVal_digits fun d hd => Nat.digits_lt_base (by norm_num) hd, Nat.ofDigits_digits]

theorem digitsVal_zeros (n : ℕ) (ds : JsString) :
    digitsVal (List.replicate n 48 ++ ds) = digitsVal ds := by
  induction n with
  | zero => simp
  | succ n ih =>
    rw [List.replicate_succ, List.cons_append]
    rw [show digitsVal (48 :: (List.replicate n 48 ++ ds)) =
      digitsVal (List.replicate n 48 ++ ds) from rfl, ih]

theorem isDigit_of_mem_decText {n : ℕ} {c : UInt16} (h : c ∈ decText n) : isDigit c = true := by
  unfold decText at h
  split_ifs at h with hn
  · rw [List.mem_singleton.mp h]; rfl
  · obtain ⟨d, hd, rfl⟩ := List.mem_map.mp h
    exact isDigit_digit (Nat.digits_lt_base (by norm_num) (List.mem_reverse.mp hd))

theorem decText_ne_nil (n : ℕ) : decText n ≠ [] := by
  unfold decText
  split_ifs with h
  · simp
  · simp [Nat.digits_ne_nil_iff_ne_zero.mpr h]

theorem decText_injective : Function.Injective decText := fun a b h => by
  rw [← digitsVal_decText a, h, digitsVal_decText]

/-- A positive number does not start with the digit zero. -/
theorem head_decText {n : ℕ} (hn : 0 < n) {c : UInt16} {r : JsString} (h : decText n = c :: r) :
    c ≠ 48 := by
  unfold decText at h
  rw [if_neg (by omega)] at h
  have hne : Nat.digits 10 n ≠ [] := Nat.digits_ne_nil_iff_ne_zero.mpr (by omega)
  have hlast := Nat.getLast_digit_ne_zero 10 (m := n) (by omega)
  have hhead : (Nat.digits 10 n).reverse.head? = some ((Nat.digits 10 n).getLast hne) := by
    rw [List.head?_reverse, List.getLast?_eq_getLast_of_ne_nil hne]
  cases hr : (Nat.digits 10 n).reverse with
  | nil => rw [hr] at h; simp at h
  | cons d ds =>
    rw [hr] at h hhead
    simp only [List.map_cons, List.cons.injEq, List.head?_cons, Option.some.injEq] at h hhead
    have hd : d < 10 := Nat.digits_lt_base (b := 10) (m := n) (by norm_num)
      (List.mem_reverse.mp (by rw [hr]; simp))
    rw [← h.1]
    intro h48
    have := digit_toNat hd
    rw [h48] at this
    simp at this
    exact hlast (by rw [← hhead]; omega)

end ConsensusNode.Js
