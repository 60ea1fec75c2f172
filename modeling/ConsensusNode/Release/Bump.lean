import ConsensusNode.Release.Version

/-! # When a bump moves forward

The version of a text is the one that the precedence compares. The first three bumps put a larger number first. The
prerelease bump counts up the digits at the end of the text, which are an identifier or the end of one: as an
identifier they compare as a number, as the end of a longer one as text, where after nines alone comes a text that
starts with a one.

* `nextPrerelease_lt_iff`: the next prerelease comes later, unless a text ends in nines.
* `bump_forward_iff`: when the next version is a version and later.
* `nextVersion_valid`: what `main` writes is a version. -/

namespace ConsensusNode.Release

open Js Lib.SemVer

/-! ### The version of a text -/

def codes (s : JsString) : List ℕ := s.map UInt16.toNat

/-- What an identifier is compared as. -/
def identifier (s : JsString) : Identifier := if s.all isDigit then number (digitsVal s) else word (codes s)

def identifiers (prerelease : JsString) : List Identifier := (prerelease.splitOn (unit '.')).map identifier

def SemverMatch.version (m : SemverMatch) : Version where
  major := digitsVal m.major
  minor := digitsVal m.minor
  patch := digitsVal m.patch
  prerelease := (m.prerelease.map identifiers).elim ⊤ fun ids => (ids : WithTop (List Identifier))

/-- Both are versions, and the second is later. -/
def Precedes (v w : JsString) : Prop := ∃ m n, exec v = some m ∧ exec w = some n ∧ m.version < n.version

/-- **What a bump should do**: give a later version. -/
def MovesForward (v : JsString) (kind : BumpKind) : Prop :=
  ∃ w, bumpVersion v kind = .ok w ∧ (∃ parsed, parseVersion w = .ok parsed) ∧ Precedes v w

/-- The numbers that a bump reads are below `2 ^ 53 - 1`. -/
structure SemverMatch.Small (m : SemverMatch) : Prop where
  major : digitsVal m.major < 2 ^ 53 - 1
  minor : digitsVal m.minor < 2 ^ 53 - 1
  patch : digitsVal m.patch < 2 ^ 53 - 1
  counter : ∀ s ∈ m.prerelease, digitsVal (s.rtakeWhile isDigit) < 2 ^ 53 - 1

def isNine (c : UInt16) : Bool := c == unit '9'

/-- The last identifier is a text with nines alone as the digits at its end. -/
def endsInNines (prerelease : JsString) : Bool :=
  let last := (prerelease.splitOn (unit '.')).getLastD []
  !last.all isDigit && !(last.rtakeWhile isDigit).isEmpty && (last.rtakeWhile isDigit).all isNine

/-- A prerelease bump needs a prerelease, and one that does not end in nines. -/
def Advances (kind : BumpKind) (prerelease : Option JsString) : Prop :=
  kind = .prerelease → ∃ s ∈ prerelease, endsInNines s = false

/-! ### The next number as text -/

@[simp] theorem codes_append (a b : JsString) : codes (a ++ b) = codes a ++ codes b := List.map_append

@[simp] theorem codes_cons (c : UInt16) (s : JsString) : codes (c :: s) = c.toNat :: codes s := rfl

theorem codes_lt_of_head {c d : UInt16} {a b : JsString} (h : c.toNat < d.toNat) :
    codes (c :: a) < codes (d :: b) := List.cons_lt_cons_iff.mpr (.inl h)

/-- A text of digits that are not all nines: the last digit below nine, and the nines after it. -/
theorem exists_carry {s : JsString} (hs : ∀ c ∈ s, isDigit c = true) (h : s.all isNine = false) :
    ∃ a d k, d < 9 ∧ s = a ++ digit d :: List.replicate k 57 := by
  have hsplit := List.rdropWhile_append_rtakeWhile (p := isNine) (l := s)
  have hne : s.rdropWhile isNine ≠ [] := by
    intro hnil
    rw [List.all_eq_false] at h
    obtain ⟨c, hc, hc9⟩ := h
    exact hc9 (List.rdropWhile_eq_nil_iff.mp hnil c hc)
  have hlast := List.rdropWhile_last_not _ _ hne
  set c := (s.rdropWhile isNine).getLast hne with hc
  have hmem : c ∈ s := (List.rdropWhile_prefix _ s).subset (List.getLast_mem hne)
  have hdigit := isDigit_iff.mp (hs c hmem)
  have hne57 : c.toNat ≠ 57 := fun h9 => hlast (beq_iff_eq.mpr (UInt16.toNat_inj.mp h9))
  refine ⟨(s.rdropWhile isNine).dropLast, c.toNat - 48, (s.rtakeWhile isNine).length, by omega, ?_⟩
  have hnines : s.rtakeWhile isNine = List.replicate (s.rtakeWhile isNine).length 57 :=
    List.eq_replicate_iff.mpr ⟨rfl, fun x hx => beq_iff_eq.mp (List.mem_rtakeWhile_imp (p := isNine) hx)⟩
  rw [digit_of_isDigit (hs c hmem), ← hnines, ← List.singleton_append, ← List.append_assoc,
    List.dropLast_append_getLast hne, hsplit]

/-- **The next number as text** comes later, unless there are nines alone. -/
theorem codes_lt_next_iff {s : JsString} (hne : s ≠ []) (hs : ∀ c ∈ s, isDigit c = true) :
    codes s < codes (decText (digitsVal s + 1)) ↔ s.all isNine = false := by
  constructor
  · intro hlt
    rw [Bool.eq_false_iff]
    intro hall
    have hnines : s = List.replicate s.length 57 :=
      List.eq_replicate_iff.mpr ⟨rfl, fun x hx => beq_iff_eq.mp (List.all_eq_true.mp hall x hx)⟩
    obtain ⟨k, hk⟩ := Nat.exists_eq_succ_of_ne_zero (fun h => hne (List.length_eq_zero_iff.mp h))
    rw [hnines, decText_nines, hk, List.replicate_succ] at hlt
    have hback : codes (49 :: List.replicate (k + 1) 48) < codes (57 :: List.replicate k 57) :=
      codes_lt_of_head (by decide)
    exact lt_asymm hlt hback
  · intro hnot
    rcases s with _ | ⟨c, r⟩
    · exact absurd rfl hne
    by_cases hzero : c = 48
    · -- a zero in front: the next number starts with another digit
      obtain ⟨d, t, hdt⟩ := List.exists_cons_of_ne_nil (decText_ne_nil (digitsVal (c :: r) + 1))
      have hd48 := head_decText (Nat.succ_pos _) hdt
      have hd := isDigit_iff.mp (isDigit_of_mem_decText (by rw [hdt]; exact List.mem_cons_self))
      have hne48 : d.toNat ≠ 48 := fun h => hd48 (UInt16.toNat_inj.mp h)
      rw [hdt, hzero]
      exact codes_lt_of_head (show 48 < d.toNat by omega)
    · obtain ⟨a, d, k, hd, heq⟩ := exists_carry hs hnot
      have hhead : ∀ x ∈ a.head?, x ≠ 48 := by
        rintro x hx rfl
        rcases a with _ | ⟨y, a⟩
        · cases hx
        · cases hx
          rw [List.cons_append] at heq
          exact hzero (List.cons.inj heq).1
      rw [heq, decText_carry hd (heq ▸ hs) hhead, codes_append, codes_append, append_lt_append_iff]
      refine codes_lt_of_head ?_
      rw [digit_toNat (by omega), digit_toNat (by omega)]
      omega

/-! ### The next prerelease -/

/-- The text ends in something else than a digit, if it is not empty. -/
def EndsInLabel (w : JsString) : Prop := ∀ h : w ≠ [], isDigit (w.getLast h) = false

theorem rtakeWhile_append_digits {w digits : JsString} (hw : EndsInLabel w) (hd : ∀ c ∈ digits, isDigit c = true) :
    (w ++ digits).rtakeWhile isDigit = digits := by
  have hnil : w.rtakeWhile isDigit = [] := by
    refine List.rtakeWhile_eq_nil_iff.mpr fun hne => ?_
    rw [hw hne]
    exact Bool.false_ne_true
  unfold List.rtakeWhile at hnil ⊢
  rw [List.reverse_append, List.takeWhile_append_of_pos fun c hc => hd c (List.mem_reverse.mp hc),
    List.reverse_append, hnil, List.nil_append, List.reverse_reverse]

/-- The pieces of a text whose digits at the end are replaced: only the last piece changes. -/
theorem split_counter (s : JsString) : ∃ l w, EndsInLabel w ∧
    ∀ t, unit '.' ∉ t → (s.rdropWhile isDigit ++ t).splitOn (unit '.') = l ++ [w ++ t] := by
  obtain ⟨l, w, hlabel, -⟩ := splitOn_append (unit '.') (t := []) List.not_mem_nil (s.rdropWhile isDigit)
  refine ⟨l, w, fun hne => ?_, fun t ht => ?_⟩
  · have hsuffix : w <:+ s.rdropWhile isDigit := by
      rw [← join_splitOn (unit '.') (s.rdropWhile isDigit), hlabel]
      rcases l with _ | ⟨a, l⟩
      · rw [List.nil_append, Lib.join_singleton]
      · rw [join_concat _ _ (List.cons_ne_nil a l)]
        exact (List.suffix_cons _ _).trans (List.suffix_append _ _)
    have hlast := List.rdropWhile_last_not isDigit s fun hnil => hne (List.suffix_nil.mp (hnil ▸ hsuffix))
    rw [← hsuffix.getLast hne] at hlast
    exact Bool.eq_false_iff.mpr hlast
  · obtain ⟨l', w', hlabel', ht'⟩ := splitOn_append (unit '.') ht (s.rdropWhile isDigit)
    obtain ⟨rfl, hw⟩ := List.append_inj' (hlabel.symm.trans hlabel') rfl
    rw [ht', List.head_eq_of_cons_eq hw]

theorem digits_no_point {t : JsString} (h : ∀ c ∈ t, isDigit c = true) : unit '.' ∉ t := by
  intro hmem
  exact absurd (h _ hmem) (by decide)

theorem js_one : js "1" = decText 1 := by decide

/-- The pieces of the next prerelease: the number at the end goes up by one, or there is a new piece. -/
theorem split_next {s : JsString} (hsmall : digitsVal (s.rtakeWhile isDigit) < 2 ^ 53 - 1) : ∃ l w, EndsInLabel w ∧
    s.splitOn (unit '.') = l ++ [w ++ s.rtakeWhile isDigit] ∧
    (nextPrerelease s).splitOn (unit '.') =
      if s.rtakeWhile isDigit = [] then l ++ [w] ++ [decText 1]
      else l ++ [w ++ decText (digitsVal (s.rtakeWhile isDigit) + 1)] := by
  obtain ⟨l, w, hw, hsplit⟩ := split_counter s
  have hdigits : ∀ c ∈ s.rtakeWhile isDigit, isDigit c = true := fun c hc => List.mem_rtakeWhile_imp hc
  have hself := hsplit _ (digits_no_point hdigits)
  rw [List.rdropWhile_append_rtakeWhile] at hself
  refine ⟨l, w, hw, hself, ?_⟩
  unfold nextPrerelease execCounter
  split_ifs with hnil
  · rw [hnil, List.append_nil] at hself
    rw [hnil]
    show (s ++ unit '.' :: js "1").splitOn (unit '.') = _
    have hjoin : s ++ unit '.' :: js "1" = join (unit '.') (l ++ [w] ++ [decText 1]) := by
      rw [join_concat _ _ (by simp), ← hself, join_splitOn, js_one]
    rw [hjoin]
    refine List.splitOn_intercalate _ (fun x hx => ?_) (by simp)
    rcases List.mem_append.mp hx with hx | hx
    · exact not_mem_of_mem_splitOn (hself ▸ hx)
    · rw [List.mem_singleton.mp hx]
      exact digits_no_point fun c hc => isDigit_of_mem_decText hc
  · rcases hcounter : s.rtakeWhile isDigit with _ | ⟨c, r⟩
    · exact absurd hcounter hnil
    · rw [hcounter] at hdigits hsmall
      dsimp only
      rw [text_addOne (List.cons_ne_nil c r) hdigits hsmall]
      exact hsplit _ (digits_no_point fun c hc => isDigit_of_mem_decText hc)

theorem isPrereleaseIdentifier_decText (n : ℕ) : isPrereleaseIdentifier (decText n) = true :=
  Bool.or_eq_true_iff.mpr (.inl (isNumericIdentifier_decText n))

/-- Another number at the end of an identifier. -/
theorem isPrereleaseIdentifier_replace {w digits : JsString} (hw : EndsInLabel w)
    (h : isPrereleaseIdentifier (w ++ digits) = true) (n : ℕ) : isPrereleaseIdentifier (w ++ decText n) = true := by
  by_cases hne : w = []
  · rw [hne]
    exact isPrereleaseIdentifier_decText n
  · refine Bool.or_eq_true_iff.mpr (.inr (isAlphanumericIdentifier_iff.mpr ⟨fun c hc => ?_, w.getLast hne, ?_, hw hne⟩))
    · rcases List.mem_append.mp hc with hc | hc
      · exact isIdentifierChar_of_prerelease h (List.mem_append_left _ hc)
      · exact Bool.or_eq_true_iff.mpr (.inl (isDigit_of_mem_decText hc))
    · exact List.mem_append_left _ (List.getLast_mem hne)

/-- The next prerelease is a prerelease. -/
theorem isPrerelease_next {s : JsString} (h : isPrerelease s = true)
    (hsmall : digitsVal (s.rtakeWhile isDigit) < 2 ^ 53 - 1) : isPrerelease (nextPrerelease s) = true := by
  obtain ⟨l, w, hw, hself, hnext⟩ := split_next hsmall
  rw [isPrerelease, hself, List.all_eq_true] at h
  rw [isPrerelease, hnext, List.all_eq_true]
  intro x hx
  split_ifs at hx with hnil
  · rw [hnil, List.append_nil] at h
    rcases List.mem_append.mp hx with hx | hx
    · exact h x hx
    · rw [List.mem_singleton.mp hx]
      exact isPrereleaseIdentifier_decText 1
  · rcases List.mem_append.mp hx with hx | hx
    · exact h x (List.mem_append_left _ hx)
    · rw [List.mem_singleton.mp hx]
      exact isPrereleaseIdentifier_replace hw (h _ (List.mem_append_right _ (List.mem_singleton_self _))) _

theorem identifier_digits {s : JsString} (h : ∀ c ∈ s, isDigit c = true) : identifier s = number (digitsVal s) :=
  if_pos (List.all_eq_true.mpr h)

theorem not_all_digits {w : JsString} (hw : EndsInLabel w) (hne : w ≠ []) (t : JsString) :
    (w ++ t).all isDigit = false := by
  refine List.all_eq_false.mpr ⟨w.getLast hne, List.mem_append_left _ (List.getLast_mem hne), ?_⟩
  rw [hw hne]
  exact Bool.false_ne_true

theorem identifier_word {w : JsString} (hw : EndsInLabel w) (hne : w ≠ []) (t : JsString) :
    identifier (w ++ t) = word (codes w ++ codes t) := by
  rw [identifier, not_all_digits hw hne t, codes_append]
  rfl

theorem endsInNines_eq {s w digits : JsString} {l : List JsString} (hw : EndsInLabel w)
    (hd : ∀ c ∈ digits, isDigit c = true) (hsplit : s.splitOn (unit '.') = l ++ [w ++ digits]) :
    endsInNines s = (!w.isEmpty && !digits.isEmpty && digits.all isNine) := by
  have hlast : (s.splitOn (unit '.')).getLastD [] = w ++ digits := by rw [hsplit, List.getLastD_concat]
  unfold endsInNines
  dsimp only
  rw [hlast, rtakeWhile_append_digits hw hd]
  by_cases hne : w = []
  · rw [hne, List.nil_append, List.all_eq_true.mpr hd]
    rfl
  · rw [not_all_digits hw hne, List.isEmpty_eq_false_iff.mpr hne]

/-- **The next prerelease comes later**, unless a text ends in nines. -/
theorem nextPrerelease_lt_iff {s : JsString} (hsmall : digitsVal (s.rtakeWhile isDigit) < 2 ^ 53 - 1) :
    identifiers s < identifiers (nextPrerelease s) ↔ endsInNines s = false := by
  obtain ⟨l, w, hw, hself, hnext⟩ := split_next hsmall
  have hdigits : ∀ c ∈ s.rtakeWhile isDigit, isDigit c = true := fun c hc => List.mem_rtakeWhile_imp hc
  rw [endsInNines_eq hw hdigits hself, identifiers, identifiers, hself, hnext]
  by_cases hnil : s.rtakeWhile isDigit = []
  · -- a new identifier after the others
    have hconcat : (l ++ [w] ++ [decText 1]).map identifier = (l ++ [w]).map identifier ++ [identifier (decText 1)] :=
      List.map_append
    rw [if_pos hnil, hnil, List.append_nil, hconcat]
    simp only [List.isEmpty_nil, Bool.not_true, Bool.and_false, Bool.false_and, iff_true]
    exact lt_concat ((l ++ [w]).map identifier) (identifier (decText 1))
  rw [if_neg hnil, List.map_append, List.map_append, List.map_singleton, List.map_singleton, concat_lt_concat_iff]
  by_cases hne : w = []
  · -- the last identifier is a number
    rw [hne, List.nil_append, List.nil_append, identifier_digits hdigits,
      identifier_digits fun c hc => isDigit_of_mem_decText hc, digitsVal_decText, number_lt_number]
    simp
  · -- the last identifier is a text that ends in a number
    rw [identifier_word hw hne, identifier_word hw hne, word_lt_word, codes_lt_next_iff hnil hdigits,
      List.isEmpty_eq_false_iff.mpr hne, List.isEmpty_eq_false_iff.mpr hnil]
    rfl

/-! ### The next version -/

/-- The groups of the next version. -/
def SemverMatch.next (m : SemverMatch) : BumpKind → SemverMatch
  | .major => ⟨decText (digitsVal m.major + 1), js "0", js "0", none, none⟩
  | .minor => ⟨m.major, decText (digitsVal m.minor + 1), js "0", none, none⟩
  | .patch => ⟨m.major, m.minor, decText (digitsVal m.patch + 1), none, none⟩
  | .prerelease => ⟨m.major, m.minor, m.patch, some (nextPrerelease (m.prerelease.getD (js "alpha.0"))), none⟩

section Next

variable {v : JsString} {m : SemverMatch}

theorem addOne_of_numeric {s : JsString} (h : isNumericIdentifier s = true) (hsmall : digitsVal s < 2 ^ 53 - 1) :
    text (addOne (numberOfText s)) = decText (digitsVal s + 1) :=
  text_addOne (isNumericIdentifier_iff.mp h).1 (isNumericIdentifier_iff.mp h).2.1 hsmall

/-- **What a bump returns.** -/
theorem bumpVersion_eq (hm : exec v = some m) (hsmall : m.Small) (kind : BumpKind) :
    bumpVersion v kind = .ok (m.next kind).text := by
  obtain ⟨h₁, h₂, h₃, -, -⟩ := SemverMatch.wf_iff.mp (exec_eq_some_iff.mp hm).1
  unfold bumpVersion parseVersion SemverMatch.text
  rw [hm]
  cases kind with
  | major =>
    show Except.ok (coreText (text (addOne (numberOfText m.major))) (js "0") (js "0")) = _
    rw [addOne_of_numeric h₁ hsmall.major]
    simp [SemverMatch.next, tail]
  | minor =>
    show Except.ok (coreText (text (numberOfText m.major)) (text (addOne (numberOfText m.minor))) (js "0")) = _
    rw [text_number h₁ hsmall.major, addOne_of_numeric h₂ hsmall.minor]
    simp [SemverMatch.next, tail]
  | patch =>
    show Except.ok (coreText (text (numberOfText m.major)) (text (numberOfText m.minor))
      (text (addOne (numberOfText m.patch)))) = _
    rw [text_number h₁ hsmall.major, text_number h₂ hsmall.minor, addOne_of_numeric h₃ hsmall.patch]
    simp [SemverMatch.next, tail]
  | prerelease =>
    show Except.ok (coreText (text (numberOfText m.major)) (text (numberOfText m.minor))
      (text (numberOfText m.patch)) ++ unit '-' :: nextPrerelease (m.prerelease.getD (js "alpha.0"))) = _
    rw [text_number h₁ hsmall.major, text_number h₂ hsmall.minor, text_number h₃ hsmall.patch]
    simp [SemverMatch.next, tail]

/-- What the prerelease bump counts up. -/
theorem counted_prerelease (hm : exec v = some m) (hsmall : m.Small) :
    isPrerelease (m.prerelease.getD (js "alpha.0")) = true ∧
    digitsVal ((m.prerelease.getD (js "alpha.0")).rtakeWhile isDigit) < 2 ^ 53 - 1 := by
  obtain ⟨-, -, -, hp, -⟩ := SemverMatch.wf_iff.mp (exec_eq_some_iff.mp hm).1
  cases hs : m.prerelease with
  | none => exact ⟨by decide, by decide⟩
  | some s =>
    rw [hs] at hp
    exact ⟨hp, hsmall.counter s hs⟩

theorem wf_next (hm : exec v = some m) (hsmall : m.Small) (kind : BumpKind) : (m.next kind).wf = true := by
  obtain ⟨h₁, h₂, h₃, -, -⟩ := SemverMatch.wf_iff.mp (exec_eq_some_iff.mp hm).1
  have hzero : isNumericIdentifier (js "0") = true := by decide
  refine SemverMatch.wf_iff.mpr ?_
  cases kind with
  | major => exact ⟨isNumericIdentifier_decText (digitsVal m.major + 1), hzero, hzero, rfl, rfl⟩
  | minor => exact ⟨h₁, isNumericIdentifier_decText (digitsVal m.minor + 1), hzero, rfl, rfl⟩
  | patch => exact ⟨h₁, h₂, isNumericIdentifier_decText (digitsVal m.patch + 1), rfl, rfl⟩
  | prerelease =>
    obtain ⟨hp, hcounter⟩ := counted_prerelease hm hsmall
    exact ⟨h₁, h₂, h₃, isPrerelease_next hp hcounter, rfl⟩

theorem version_lt_next_iff (hm : exec v = some m) (hsmall : m.Small) (kind : BumpKind) :
    m.version < (m.next kind).version ↔ Advances kind m.prerelease := by
  have hnext : ∀ s, digitsVal s < digitsVal (decText (digitsVal s + 1)) := by
    intro s
    rw [digitsVal_decText]
    exact Nat.lt_succ_self _
  cases kind with
  | major => exact iff_of_true (lt_of_major (hnext m.major)) fun h => by cases h
  | minor => exact iff_of_true (lt_of_minor rfl (hnext m.minor)) fun h => by cases h
  | patch => exact iff_of_true (lt_of_patch rfl rfl (hnext m.patch)) fun h => by cases h
  | prerelease =>
    have hsame := lt_iff_prerelease (v := m.version) (w := (m.next .prerelease).version) rfl rfl rfl
    rw [hsame]
    obtain ⟨-, hcounter⟩ := counted_prerelease hm hsmall
    unfold Advances SemverMatch.version SemverMatch.next
    cases hs : m.prerelease with
    | none =>
      -- a release is above all its prereleases
      refine iff_of_false (by simp) fun h => ?_
      obtain ⟨s, h, -⟩ := h rfl
      cases h
    | some s =>
      rw [hs, Option.getD_some] at hcounter
      show (identifiers s : WithTop (List Identifier)) < (identifiers (nextPrerelease s) : WithTop _) ↔ _
      rw [WithTop.coe_lt_coe, nextPrerelease_lt_iff hcounter]
      simp

/-- The next version is read back. -/
theorem exec_next (hm : exec v = some m) (hsmall : m.Small) (kind : BumpKind) :
    exec (m.next kind).text = some (m.next kind) := exec_eq_some_iff.mpr ⟨wf_next hm hsmall kind, rfl⟩

/-- **When a bump moves forward.** The next version is always a version. -/
theorem bump_forward_iff (hm : exec v = some m) (hsmall : m.Small) (kind : BumpKind) :
    (∃ w parsed, bumpVersion v kind = .ok w ∧ parseVersion w = .ok parsed) ∧
    (MovesForward v kind ↔ Advances kind m.prerelease) := by
  have hbump := bumpVersion_eq hm hsmall kind
  have hexec := exec_next hm hsmall kind
  obtain ⟨parsed, hparsed⟩ := parseVersion_isOk_iff.mpr ⟨_, hexec⟩
  refine ⟨⟨_, parsed, hbump, hparsed⟩, ?_⟩
  rw [← version_lt_next_iff hm hsmall kind]
  constructor
  · rintro ⟨w, hw, -, m', n, hm', hn, hlt⟩
    rw [hbump] at hw
    cases hw
    rw [hm] at hm'
    rw [hexec] at hn
    cases hm'
    cases hn
    exact hlt
  · exact fun hlt => ⟨_, hbump, ⟨parsed, hparsed⟩, m, _, hm, hexec, hlt⟩

/-- What `main` writes to the package is a version. -/
theorem nextVersion_valid (hm : exec v = some m) (hsmall : m.Small) {requested : Option JsString} {w : JsString}
    (h : nextVersion v requested = .ok w) : ∃ parsed, parseVersion w = .ok parsed := by
  unfold nextVersion at h
  split at h
  · cases h
  split at h
  · rename_i kind _
    rw [bumpVersion_eq hm hsmall kind] at h
    cases h
    exact parseVersion_isOk_iff.mpr ⟨_, exec_next hm hsmall kind⟩
  · obtain ⟨parsed, hparsed, hw⟩ := bind_eq_ok.mp h
    cases hw
    exact ⟨parsed, hparsed⟩

end Next

namespace Sample

/-- Version `0.1.0` with a prerelease. -/
def prereleaseOf (prerelease : Option JsString) : SemverMatch where
  major := js "0"
  minor := js "1"
  patch := js "0"
  prerelease := prerelease
  build := none

/-- The version of the package. -/
theorem alpha_forward : MovesForward (js "0.1.0-alpha.12") .prerelease :=
  (bump_forward_iff (m := prereleaseOf (some (js "alpha.12"))) (exec_eq_some_iff.mpr ⟨by decide, by decide⟩)
    ⟨by decide, by decide, by decide, fun s hs => by cases hs; decide⟩ .prerelease).2.mpr fun _ =>
      ⟨js "alpha.12", rfl, by decide⟩

example : bumpVersion (js "0.1.0-alpha.12") .prerelease = .ok (js "0.1.0-alpha.13") := by decide +kernel

/-- After `alpha9` comes `alpha10`, which is earlier as a text. -/
theorem alpha_nine_back : ¬ ∀ v m kind, exec v = some m → m.Small → MovesForward v kind := by
  intro h
  have hm : exec (js "0.1.0-alpha9") = some (prereleaseOf (some (js "alpha9"))) :=
    exec_eq_some_iff.mpr ⟨by decide, by decide⟩
  have hsmall : (prereleaseOf (some (js "alpha9"))).Small :=
    ⟨by decide, by decide, by decide, fun s hs => by cases hs; decide⟩
  obtain ⟨w, hw, -, m, n, hm', hn, hlt⟩ := h _ _ .prerelease hm hsmall
  have hbump : bumpVersion (js "0.1.0-alpha9") .prerelease = .ok (js "0.1.0-alpha10") := by decide +kernel
  rw [hbump] at hw
  cases hw
  rw [hm] at hm'
  cases hm'
  have hn' : exec (js "0.1.0-alpha10") = some (prereleaseOf (some (js "alpha10"))) :=
    exec_eq_some_iff.mpr ⟨by decide, by decide⟩
  rw [hn'] at hn
  cases hn
  have hprerelease := (lt_iff_prerelease (v := (prereleaseOf (some (js "alpha9"))).version)
    (w := (prereleaseOf (some (js "alpha10"))).version) rfl rfl rfl).mp hlt
  have hlist : identifiers (js "alpha9") < identifiers (js "alpha10") := WithTop.coe_lt_coe.mp hprerelease
  revert hlist
  decide

end Sample

end ConsensusNode.Release
