import ConsensusNode.Js.Decimal
import ConsensusNode.Js.Path
import ConsensusNode.Lib.IpText
import ConsensusNode.Lib.SemVer

/-! # Version numbers

`version.ts`: the version of the package, its pattern, and the next version.

`SEMVER_PATTERN` is read from the outside in: the text after the first `+` is the build, the text after the first
`-` of the rest is the prerelease, and the rest has three parts between points. No part can contain the separator
that ends it, so that no other reading is possible.

* `exec_eq_some_iff`: what the pattern accepts, and its groups.
* `text_number`, `text_addOne`: numbers that are read and written again. -/

namespace ConsensusNode.Release

open Js

/-! ### The pattern -/

/-- `[A-Za-z-]`. -/
def isLetter (c : UInt16) : Bool := (unit 'A' ≤ c && c ≤ unit 'Z') || (unit 'a' ≤ c && c ≤ unit 'z') || c == unit '-'

/-- `[0-9A-Za-z-]`. -/
def isIdentifierChar (c : UInt16) : Bool := isDigit c || isLetter c

/-- `0|[1-9]\d*`. -/
def isNumericIdentifier : JsString → Bool
  | [] => false
  | c :: r => (c == unit '0' && r.isEmpty) || (unit '1' ≤ c && c ≤ unit '9' && r.all isDigit)

/-- `\d*[A-Za-z-][0-9A-Za-z-]*`. -/
def isAlphanumericIdentifier (s : JsString) : Bool :=
  match s.dropWhile isDigit with
  | [] => false
  | c :: r => isLetter c && r.all isIdentifierChar

def isPrereleaseIdentifier (s : JsString) : Bool := isNumericIdentifier s || isAlphanumericIdentifier s

/-- The fourth group: identifiers between points. -/
def isPrerelease (s : JsString) : Bool := (s.splitOn (unit '.')).all isPrereleaseIdentifier

/-- `[0-9A-Za-z-]+`. -/
def isBuildIdentifier (s : JsString) : Bool := !s.isEmpty && s.all isIdentifierChar

/-- The fifth group. -/
def isBuild (s : JsString) : Bool := (s.splitOn (unit '.')).all isBuildIdentifier

/-- The text before a separator and the text after it, if it occurs. -/
def cut (c : UInt16) (s : JsString) : JsString × Option JsString :=
  match s.dropWhile (· != c) with
  | [] => (s, none)
  | _ :: r => (s.takeWhile (· != c), some r)

/-- The groups of a match. -/
structure SemverMatch where
  major : JsString
  minor : JsString
  patch : JsString
  prerelease : Option JsString
  build : Option JsString

/-- Each group is of its kind. -/
def SemverMatch.wf (m : SemverMatch) : Bool :=
  isNumericIdentifier m.major && isNumericIdentifier m.minor && isNumericIdentifier m.patch &&
    m.prerelease.all isPrerelease && m.build.all isBuild

/-- `SEMVER_PATTERN.exec(value)`. -/
def exec (value : JsString) : Option SemverMatch :=
  let (value, build) := cut (unit '+') value
  let (core, prerelease) := cut (unit '-') value
  match core.splitOn (unit '.') with
  | [major, minor, patch] =>
    let m : SemverMatch := ⟨major, minor, patch, prerelease, build⟩
    if m.wf then some m else none
  | _ => none

/-! ### The functions -/

inductive BumpKind where
  | major
  | minor
  | patch
  | prerelease
deriving DecidableEq

structure ParsedVersion where
  major : Option JsNumber
  minor : Option JsNumber
  patch : Option JsNumber
  prerelease : Option JsString

def parseVersion (value : JsString) : Except JsError ParsedVersion :=
  match exec value with
  | none => .error (.thrown (js "Invalid semver version: " ++ value))
  | some m => .ok {
      major := numberOfText m.major
      minor := numberOfText m.minor
      patch := numberOfText m.patch
      prerelease := m.prerelease }

/-- A number in a template literal. -/
def text : Option JsNumber → JsString
  | some x => x.toText
  | none => js "NaN"

def addOne (x : Option JsNumber) : Option JsNumber := x.bind fun x => x.add (JsNumber.ofNat 1)

/-- The three numbers with points. -/
def coreText (major minor patch : JsString) : JsString := major ++ unit '.' :: (minor ++ unit '.' :: patch)

/-- `/^(.*?)(\d+)$/.exec(prerelease)`: the shortest label leaves all digits at the end to the number. -/
def execCounter (prerelease : JsString) : Option (JsString × JsString) :=
  match prerelease.rtakeWhile isDigit with
  | [] => none
  | digits => some (prerelease.rdropWhile isDigit, digits)

/-- The next prerelease. -/
def nextPrerelease (prerelease : JsString) : JsString :=
  match execCounter prerelease with
  | none => prerelease ++ js ".1"
  | some (label, digits) => label ++ text (addOne (numberOfText digits))

def bumpVersion (current : JsString) (kind : BumpKind) : Except JsError JsString := do
  let parsed ← parseVersion current
  match kind with
  | .major => return coreText (text (addOne parsed.major)) (js "0") (js "0")
  | .minor => return coreText (text parsed.major) (text (addOne parsed.minor)) (js "0")
  | .patch => return coreText (text parsed.major) (text parsed.minor) (text (addOne parsed.patch))
  | .prerelease =>
    let prerelease := parsed.prerelease.getD (js "alpha.0")
    return coreText (text parsed.major) (text parsed.minor) (text parsed.patch) ++
      unit '-' :: nextPrerelease prerelease

def normalizeVersion (value : JsString) : Except JsError JsString := do
  let _ ← parseVersion value
  return value

def isBumpKind (value : JsString) : Option BumpKind :=
  if value = js "major" then some .major
  else if value = js "minor" then some .minor
  else if value = js "patch" then some .patch
  else if value = js "prerelease" then some .prerelease
  else none

/-- The version that `main` writes to the package; `requested` is `process.argv[2]`. -/
def nextVersion (version : JsString) (requested : Option JsString) : Except JsError JsString :=
  match requested.getD [] with
  | [] => .error (.thrown (js "Usage: bun run version:bump -- <major|minor|patch|prerelease|x.y.z[-tag.n]>"))
  | requested => match isBumpKind requested with
    | some kind => bumpVersion version kind
    | none => normalizeVersion requested

/-! ### What the pattern accepts -/

/-- A group after its mark. -/
def tail (c : UInt16) : Option JsString → JsString
  | none => []
  | some s => c :: s

def SemverMatch.text (m : SemverMatch) : JsString :=
  coreText m.major m.minor m.patch ++ tail (unit '-') m.prerelease ++ tail (unit '+') m.build

theorem cut_append {c : UInt16} {a : JsString} (ha : c ∉ a) (b : Option JsString) : cut c (a ++ tail c b) = (a, b) := by
  have hall : ∀ x ∈ a, (x != c) = true := by
    intro x hx
    rw [bne_iff_ne]
    rintro rfl
    exact ha hx
  unfold cut
  cases b with
  | none =>
    rw [tail, List.append_nil, List.dropWhile_eq_nil_iff.mpr hall]
  | some r =>
    have hdrop : (c :: r).dropWhile (· != c) = c :: r := List.dropWhile_cons_of_neg (by simp)
    have htake : (c :: r).takeWhile (· != c) = [] := List.takeWhile_cons_of_neg (by simp)
    rw [tail, List.dropWhile_append_of_pos hall, List.takeWhile_append_of_pos hall, hdrop, htake, List.append_nil]

theorem append_of_cut (c : UInt16) (s : JsString) : (cut c s).1 ++ tail c (cut c s).2 = s := by
  unfold cut
  split
  · exact List.append_nil s
  · rename_i d r hdrop
    have hd : (d != c) = false := by
      have hhead := List.head_dropWhile_not (fun x => x != c) (l := s) (by rw [hdrop]; exact List.cons_ne_nil _ _)
      simpa [hdrop] using hhead
    have hdc : d = c := by simpa using hd
    have hsplit := List.takeWhile_append_dropWhile (p := fun x => x != c) (l := s)
    rw [hdrop, hdc] at hsplit
    exact hsplit

/-! ### Characters of the groups -/

theorem not_isDigit_point : isDigit (unit '.') = false := by decide

theorem isNumericIdentifier_iff {s : JsString} : isNumericIdentifier s = true ↔
    s ≠ [] ∧ (∀ c ∈ s, isDigit c = true) ∧ decText (digitsVal s) = s := by
  constructor
  · intro h
    rcases s with _ | ⟨c, r⟩
    · cases h
    simp only [isNumericIdentifier, Bool.or_eq_true, Bool.and_eq_true, beq_iff_eq, List.isEmpty_iff,
      decide_eq_true_eq, List.all_eq_true] at h
    refine ⟨List.cons_ne_nil _ _, ?_⟩
    rcases h with ⟨rfl, rfl⟩ | ⟨⟨hlow, hhigh⟩, hr⟩
    · exact ⟨by decide, by decide⟩
    · have hc : isDigit c = true ∧ c ≠ 48 := by
        have h1 : 49 ≤ c.toNat := UInt16.le_iff_toNat_le.mp hlow
        have h2 : c.toNat ≤ 57 := UInt16.le_iff_toNat_le.mp hhigh
        refine ⟨isDigit_iff.mpr (by omega), ?_⟩
        rintro rfl
        exact absurd h1 (by decide)
      have hall : ∀ x ∈ c :: r, isDigit x = true := by
        intro x hx
        rcases List.mem_cons.mp hx with rfl | hx
        · exact hc.1
        · exact hr x hx
      exact ⟨hall, decText_digitsVal hall hc.2⟩
  · rintro ⟨hne, hall, htext⟩
    rcases s with _ | ⟨c, r⟩
    · exact absurd rfl hne
    simp only [isNumericIdentifier, Bool.or_eq_true, Bool.and_eq_true, beq_iff_eq, List.isEmpty_iff,
      decide_eq_true_eq, List.all_eq_true]
    rcases Nat.eq_zero_or_pos (digitsVal (c :: r)) with hzero | hpos
    · rw [hzero] at htext
      cases htext
      exact .inl ⟨rfl, rfl⟩
    · have hne48 := head_decText hpos htext
      have hc := isDigit_iff.mp (hall c List.mem_cons_self)
      have h48 : c.toNat ≠ 48 := fun h => hne48 (UInt16.toNat_inj.mp h)
      have hlow : 49 ≤ c.toNat := by omega
      exact .inr ⟨⟨UInt16.le_iff_toNat_le.mpr hlow, UInt16.le_iff_toNat_le.mpr hc.2⟩,
        fun x hx => hall x (List.mem_cons_of_mem _ hx)⟩

theorem isNumericIdentifier_decText (n : ℕ) : isNumericIdentifier (decText n) = true :=
  isNumericIdentifier_iff.mpr ⟨decText_ne_nil n, fun _ h => isDigit_of_mem_decText h, by rw [digitsVal_decText]⟩

/-- An alphanumeric identifier has a character that is not a digit. -/
theorem isAlphanumericIdentifier_iff {s : JsString} : isAlphanumericIdentifier s = true ↔
    (∀ c ∈ s, isIdentifierChar c = true) ∧ ∃ c ∈ s, isDigit c = false := by
  have hsplit := List.takeWhile_append_dropWhile (p := isDigit) (l := s)
  unfold isAlphanumericIdentifier
  split
  · rename_i hdrop
    refine iff_of_false (by simp) ?_
    rintro ⟨-, c, hc, hcd⟩
    rw [List.dropWhile_eq_nil_iff.mp hdrop c hc] at hcd
    cases hcd
  · rename_i c r hdrop
    rw [hdrop] at hsplit
    have hdigits : ∀ x ∈ s.takeWhile isDigit, isDigit x = true := fun x hx => List.mem_takeWhile_imp hx
    have hc : isDigit c = false := by
      have hhead := List.head_dropWhile_not isDigit (l := s) (by rw [hdrop]; exact List.cons_ne_nil _ _)
      simpa [hdrop] using hhead
    rw [Bool.and_eq_true, List.all_eq_true]
    constructor
    · rintro ⟨hletter, hr⟩
      refine ⟨fun x hx => ?_, c, ?_, hc⟩
      · rw [← hsplit, List.mem_append, List.mem_cons] at hx
        rcases hx with hx | rfl | hx
        · exact Bool.or_eq_true_iff.mpr (.inl (hdigits x hx))
        · exact Bool.or_eq_true_iff.mpr (.inr hletter)
        · exact hr x hx
      · rw [← hsplit]
        exact List.mem_append_right _ List.mem_cons_self
    · rintro ⟨hall, -⟩
      refine ⟨?_, fun x hx => hall x ?_⟩
      · have hcs := hall c (by rw [← hsplit]; exact List.mem_append_right _ List.mem_cons_self)
        unfold isIdentifierChar at hcs
        rwa [hc, Bool.false_or] at hcs
      · rw [← hsplit]
        exact List.mem_append_right _ (List.mem_cons_of_mem _ hx)

theorem isIdentifierChar_of_prerelease {s : JsString} (h : isPrereleaseIdentifier s = true) {c : UInt16}
    (hc : c ∈ s) : isIdentifierChar c = true := by
  rcases Bool.or_eq_true_iff.mp h with h | h
  · exact Bool.or_eq_true_iff.mpr (.inl ((isNumericIdentifier_iff.mp h).2.1 c hc))
  · exact (isAlphanumericIdentifier_iff.mp h).1 c hc

/-- Separators do not occur in a number. -/
theorem not_mem_numeric {s : JsString} (h : isNumericIdentifier s = true) {c : UInt16} (hc : isDigit c = false) :
    c ∉ s := by
  intro hmem
  rw [(isNumericIdentifier_iff.mp h).2.1 c hmem] at hc
  cases hc

theorem not_mem_prerelease {s : JsString} (h : isPrereleaseIdentifier s = true) {c : UInt16}
    (hc : isIdentifierChar c = false) : c ∉ s := by
  intro hmem
  rw [isIdentifierChar_of_prerelease h hmem] at hc
  cases hc

theorem join_splitOn (c : UInt16) (s : JsString) : join c (s.splitOn c) = s := List.intercalate_splitOn c

theorem plus_not_mem_prerelease {s : JsString} (h : isPrerelease s = true) : unit '+' ∉ s := by
  intro hmem
  rw [← join_splitOn (unit '.') s] at hmem
  rcases Lib.mem_join hmem with hpoint | ⟨x, hx, hplus⟩
  · exact absurd hpoint (by decide)
  · exact not_mem_prerelease (List.all_eq_true.mp h x hx) (by decide) hplus

theorem not_mem_core {major minor patch : JsString} (h₁ : isNumericIdentifier major = true)
    (h₂ : isNumericIdentifier minor = true) (h₃ : isNumericIdentifier patch = true) {c : UInt16}
    (hc : isDigit c = false) (hpoint : c ≠ unit '.') : c ∉ coreText major minor patch := by
  simp only [coreText, List.mem_append, List.mem_cons, not_or]
  exact ⟨not_mem_numeric h₁ hc, hpoint, not_mem_numeric h₂ hc, hpoint, not_mem_numeric h₃ hc⟩

theorem coreText_eq_join (major minor patch : JsString) :
    coreText major minor patch = join (unit '.') [major, minor, patch] := by
  simp [coreText, join, List.intercalate]

theorem SemverMatch.wf_iff {m : SemverMatch} : m.wf = true ↔ isNumericIdentifier m.major = true ∧
    isNumericIdentifier m.minor = true ∧ isNumericIdentifier m.patch = true ∧
    m.prerelease.all isPrerelease = true ∧ m.build.all isBuild = true := by
  unfold SemverMatch.wf
  simp only [Bool.and_eq_true, and_assoc]

/-- **What the pattern accepts**: the groups with their separators, each group being of its kind. -/
theorem exec_eq_some_iff {value : JsString} {m : SemverMatch} :
    exec value = some m ↔ m.wf = true ∧ m.text = value := by
  constructor
  · intro h
    unfold exec at h
    dsimp only at h
    split at h
    · rename_i major minor patch hsplit
      split_ifs at h with hwf
      cases h
      refine ⟨hwf, ?_⟩
      have hcore := join_splitOn (unit '.') (cut (unit '-') (cut (unit '+') value).1).1
      rw [hsplit] at hcore
      show coreText major minor patch ++ tail (unit '-') (cut (unit '-') (cut (unit '+') value).1).2 ++
        tail (unit '+') (cut (unit '+') value).2 = value
      rw [coreText_eq_join, hcore, append_of_cut, append_of_cut]
    · cases h
  · rintro ⟨hwf, rfl⟩
    obtain ⟨h₁, h₂, h₃, hprerelease, hbuild⟩ := SemverMatch.wf_iff.mp hwf
    have hplus : unit '+' ∉ coreText m.major m.minor m.patch ++ tail (unit '-') m.prerelease := by
      rw [List.mem_append, not_or]
      refine ⟨not_mem_core h₁ h₂ h₃ (by decide) (by decide), ?_⟩
      cases hp : m.prerelease with
      | none => exact List.not_mem_nil
      | some p =>
        rw [hp] at hprerelease
        rw [tail, List.mem_cons, not_or]
        exact ⟨by decide, plus_not_mem_prerelease hprerelease⟩
    have hpoints : (coreText m.major m.minor m.patch).splitOn (unit '.') = [m.major, m.minor, m.patch] := by
      rw [coreText_eq_join, join, List.splitOn_intercalate _ ?_ (List.cons_ne_nil _ _)]
      simp only [List.mem_cons, List.not_mem_nil, or_false]
      rintro s (rfl | rfl | rfl)
      · exact not_mem_numeric h₁ not_isDigit_point
      · exact not_mem_numeric h₂ not_isDigit_point
      · exact not_mem_numeric h₃ not_isDigit_point
    have houter : cut (unit '+') m.text = (_, m.build) := cut_append hplus m.build
    have hinner := cut_append (not_mem_core h₁ h₂ h₃ (c := unit '-') (by decide) (by decide)) m.prerelease
    unfold exec
    rw [houter]
    dsimp only
    rw [hinner]
    dsimp only
    rw [hpoints]
    exact if_pos hwf

theorem parseVersion_isOk_iff {value : JsString} :
    (∃ parsed, parseVersion value = .ok parsed) ↔ ∃ m, exec value = some m := by
  unfold parseVersion
  cases exec value with
  | none => exact iff_of_false (by rintro ⟨_, h⟩; cases h) (by rintro ⟨_, h⟩; cases h)
  | some m => exact iff_of_true ⟨_, rfl⟩ ⟨m, rfl⟩

/-! ### Numbers read and written -/

theorem text_number {s : JsString} (h : isNumericIdentifier s = true) (hsmall : digitsVal s < 2 ^ 53 - 1) :
    text (numberOfText s) = s := by
  obtain ⟨hne, hdigits, htext⟩ := isNumericIdentifier_iff.mp h
  rw [numberOfText_digits hne hdigits (by omega), text, toText_ofNat (by omega), htext]

/-- The number after that of the digits. -/
theorem text_addOne {s : JsString} (hne : s ≠ []) (h : ∀ c ∈ s, isDigit c = true)
    (hsmall : digitsVal s < 2 ^ 53 - 1) : text (addOne (numberOfText s)) = decText (digitsVal s + 1) := by
  rw [numberOfText_digits hne h (by omega), addOne, Option.bind_some, ofNat_add_one (by omega), text,
    toText_ofNat (by omega)]

end ConsensusNode.Release
