import Mathlib.Data.List.Lex
import Mathlib.Data.Prod.Lex
import Mathlib.Data.Sum.Order
import Mathlib.Order.WithBot

/-! # The precedence of versions

Section 11 of Semantic Versioning 2.0.0. The three numbers are compared first. With the same numbers a release is
above its prereleases, and these are compared identifier by identifier, a longer list being above its prefixes.

* `lt_of_major`, `lt_of_minor`, `lt_of_patch`: a larger number, the numbers before it being the same.
* `lt_iff_prerelease`: the same numbers. -/

namespace ConsensusNode.Lib.SemVer

/-- An identifier: a number, or the codes of a text. Numbers are below all texts. -/
abbrev Identifier := ℕ ⊕ₗ List ℕ

def number (n : ℕ) : Identifier := Sum.inlₗ n

def word (s : List ℕ) : Identifier := Sum.inrₗ s

/-- A version without its build metadata. The prerelease of a release is `⊤`. -/
structure Version where
  major : ℕ
  minor : ℕ
  patch : ℕ
  prerelease : WithTop (List Identifier)

/-- What versions are compared by. -/
def Version.rank (v : Version) : ℕ ×ₗ ℕ ×ₗ ℕ ×ₗ WithTop (List Identifier) :=
  toLex (v.major, toLex (v.minor, toLex (v.patch, v.prerelease)))

instance : LT Version := ⟨fun v w => v.rank < w.rank⟩

section Numbers

variable {v w : Version}

theorem Version.lt_iff : v < w ↔ v.major < w.major ∨ v.major = w.major ∧ (v.minor < w.minor ∨
    v.minor = w.minor ∧ (v.patch < w.patch ∨ v.patch = w.patch ∧ v.prerelease < w.prerelease)) := by
  show v.rank < w.rank ↔ _
  unfold Version.rank
  simp only [Prod.Lex.toLex_lt_toLex]

theorem lt_of_major (h : v.major < w.major) : v < w := Version.lt_iff.mpr (.inl h)

theorem lt_of_minor (h₁ : v.major = w.major) (h : v.minor < w.minor) : v < w :=
  Version.lt_iff.mpr (.inr ⟨h₁, .inl h⟩)

theorem lt_of_patch (h₁ : v.major = w.major) (h₂ : v.minor = w.minor) (h : v.patch < w.patch) : v < w :=
  Version.lt_iff.mpr (.inr ⟨h₁, .inr ⟨h₂, .inl h⟩⟩)

/-- **The same numbers**: the prereleases decide. -/
theorem lt_iff_prerelease (h₁ : v.major = w.major) (h₂ : v.minor = w.minor) (h₃ : v.patch = w.patch) :
    v < w ↔ v.prerelease < w.prerelease := by
  rw [Version.lt_iff]
  constructor
  · rintro (h | ⟨-, h | ⟨-, h | ⟨-, h⟩⟩⟩)
    · exact absurd h₁ h.ne
    · exact absurd h₂ h.ne
    · exact absurd h₃ h.ne
    · exact h
  · exact fun h => .inr ⟨h₁, .inr ⟨h₂, .inr ⟨h₃, h⟩⟩⟩

end Numbers

/-! ### Lists of identifiers -/

theorem append_lt_append_iff {α : Type*} [LinearOrder α] (l : List α) {a b : List α} : l ++ a < l ++ b ↔ a < b := by
  induction l with
  | nil => rfl
  | cons x l ih => rw [List.cons_append, List.cons_append, List.cons_lt_cons_self, ih]

theorem lt_concat {α : Type*} [LinearOrder α] (l : List α) (x : α) : l < l ++ [x] := by
  simpa using (append_lt_append_iff l (a := []) (b := [x])).mpr (List.nil_lt_cons x [])

/-- Lists that end in different identifiers. -/
theorem concat_lt_concat_iff {α : Type*} [LinearOrder α] (l : List α) {x y : α} : l ++ [x] < l ++ [y] ↔ x < y := by
  rw [append_lt_append_iff, List.cons_lt_cons_iff]
  simp

theorem number_lt_number {m n : ℕ} : number m < number n ↔ m < n := Sum.Lex.inl_lt_inl_iff

/-- Texts with the same beginning. -/
theorem word_lt_word {s a b : List ℕ} : word (s ++ a) < word (s ++ b) ↔ a < b :=
  Sum.Lex.inr_lt_inr_iff.trans (append_lt_append_iff s)

end ConsensusNode.Lib.SemVer
