import Mathlib.Data.List.Basic
import Mathlib.Data.List.Flatten

/-! # The words of a shell command

How a POSIX shell cuts a command into words, for texts of ordinary characters, blanks, quotes and backslashes. There
is no reading of a text in which another character stands outside of quotes (an operator, an expansion, a pattern),
or which ends within quotes.

* `read_quoted`: a text put between quotes, with its own quotes written outside, is read as it is wherever a word can
  stand.
* `words_eq_singleton`: when a text is read as one word that is the text itself. -/

namespace ConsensusNode.Lib.ShellWords

variable {α : Type*}

/-- What a character means outside of quotes. -/
inductive Sign where
  | plain
  | blank
  | newline
  | quote
  | doubleQuote
  | backslash
  /-- Of an expansion, also between double quotes. -/
  | expansion
  /-- Of an operator or a pattern, or special at some places only. -/
  | special
deriving DecidableEq

inductive Mode (α : Type*) where
  | bare
  | escaped
  | quoted
  | doubleQuoted
  /-- After a backslash between double quotes, which stays if it escapes nothing. -/
  | doubleEscaped (backslash : α)

structure Reading (α : Type*) where
  words : List (List α) := []
  /-- The word that has begun. -/
  word : Option (List α) := none
  mode : Mode α := .bare

namespace Reading

def put (r : Reading α) (s : List α) (mode : Mode α) : Reading α where
  words := r.words
  word := some (r.word.getD [] ++ s)
  mode := mode

def endWord (r : Reading α) : Reading α where
  words := r.words ++ r.word.toList

def next (sign : α → Sign) (r : Reading α) (c : α) : Option (Reading α) :=
  match r.mode with
  | .bare => match sign c with
    | .plain => some (r.put [c] .bare)
    | .blank => some r.endWord
    | .quote => some (r.put [] .quoted)
    | .doubleQuote => some (r.put [] .doubleQuoted)
    | .backslash => some { r with mode := .escaped }
    | .newline | .expansion | .special => none
  | .escaped => match sign c with
    | .newline => some { r with mode := .bare }
    | _ => some (r.put [c] .bare)
  | .quoted => match sign c with
    | .quote => some { r with mode := .bare }
    | _ => some (r.put [c] .quoted)
  | .doubleQuoted => match sign c with
    | .doubleQuote => some { r with mode := .bare }
    | .backslash => some { r with mode := .doubleEscaped c }
    | .expansion => none
    | _ => some (r.put [c] .doubleQuoted)
  | .doubleEscaped backslash => match sign c with
    | .newline => some { r with mode := .doubleQuoted }
    | .doubleQuote | .backslash | .expansion => some (r.put [c] .doubleQuoted)
    | _ => some (r.put [backslash, c] .doubleQuoted)

def finish (r : Reading α) : Option (List (List α)) :=
  match r.mode with
  | .bare => some (r.words ++ r.word.toList)
  | _ => none

end Reading

variable (sign : α → Sign)

def read (r : Reading α) (s : List α) : Option (Reading α) := s.foldlM (Reading.next sign) r

def words (s : List α) : Option (List (List α)) := (read sign {} s).bind Reading.finish

/-- A text between quotes. A quote in it ends the quotes, stands behind a backslash, and begins them again. -/
def quoted [DecidableEq α] (quote backslash : α) (s : List α) : List α :=
  [quote] ++ s.flatMap (fun c => if c = quote then [quote, backslash, quote, quote] else [c]) ++ [quote]

variable {sign}

theorem read_cons (r : Reading α) (c : α) (s : List α) :
    read sign r (c :: s) = (r.next sign c).bind fun r => read sign r s := List.foldlM_cons

theorem read_append (r : Reading α) (s t : List α) :
    read sign r (s ++ t) = (read sign r s).bind fun r => read sign r t := List.foldlM_append

/-! ### Quoted texts -/

section Quoted

variable [DecidableEq α] {quote backslash : α}

theorem read_between (hquote : ∀ c, sign c = .quote ↔ c = quote) (hbackslash : sign backslash = .backslash)
    (s : List α) (ws : List (List α)) (w : List α) :
    read sign ⟨ws, some w, .quoted⟩
      (s.flatMap fun c => if c = quote then [quote, backslash, quote, quote] else [c]) =
        some ⟨ws, some (w ++ s), .quoted⟩ := by
  have hself : sign quote = .quote := (hquote quote).mpr rfl
  induction s generalizing w with
  | nil => simp [read]
  | cons c s ih =>
    rw [List.flatMap_cons, read_append]
    have hstep : read sign ⟨ws, some w, .quoted⟩ (if c = quote then [quote, backslash, quote, quote] else [c]) =
        some ⟨ws, some (w ++ [c]), .quoted⟩ := by
      split_ifs with hc
      · simp [read, Reading.next, Reading.put, hself, hbackslash, hc]
      · have hne : sign c ≠ .quote := fun h => hc ((hquote c).mp h)
        simp [read, Reading.next, Reading.put]
    rw [hstep, Option.bind_some, ih, List.append_assoc, List.singleton_append]

/-- **A quoted text is read as it is.** -/
theorem read_quoted (hquote : ∀ c, sign c = .quote ↔ c = quote) (hbackslash : sign backslash = .backslash)
    (s : List α) (ws : List (List α)) (w : Option (List α)) :
    read sign ⟨ws, w, .bare⟩ (quoted quote backslash s) = some ⟨ws, some (w.getD [] ++ s), .bare⟩ := by
  have hself : sign quote = .quote := (hquote quote).mpr rfl
  unfold quoted
  rw [read_append, read_append]
  have hopen : read sign ⟨ws, w, .bare⟩ [quote] = some ⟨ws, some (w.getD []), .quoted⟩ := by
    simp [read, Reading.next, Reading.put, hself]
  have hclose : read sign ⟨ws, some (w.getD [] ++ s), .quoted⟩ [quote] =
      some ⟨ws, some (w.getD [] ++ s), .bare⟩ := by
    simp [read, Reading.next, hself]
  rw [hopen, Option.bind_some, read_between hquote hbackslash, Option.bind_some, hclose]

theorem words_quoted (hquote : ∀ c, sign c = .quote ↔ c = quote) (hbackslash : sign backslash = .backslash)
    (s : List α) : words sign (quoted quote backslash s) = some [s] := by
  unfold words
  rw [read_quoted hquote hbackslash]
  rfl

end Quoted

/-! ### Bare texts -/

theorem read_plain {s : List α} (h : ∀ c ∈ s, sign c = .plain) (ws : List (List α)) (w : List α) :
    read sign ⟨ws, some w, .bare⟩ s = some ⟨ws, some (w ++ s), .bare⟩ := by
  induction s generalizing w with
  | nil => simp [read]
  | cons c s ih =>
    have hc : (⟨ws, some w, .bare⟩ : Reading α).next sign c = some ⟨ws, some (w ++ [c]), .bare⟩ := by
      simp [Reading.next, Reading.put, h c]
    rw [read_cons, hc, Option.bind_some, ih fun d hd => h d (List.mem_cons_of_mem c hd), List.append_assoc,
      List.singleton_append]

theorem words_plain {s : List α} (hs : s ≠ []) (h : ∀ c ∈ s, sign c = .plain) : words sign s = some [s] := by
  obtain ⟨c, t, rfl⟩ := List.exists_cons_of_ne_nil hs
  have hc : ({} : Reading α).next sign c = some ⟨[], some [c], .bare⟩ := by
    simp [Reading.next, Reading.put, h c]
  unfold words
  rw [read_cons, hc, Option.bind_some, read_plain fun d hd => h d (List.mem_cons_of_mem c hd)]
  rfl

/-- How many characters of the text stand in the words so far, with a backslash that may still be one of them. -/
def Reading.size (r : Reading α) : ℕ :=
  r.words.flatten.length + (r.word.getD []).length + match r.mode with
    | .doubleEscaped _ => 1
    | _ => 0

theorem size_next {r r' : Reading α} {c : α} (h : r.next sign c = some r') :
    r'.size ≤ r.size + 1 ∧ (r.mode = .bare → sign c ≠ .plain → r'.size ≤ r.size) := by
  obtain ⟨ws, w, mode⟩ := r
  rcases mode with _ | _ | _ | _ | b <;> rcases hc : sign c <;> simp only [Reading.next, hc] at h <;> cases h <;>
    rcases w with _ | w <;> simp [Reading.size, Reading.put, Reading.endWord] <;> omega

theorem size_read {s : List α} {r r' : Reading α} (h : read sign r s = some r') : r'.size ≤ r.size + s.length := by
  induction s generalizing r with
  | nil =>
    obtain rfl := Option.some.inj h
    simp
  | cons c s ih =>
    rw [read_cons] at h
    obtain ⟨r₁, hnext, hread⟩ := Option.bind_eq_some_iff.mp h
    have hstep := (size_next hnext).1
    have hrest := ih hread
    rw [List.length_cons]
    omega

theorem size_finish {r : Reading α} {ws : List (List α)} (h : r.finish = some ws) : ws.flatten.length = r.size := by
  obtain ⟨vs, w, mode⟩ := r
  rcases mode with _ | _ | _ | _ | b <;> cases h
  rcases w with _ | w <;> simp [Reading.size]

theorem words_length_le {s : List α} {ws : List (List α)} (h : words sign s = some ws) :
    ws.flatten.length ≤ s.length := by
  obtain ⟨r, hread, hfinish⟩ := Option.bind_eq_some_iff.mp h
  have hsize := size_read hread
  rw [size_finish hfinish]
  simpa [Reading.size] using hsize

/-- Where no character is lost, there are no blanks, quotes or backslashes. -/
theorem plain_of_size {s : List α} {r r' : Reading α} (hr : r.mode = .bare) (h : read sign r s = some r')
    (hsize : r.size + s.length ≤ r'.size) : ∀ c ∈ s, sign c = .plain := by
  induction s generalizing r with
  | nil => simp
  | cons c s ih =>
    rw [read_cons] at h
    obtain ⟨r₁, hnext, hread⟩ := Option.bind_eq_some_iff.mp h
    obtain ⟨hstep, hother⟩ := size_next hnext
    have hrest := size_read hread
    rw [List.length_cons] at hsize
    have hc : sign c = .plain := by
      by_contra hc
      have hlost := hother hr hc
      omega
    have hbare : r₁.mode = .bare := by
      simp only [Reading.next, hr, hc] at hnext
      obtain rfl := Option.some.inj hnext
      rfl
    intro d hd
    rcases List.mem_cons.mp hd with rfl | hd
    · exact hc
    · exact ih hbare hread (by omega) d hd

/-- **When a text is one word, itself.** -/
theorem words_eq_singleton {s : List α} : words sign s = some [s] ↔ s ≠ [] ∧ ∀ c ∈ s, sign c = .plain := by
  constructor
  · intro h
    refine ⟨?_, ?_⟩
    · rintro rfl
      exact absurd (Option.some.inj h) (by simp)
    · obtain ⟨r, hread, hfinish⟩ := Option.bind_eq_some_iff.mp h
      refine plain_of_size rfl hread ?_
      rw [← size_finish hfinish]
      simp [Reading.size]
  · exact fun h => words_plain h.1 h.2

end ConsensusNode.Lib.ShellWords
