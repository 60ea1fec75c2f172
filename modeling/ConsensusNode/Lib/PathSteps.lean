import Mathlib.Data.List.Basic
import Mathlib.Data.List.Induction

/-! # Steps in a tree of directories

A position is the list of the names on the way to it. A move stays, goes up, or goes down to a name; at the
root there is no way up.

* `climbs`: the normal form of a list of moves, so many steps up and then the names on the way down.
* `foldl_walk`: where the moves lead, from their normal form.
* `walk_back_iff`: when they lead back to where they started. -/

namespace ConsensusNode.Lib.PathSteps

variable {α : Type*}

inductive Move (α : Type*) where
  | stay
  | up
  | down (a : α)

/-- The position after a move. -/
def walk (pos : List α) : Move α → List α
  | .stay => pos
  | .up => pos.dropLast
  | .down a => pos ++ [a]

/-- The normal form after a further move. -/
def climb : ℕ × List α → Move α → ℕ × List α
  | s, .stay => s
  | (n, []), .up => (n + 1, [])
  | (n, a :: l), .up => (n, (a :: l).dropLast)
  | (n, l), .down a => (n, l ++ [a])

def climbs (moves : List (Move α)) : ℕ × List α := moves.foldl climb (0, [])

/-- The position that a normal form leads to. -/
def climbed (pos : List α) (s : ℕ × List α) : List α := pos.take (pos.length - s.1) ++ s.2

theorem climbed_climb (pos : List α) (s : ℕ × List α) (m : Move α) :
    climbed pos (climb s m) = walk (climbed pos s) m := by
  obtain ⟨n, l⟩ := s
  unfold climbed
  cases m with
  | stay => rfl
  | up =>
    rcases l with _ | ⟨a, l⟩
    · have hlen : pos.length - (n + 1) = pos.length - n - 1 := by omega
      simp only [climb, walk, List.append_nil, List.dropLast_eq_take, List.take_take, List.length_take]
      congr 1
      omega
    · simp only [climb, walk]
      rw [List.dropLast_append_of_ne_nil (List.cons_ne_nil a l)]
  | down a => simp [climb, walk]

/-- **Where the moves lead.** -/
theorem foldl_walk (pos : List α) (moves : List (Move α)) :
    moves.foldl walk pos = climbed pos (climbs moves) := by
  induction moves using List.reverseRecOn with
  | nil => simp [climbs, climbed]
  | append_singleton moves m ih =>
    unfold climbs at ih ⊢
    rw [List.foldl_concat, List.foldl_concat, climbed_climb, ih]

/-- **The way back**: as many names down as there are steps up, and the same ones. -/
theorem walk_back_iff (pos : List α) (moves : List (Move α)) :
    moves.foldl walk pos = pos ↔ (climbs moves).2 = pos.drop (pos.length - (climbs moves).1) := by
  rw [foldl_walk, climbed]
  constructor
  · intro h
    have hsplit := List.take_append_drop (pos.length - (climbs moves).1) pos
    exact List.append_cancel_left (h.trans hsplit.symm)
  · intro h
    rw [h, List.take_append_drop]

/-- The names of a normal form are names of its moves. -/
theorem mem_climbs {moves : List (Move α)} {a : α} (h : a ∈ (climbs moves).2) : .down a ∈ moves := by
  induction moves using List.reverseRecOn with
  | nil => simp [climbs] at h
  | append_singleton moves m ih =>
    unfold climbs at ih h
    rw [List.foldl_concat] at h
    rcases hs : moves.foldl climb (0, []) with ⟨n, l⟩
    rw [hs] at h ih
    rcases m with _ | _ | b
    · exact List.mem_append_left _ (ih h)
    · rcases l with _ | ⟨c, l⟩
      · simp [climb] at h
      · exact List.mem_append_left _ (ih (List.dropLast_subset _ h))
    · rcases List.mem_append.mp h with h | h
      · exact List.mem_append_left _ (ih h)
      · rw [List.mem_singleton.mp h]
        exact List.mem_append_right _ (List.mem_singleton_self _)

end ConsensusNode.Lib.PathSteps
