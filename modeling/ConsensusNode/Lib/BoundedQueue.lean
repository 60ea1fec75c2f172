import Mathlib.Data.List.Nodup
import Mathlib.Tactic.SplitIfs

/-! # Queues with a bound

A queue makes room for one more element by dropping its oldest ones (`shed`), and takes the element at its
end (`push`). The queue is a list, oldest first.

* `length_push_le`: a queue that has room for one element never holds more than its bound.
* `push_keeps`: an element with fewer than `M - 1` elements behind it stays, with one more behind it.
* `head_of_shed`: a queue within its bound drops nothing but its oldest element. -/

namespace ConsensusNode.Lib.BoundedQueue

variable {α : Type*}

/-- Drop the oldest elements until there is room for one more. -/
def shed (M : ℕ) (l : List α) : List α := l.drop (l.length + 1 - M)

/-- Make room, and take the element. -/
def push (M : ℕ) (l : List α) (x : α) : List α := shed M l ++ [x]

theorem shed_of_lt {M : ℕ} {l : List α} (h : l.length < M) : shed M l = l := by
  unfold shed
  rw [Nat.sub_eq_zero_of_le h, List.drop_zero]

/-- One oldest element goes at a time. -/
theorem shed_cons {M : ℕ} {x : α} {l : List α} (h : M ≤ l.length + 1) : shed M (x :: l) = shed M l := by
  have hn : (x :: l).length + 1 - M = (l.length + 1 - M) + 1 := by
    rw [List.length_cons]
    omega
  unfold shed
  rw [hn, List.drop_succ_cons]

theorem shed_suffix (M : ℕ) (l : List α) : shed M l <:+ l := List.drop_suffix _ _

theorem length_push_le (M : ℕ) (l : List α) (x : α) : (push M l x).length ≤ max M 1 := by
  unfold push shed
  rw [List.length_append, List.length_drop, List.length_singleton]
  omega

theorem push_keeps {M : ℕ} {l₁ l₂ : List α} {x : α} (h : l₂.length + 2 ≤ M) (y : α) :
    ∃ l, push M (l₁ ++ x :: l₂) y = l ++ x :: (l₂ ++ [y]) := by
  have hn : (l₁ ++ x :: l₂).length + 1 - M ≤ l₁.length := by
    rw [List.length_append, List.length_cons]
    omega
  refine ⟨l₁.drop ((l₁ ++ x :: l₂).length + 1 - M), ?_⟩
  unfold push shed
  rw [List.drop_append_of_le_length hn, List.append_assoc, List.cons_append]

theorem head_of_shed {M : ℕ} {l : List α} {x : α} (hl : l.length ≤ max M 1) (hx : x ∈ l) (hgone : x ∉ shed M l) :
    l.head? = some x := by
  rcases l with _ | ⟨y, l⟩
  · cases hx
  rcases List.mem_cons.mp hx with rfl | htail
  · rfl
  · refine absurd ?_ hgone
    have hlen : l.length + 1 ≤ max M 1 := hl
    have hpos : 0 < l.length := List.length_pos_of_mem htail
    by_cases hM : M ≤ l.length + 1
    · rw [shed_cons hM, shed_of_lt (by omega)]
      exact htail
    · rw [shed_of_lt (by rw [List.length_cons]; omega)]
      exact hx

end ConsensusNode.Lib.BoundedQueue
