import Mathlib.Data.Nat.Notation

/-! # Loops

`body` takes the state at the head of a loop to the next one, or leaves the loop with a result. `loop` runs it for
as many rounds as it is given; without a result the loop is still running.

* `exists_exit_of_loop`: a loop that returns has left at one of the states it went through.
* `loop_returns_iff`: along a known sequence of states, a loop returns if and only if it leaves at one of them. -/

namespace ConsensusNode.Lib.Loop

variable {σ ρ : Type*} {body : σ → σ ⊕ ρ}

def loop (body : σ → σ ⊕ ρ) : ℕ → σ → Option ρ
  | 0, _ => none
  | n + 1, s =>
    match body s with
    | .inl t => loop body n t
    | .inr r => some r

theorem loop_next {s t : σ} (h : body s = .inl t) (n : ℕ) : loop body (n + 1) s = loop body n t := by
  rw [loop, h]

theorem loop_exit {s : σ} {r : ρ} (h : body s = .inr r) (n : ℕ) : loop body (n + 1) s = some r := by
  rw [loop, h]

/-- More rounds change nothing. -/
theorem loop_mono {n m : ℕ} (hnm : n ≤ m) {s : σ} {r : ρ} (h : loop body n s = some r) : loop body m s = some r := by
  induction n generalizing s m with
  | zero => cases h
  | succ n ih =>
    obtain ⟨m, rfl⟩ := Nat.exists_eq_add_of_le' (Nat.one_le_of_lt hnm)
    rcases hs : body s with t | r'
    · rw [loop_next hs] at h ⊢
      exact ih (Nat.le_of_succ_le_succ hnm) h
    · rw [loop_exit hs] at h ⊢
      exact h

/-- The states `st 0`, `st 1`, … are those at the head of the loop, as long as it goes on. -/
def Along (body : σ → σ ⊕ ρ) (st : ℕ → σ) : Prop := ∀ k, body (st k) = .inl (st (k + 1)) ∨ ∃ r, body (st k) = .inr r

variable {st : ℕ → σ}

theorem Along.tail (h : Along body st) : Along body fun k => st (k + 1) := fun k => h (k + 1)

theorem exists_exit_of_loop (h : Along body st) {n : ℕ} {r : ρ} (hr : loop body n (st 0) = some r) :
    ∃ k, body (st k) = .inr r := by
  induction n generalizing st with
  | zero => cases hr
  | succ n ih =>
    rcases h 0 with hnext | ⟨r', hexit⟩
    · rw [loop_next hnext] at hr
      obtain ⟨k, hk⟩ := ih h.tail hr
      exact ⟨k + 1, hk⟩
    · rw [loop_exit hexit] at hr
      cases hr
      exact ⟨0, hexit⟩

/-- If there is an exit, the loop comes to the first one. -/
theorem exists_loop_of_exit (h : Along body st) {k : ℕ} {r : ρ} (hr : body (st k) = .inr r) :
    ∃ n r', loop body n (st 0) = some r' := by
  induction k generalizing st with
  | zero => exact ⟨1, r, loop_exit hr 0⟩
  | succ k ih =>
    rcases h 0 with hnext | ⟨r', hexit⟩
    · obtain ⟨n, r', hn⟩ := ih h.tail hr
      exact ⟨n + 1, r', (loop_next hnext n).trans hn⟩
    · exact ⟨1, r', loop_exit hexit 0⟩

/-- **The termination rule.** -/
theorem loop_returns_iff (h : Along body st) :
    (∃ n r, loop body n (st 0) = some r) ↔ ∃ k r, body (st k) = .inr r := by
  constructor
  · rintro ⟨n, r, hr⟩
    obtain ⟨k, hk⟩ := exists_exit_of_loop h hr
    exact ⟨k, r, hk⟩
  · rintro ⟨k, r, hr⟩
    exact exists_loop_of_exit h hr

end ConsensusNode.Lib.Loop
