import Mathlib.Data.List.Sort
import Mathlib.Data.List.Perm.Subperm

/-! # A receive window

A receiver of numbered items that takes an item only if its number is larger than all numbers before. What
it takes is in increasing order (`Window.Increasing`), so if all of it was sent by a sender that counts up,
it is a sublist of what was sent (`Window.Increasing.sublist`), whatever was offered in between; offered
everything in order, the receiver takes everything (`Window.offer_all`). -/

namespace ConsensusNode.Lib

/-- The largest number so far and the items that were taken. -/
structure Window (α : Type*) where
  last : ℤ := -1
  accepted : List α := []

namespace Window

variable {α : Type*} (num : α → ℕ)

/-- The item is taken if its number is new. -/
def offer (w : Window α) (x : α) : Window α :=
  if (num x : ℤ) ≤ w.last then w else ⟨num x, w.accepted ++ [x]⟩

/-- The items are in increasing order and end at `last`. -/
structure Increasing (w : Window α) : Prop where
  sorted : w.accepted.Pairwise fun a b => num a < num b
  bound : ∀ a ∈ w.accepted, (num a : ℤ) ≤ w.last

variable {num}

theorem increasing_empty : Increasing num ({} : Window α) :=
  ⟨List.Pairwise.nil, fun a ha => by cases ha⟩

theorem Increasing.offer {w : Window α} (h : Increasing num w) (x : α) :
    Increasing num (w.offer num x) := by
  unfold Window.offer
  split_ifs with hx
  · exact h
  · refine ⟨List.pairwise_append.mpr ⟨h.sorted, List.pairwise_singleton _ _, ?_⟩, ?_⟩
    · intro a ha b hb
      have := h.bound a ha
      rw [List.mem_singleton.mp hb]
      omega
    · intro a ha
      rcases List.mem_append.mp ha with ha | ha
      · have := h.bound a ha
        show (num a : ℤ) ≤ num x
        omega
      · rw [List.mem_singleton.mp ha]

/-- **Items in increasing order that were all sent are a sublist of what was sent.** -/
theorem Increasing.sublist {w : Window α} (h : Increasing num w) {sent : List α}
    (hsent : sent.Pairwise fun a b => num a < num b) (hmem : ∀ a ∈ w.accepted, a ∈ sent) :
    w.accepted.Sublist sent := by
  have hanti : Std.Antisymm fun a b : α => num a < num b := ⟨fun a b hab hba => by omega⟩
  have hnodup : w.accepted.Nodup := h.sorted.imp fun {a b} hab heq => by
    rw [heq] at hab
    omega
  exact List.sublist_of_subperm_of_pairwise (List.subperm_of_subset hnodup hmem) h.sorted hsent

/-- **Offered in order, everything is taken.** -/
theorem offer_all : ∀ {xs : List α} {w : Window α}, xs.Pairwise (fun a b => num a < num b) →
    (∀ x ∈ xs, w.last < num x) → (xs.foldl (offer num) w).accepted = w.accepted ++ xs
  | [], w, _, _ => by simp
  | x :: xs, w, hs, hlast => by
    obtain ⟨hx, hs⟩ := List.pairwise_cons.mp hs
    have htaken : w.offer num x = ⟨num x, w.accepted ++ [x]⟩ := by
      have := hlast x (by simp)
      unfold Window.offer
      rw [if_neg (by omega)]
    rw [List.foldl_cons, htaken, offer_all hs fun y hy => ?_]
    · simp
    · have := hx y hy
      show ((num x : ℕ) : ℤ) < num y
      omega

end Window

end ConsensusNode.Lib
