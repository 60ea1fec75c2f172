import Mathlib.Data.List.Basic
import Mathlib.Data.List.Induction

/-! # Runs of a deterministic machine

A machine is a step function `step : σ → ι → σ`; whatever a program does not decide itself (the next
message, the outcome of a download, the value of a clock, random bytes) is part of the input `ι`. A
run is a list of inputs.

* `Steps step C s is`: every step of the run `is` from `s` meets `C`, which sees the inputs before the
  step, the state before the step and the input of the step.
* `run_induct`: an invariant that holds at the start and is kept by every step that meets `C` holds at
  the end of a run whose steps all meet `C`.
* `Steps.of_inv`: the same for a property of the steps themselves.
* `Awaits.run_eq`: a machine that waits for one input after another and ignores the rest comes to the same
  end in every run that has these inputs in this order. -/

namespace ConsensusNode.Lib.Run

variable {σ ι : Type*} (step : σ → ι → σ)

/-- The state after a run. -/
def run (s : σ) (is : List ι) : σ := is.foldl step s

@[simp] theorem run_nil (s : σ) : run step s [] = s := rfl

@[simp] theorem run_cons (s : σ) (i : ι) (is : List ι) :
    run step s (i :: is) = run step (step s i) is := rfl

@[simp] theorem run_concat (s : σ) (is : List ι) (i : ι) :
    run step s (is ++ [i]) = step (run step s is) i := by simp [run]

theorem run_append (s : σ) (is js : List ι) : run step s (is ++ js) = run step (run step s is) js := by
  simp [run]

/-- Every step of the run meets `C`. -/
def Steps (C : List ι → σ → ι → Prop) (s : σ) (is : List ι) : Prop :=
  ∀ pre i post, is = pre ++ i :: post → C pre (run step s pre) i

variable {step} {C : List ι → σ → ι → Prop} {s : σ}

theorem Steps.nil : Steps step C s [] := by
  intro pre i post h
  simp at h

theorem Steps.cons {i : ι} {is : List ι} (h : C [] s i)
    (hs : Steps step (fun pre => C (i :: pre)) (step s i) is) : Steps step C s (i :: is) := by
  intro pre j post e
  cases pre with
  | nil =>
    cases e
    exact h
  | cons k pre =>
    cases e
    exact hs pre j post rfl

theorem steps_cons_iff {i : ι} {is : List ι} :
    Steps step C s (i :: is) ↔ C [] s i ∧ Steps step (fun pre => C (i :: pre)) (step s i) is := by
  constructor
  · intro h
    refine ⟨h [] i is rfl, ?_⟩
    intro pre j post e
    exact h (i :: pre) j post (by rw [e]; rfl)
  · rintro ⟨h, hs⟩
    exact .cons h hs

instance decidableSteps (C : List ι → σ → ι → Prop) [h : ∀ pre t i, Decidable (C pre t i)] (s : σ) :
    ∀ is : List ι, Decidable (Steps step C s is)
  | [] => .isTrue .nil
  | i :: is =>
    have := decidableSteps (fun pre => C (i :: pre)) (step s i) is
    decidable_of_iff _ steps_cons_iff.symm

theorem Steps.last {is : List ι} {i : ι} (h : Steps step C s (is ++ [i])) :
    C is (run step s is) i := h is i [] rfl

theorem Steps.init {is : List ι} {i : ι} (h : Steps step C s (is ++ [i])) :
    Steps step C s is := by
  intro pre j post e
  exact h pre j (post ++ [i]) (by rw [e]; simp)

theorem Steps.concat {is : List ι} {i : ι} (h : Steps step C s is) (hi : C is (run step s is) i) :
    Steps step C s (is ++ [i]) := by
  intro pre j post e
  rcases List.eq_nil_or_concat post with rfl | ⟨post, k, rfl⟩
  · obtain ⟨rfl, hij⟩ := List.append_inj' e rfl
    obtain rfl : i = j := by simpa using hij
    exact hi
  · have hsplit : is ++ [i] = (pre ++ j :: post) ++ [k] := by rw [e]; simp
    exact h pre j post (List.append_inj' hsplit rfl).1

theorem Steps.of_append {pre post : List ι} (h : Steps step C s (pre ++ post)) : Steps step C s pre := by
  intro pre' j post' e
  exact h pre' j (post' ++ post) (by rw [e]; simp)

theorem Steps.imp {D : List ι → σ → ι → Prop} {is : List ι} (h : Steps step C s is)
    (hCD : ∀ pre t i, C pre t i → D pre t i) : Steps step D s is :=
  fun pre i post e => hCD _ _ _ (h pre i post e)

/-- **The invariant rule.** -/
theorem run_induct {J : List ι → σ → Prop} (h0 : J [] s)
    (hstep : ∀ pre i, J pre (run step s pre) → C pre (run step s pre) i →
      J (pre ++ [i]) (step (run step s pre) i))
    {is : List ι} (hC : Steps step C s is) : J is (run step s is) := by
  induction is using List.reverseRecOn with
  | nil => exact h0
  | append_singleton is i ih =>
    rw [run_concat]
    exact hstep is i (ih hC.init) hC.last

/-- **The invariant rule for steps.** -/
theorem Steps.of_inv {P : List ι → σ → ι → Prop} {J : List ι → σ → Prop} (h0 : J [] s)
    (hstep : ∀ pre i, J pre (run step s pre) → C pre (run step s pre) i →
      J (pre ++ [i]) (step (run step s pre) i))
    (hP : ∀ pre i, J pre (run step s pre) → C pre (run step s pre) i → P pre (run step s pre) i)
    {is : List ι} (hC : Steps step C s is) : Steps step P s is := by
  intro pre i post e
  subst e
  have hpre : Steps step C s pre := hC.of_append
  exact hP pre i (run_induct h0 hstep hpre) (hC pre i post rfl)

variable (step) in
/-- From `s` the machine takes the inputs one after another up to `t`, and ignores every other input on its
way. -/
inductive Awaits : σ → List ι → σ → Prop
  | done {t : σ} (h : ∀ i, step t i = t) : Awaits t [] t
  | next {s t : σ} {i : ι} {is : List ι} (other : ∀ j, j ≠ i → step s j = s) (rest : Awaits (step s i) is t) :
      Awaits s (i :: is) t

theorem run_of_idle (h : ∀ i, step s i = s) : ∀ is : List ι, run step s is = s
  | [] => rfl
  | i :: is => by rw [run_cons, h i, run_of_idle h is]

theorem Awaits.run_eq [DecidableEq ι] {t : σ} {is js : List ι} (h : Awaits step s is t) (hsub : is.Sublist js) :
    run step s js = t := by
  induction js generalizing s is with
  | nil =>
    obtain rfl := List.sublist_nil.mp hsub
    cases h
    rfl
  | cons j js ih =>
    rcases h with h | ⟨other, rest⟩
    · exact run_of_idle h _
    · rename_i i is
      rw [run_cons]
      by_cases hj : j = i
      · subst hj
        exact ih rest (List.cons_sublist_cons.mp hsub)
      · rw [other j hj]
        refine ih (.next other rest) ?_
        rcases List.sublist_cons_iff.mp hsub with hlater | ⟨rest', hrest', -⟩
        · exact hlater
        · exact absurd (List.cons.inj hrest').1.symm hj

end ConsensusNode.Lib.Run
