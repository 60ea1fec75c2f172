import ConsensusNode.Lib.Run

/-! # What a run puts out

A machine with outputs: `out s i` is what the step on the input `i` puts out in the state `s`.

* `trace`: the outputs of a run, in their order.
* `trace_eq_nil`: a run that puts out nothing.
* `trace_simulates`: if two machines are related, and each step that meets the condition puts out the same on
  both and keeps them related, then a run puts out the same on both. -/

namespace ConsensusNode.Lib.Run

variable {σ τ ι ω : Type*} (step : σ → ι → σ) (out : σ → ι → List ω)

def trace : σ → List ι → List ω
  | _, [] => []
  | s, i :: is => out s i ++ trace (step s i) is

theorem trace_append (s : σ) (is js : List ι) :
    trace step out s (is ++ js) = trace step out s is ++ trace step out (run step s is) js := by
  induction is generalizing s with
  | nil => rfl
  | cons i is ih =>
    show out s i ++ trace step out (step s i) (is ++ js) = _
    rw [ih, ← List.append_assoc]
    rfl

variable {step out} {C : List ι → σ → ι → Prop}

/-- **The simulation rule.** -/
theorem trace_simulates {step' : τ → ι → τ} {out' : τ → ι → List ω} {R : σ → τ → Prop} {is : List ι} {s : σ} {t : τ}
    (hstep : ∀ pre s t i, R s t → C pre s i → out s i = out' t i ∧ R (step s i) (step' t i))
    (h : R s t) (hC : Steps step C s is) : trace step out s is = trace step' out' t is := by
  induction is generalizing C s t with
  | nil => rfl
  | cons i is ih =>
    obtain ⟨hi, hrest⟩ := steps_cons_iff.mp hC
    obtain ⟨hout, hnext⟩ := hstep [] s t i h hi
    have hsame : trace step out (step s i) is = trace step' out' (step' t i) is :=
      ih (fun pre => hstep (i :: pre)) hnext hrest
    show out s i ++ trace step out (step s i) is = out' t i ++ trace step' out' (step' t i) is
    rw [hout, hsame]

/-- A run of steps that put out nothing. -/
theorem trace_eq_nil {is : List ι} {s : σ} (h : Steps step (fun _ s i => out s i = []) s is) :
    trace step out s is = [] := by
  induction is generalizing s with
  | nil => rfl
  | cons i is ih =>
    obtain ⟨hi, hrest⟩ := steps_cons_iff.mp h
    show out s i ++ trace step out (step s i) is = []
    rw [hi, ih hrest]
    rfl

end ConsensusNode.Lib.Run
