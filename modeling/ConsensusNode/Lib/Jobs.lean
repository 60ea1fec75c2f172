import ConsensusNode.Js.OrdMap

/-! # Jobs that answer when they end

Jobs are numbered in the order in which they start. A job runs until it ends with an outcome; then it says
what `reply` makes of the outcome, and it says nothing before or after.

* `Sound`: a job that has ended runs no more and has said its reply, and no other has said anything.
* `Sound.start`, `Sound.finish`: the two operations keep this.
* `active_start`, `active_finish`: the number of running jobs of a kind. -/

namespace ConsensusNode.Lib

open Js

structure Jobs (α ω μ : Type) where
  /-- Every job so far. -/
  started : List α := []
  running : OrdMap ℕ α := ⟨[], by simp⟩
  ended : List (ℕ × ω) := []
  said : List (ℕ × μ) := []

namespace Jobs

variable {α ω μ : Type} (reply : ω → List μ)

/-- The number of the next job. -/
def next (j : Jobs α ω μ) : ℕ := j.started.length

def start (j : Jobs α ω μ) (a : α) : Jobs α ω μ :=
  { j with started := j.started ++ [a], running := j.running.set j.next a }

/-- A job ends, if it runs. -/
def finish (j : Jobs α ω μ) (n : ℕ) (o : ω) : Jobs α ω μ :=
  if j.running.has n then
    { j with
      running := j.running.delete n
      ended := j.ended ++ [(n, o)]
      said := j.said ++ (reply o).map fun m => (n, m) }
  else j

/-- What a job has said. -/
def saidBy (j : Jobs α ω μ) (n : ℕ) : List μ := (j.said.filter fun e => e.1 = n).map Prod.snd

/-- How many of the jobs that run are of a kind. -/
def active (j : Jobs α ω μ) (kind : α → Bool) : ℕ := j.running.entries.countP fun e => kind e.2

structure Sound (j : Jobs α ω μ) : Prop where
  started : ∀ {n a}, j.running.get? n = some a → j.started[n]? = some a
  apart : ∀ {n}, j.running.has n = true → n ∉ j.ended.map Prod.fst
  ended : ∀ {n}, n ∈ j.ended.map Prod.fst → n < j.started.length
  quiet : ∀ {n}, n ∉ j.ended.map Prod.fst → j.saidBy n = []
  answered : ∀ {n o}, (n, o) ∈ j.ended → j.saidBy n = reply o

variable {reply} {j : Jobs α ω μ} {a : α} {n : ℕ} {o : ω}

theorem sound_empty : Sound reply ({} : Jobs α ω μ) where
  started h := by cases h
  apart h := by cases h
  ended h := by cases h
  quiet _ := rfl
  answered h := by cases h

/-! ### A job starts -/

/-- The next number is new. -/
theorem Sound.next_idle (h : Sound reply j) : j.running.get? j.next = none := by
  rcases hget : j.running.get? j.next with _ | a
  · rfl
  · have hlt : j.next < j.started.length := (List.getElem?_eq_some_iff.mp (h.started hget)).1
    exact absurd hlt (Nat.lt_irrefl _)

theorem getElem?_start_of_lt (h : n < j.next) : (j.start a).started[n]? = j.started[n]? :=
  List.getElem?_append_left h

theorem getElem?_start_next : (j.start a).started[j.next]? = some a := by
  show (j.started ++ [a])[j.started.length]? = some a
  simp

theorem Sound.start (h : Sound reply j) (a : α) : Sound reply (j.start a) where
  started {n b} hget := by
    by_cases hn : n = j.next
    · subst hn
      have hb : a = b := Option.some.inj ((OrdMap.get?_set_self _ _ _).symm.trans hget)
      rw [getElem?_start_next, hb]
    · have hold : j.running.get? n = some b := (OrdMap.get?_set_ne _ a hn).symm.trans hget
      have hlt : n < j.next := (List.getElem?_eq_some_iff.mp (h.started hold)).1
      rw [getElem?_start_of_lt hlt, h.started hold]
  apart {n} hrun hend := by
    have hlt : n < j.started.length := h.ended hend
    rcases OrdMap.has_set_iff.mp hrun with hn | hrun
    · have hn' : n = j.started.length := hn
      omega
    · exact h.apart hrun hend
  ended {n} hend := by
    have hlt : n < j.started.length := h.ended hend
    have hlen : (j.start a).started.length = j.started.length + 1 := by simp [Jobs.start]
    omega
  quiet := h.quiet
  answered := h.answered

/-! ### A job ends -/

theorem finish_of_running (hrun : j.running.has n = true) : j.finish reply n o = { j with
    running := j.running.delete n
    ended := j.ended ++ [(n, o)]
    said := j.said ++ (reply o).map fun m => (n, m) } := if_pos hrun

@[simp] theorem finish_started : (j.finish reply n o).started = j.started := by
  unfold finish
  split_ifs <;> rfl

theorem mem_ended_finish {e : ℕ × ω} (h : e ∈ j.ended) : e ∈ (j.finish reply n o).ended := by
  unfold finish
  split_ifs
  · exact List.mem_append_left _ h
  · exact h

theorem ended_finish_self (hrun : j.running.has n = true) : (n, o) ∈ (j.finish reply n o).ended := by
  rw [finish_of_running hrun]
  exact List.mem_append_right _ (List.mem_singleton.mpr rfl)

theorem saidBy_finish_self (hrun : j.running.has n = true) :
    (j.finish reply n o).saidBy n = j.saidBy n ++ reply o := by
  rw [finish_of_running hrun]
  unfold saidBy
  simp [List.filter_append, List.filter_map, Function.comp_def]

theorem saidBy_finish_of_ne {m : ℕ} (hne : m ≠ n) : (j.finish reply n o).saidBy m = j.saidBy m := by
  unfold finish saidBy
  split_ifs
  · have hn : ¬ n = m := fun h => hne h.symm
    simp [List.filter_append, List.filter_map, Function.comp_def, hn]
  · rfl

theorem Sound.finish (h : Sound reply j) (hrun : j.running.has n = true) (o : ω) :
    Sound reply (j.finish reply n o) := by
  have hself : (j.finish reply n o).saidBy n = reply o := by
    rw [saidBy_finish_self hrun, h.quiet (h.apart hrun), List.nil_append]
  have hother : ∀ {m}, m ≠ n → (j.finish reply n o).saidBy m = j.saidBy m := saidBy_finish_of_ne
  have hlt : n < j.started.length := by
    obtain ⟨b, hb⟩ := Option.isSome_iff_exists.mp hrun
    exact (List.getElem?_eq_some_iff.mp (h.started hb)).1
  have hended : ∀ {m}, m ∈ (j.ended ++ [(n, o)]).map Prod.fst ↔ m ∈ j.ended.map Prod.fst ∨ m = n := by simp
  rw [finish_of_running hrun] at hself hother ⊢
  refine ⟨?_, ?_, ?_, ?_, ?_⟩
  · intro m b hget
    by_cases hm : m = n
    · subst hm
      have hnone := OrdMap.get?_delete_self j.running m
      exact absurd (hnone.symm.trans hget) (by simp)
    · exact h.started ((OrdMap.get?_delete_ne _ hm).symm.trans hget)
  · intro m hrun' hend
    obtain ⟨hmn, hrun'⟩ := OrdMap.has_delete_iff.mp hrun'
    rcases hended.mp hend with hend | hm
    · exact h.apart hrun' hend
    · exact hmn hm
  · intro m hend
    rcases hended.mp hend with hend | rfl
    · exact h.ended hend
    · exact hlt
  · intro m hm
    have hm' := mt hended.mpr hm
    rw [hother fun hmn => hm' (.inr hmn)]
    exact h.quiet fun hend => hm' (.inl hend)
  · intro m o' hmem
    rcases List.mem_append.mp hmem with hold | hnew
    · have hmn : m ≠ n := by
        rintro rfl
        exact h.apart hrun (List.mem_map.mpr ⟨_, hold, rfl⟩)
      rw [hother hmn]
      exact h.answered hold
    · obtain ⟨rfl, rfl⟩ := Prod.mk.inj (List.mem_singleton.mp hnew)
      exact hself

/-! ### How many jobs run -/

variable {k : α → Bool}

theorem entries_set_new {κ ν : Type} [DecidableEq κ] {m : OrdMap κ ν} {k : κ} (h : m.get? k = none) (v : ν) :
    (m.set k v).entries = m.entries ++ [(k, v)] := by
  have hhas : ¬ m.has k = true := by
    rw [OrdMap.not_has_iff.mpr h]
    simp
  unfold OrdMap.set
  rw [dif_neg hhas]

theorem entries_delete {κ ν : Type} [DecidableEq κ] {m : OrdMap κ ν} {k : κ} {v : ν} (h : m.get? k = some v) :
    ∃ l r, m.entries = l ++ (k, v) :: r ∧ (m.delete k).entries = l ++ r := by
  obtain ⟨l, r, hlr⟩ := List.append_of_mem (OrdMap.get?_eq_some.mp h)
  have hkeys : (l.map Prod.fst ++ k :: r.map Prod.fst).Nodup := by
    have hnodup := m.nodup
    rw [hlr] at hnodup
    simpa using hnodup
  have hnot := (List.nodup_middle.mp hkeys)
  have hl : ∀ e ∈ l, e.1 ≠ k := by
    rintro e he rfl
    exact (List.nodup_cons.mp hnot).1 (List.mem_append_left _ (List.mem_map.mpr ⟨e, he, rfl⟩))
  have hr : ∀ e ∈ r, e.1 ≠ k := by
    rintro e he rfl
    exact (List.nodup_cons.mp hnot).1 (List.mem_append_right _ (List.mem_map.mpr ⟨e, he, rfl⟩))
  refine ⟨l, r, hlr, ?_⟩
  show m.entries.filter _ = l ++ r
  rw [hlr, List.filter_append, List.filter_cons_of_neg (by simp)]
  rw [List.filter_eq_self.mpr fun e he => decide_eq_true (hl e he),
    List.filter_eq_self.mpr fun e he => decide_eq_true (hr e he)]

theorem active_start (h : Sound reply j) :
    (j.start a).active k = j.active k + if k a then 1 else 0 := by
  unfold active
  show (j.running.set j.next a).entries.countP _ = _
  rw [entries_set_new h.next_idle, List.countP_append, List.countP_singleton]

theorem active_finish (hrun : j.running.get? n = some a) (reply : ω → List μ) (o : ω) :
    j.active k = (j.finish reply n o).active k + if k a then 1 else 0 := by
  obtain ⟨l, r, hentries, hdelete⟩ := entries_delete hrun
  have hhas : j.running.has n = true := Option.isSome_iff_exists.mpr ⟨a, hrun⟩
  rw [finish_of_running hhas]
  unfold active
  show _ = (j.running.delete n).entries.countP _ + _
  rw [hentries, hdelete, List.countP_append, List.countP_append, List.countP_cons]
  dsimp only
  omega

end Jobs

end ConsensusNode.Lib
