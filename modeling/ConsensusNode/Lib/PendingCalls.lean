import ConsensusNode.Js.OrdMap

/-! # Calls that wait for an answer

Calls that wait under a name until something ends them: an answer with that name, their timer, or an end
of all of them. A call is its number. Its outcome is a promise, so only the first one counts.

* `Calls.Inv`: the calls that wait are the ones that have not ended, apart from those with an outcome of
  `own`; they end by themselves, and nothing is said about their entries.
* One lemma for each operation that it keeps `Inv`, and one that says what the operation ends. -/

namespace ConsensusNode.Lib

open Js

structure Calls (κ ω : Type) where
  /-- The names of the calls, in their order. -/
  names : List κ := []
  /-- The calls that wait, under their names. -/
  waiting : OrdMap κ ℕ := ⟨[], by simp⟩
  /-- The calls whose timer runs. -/
  timers : List ℕ := []
  /-- How calls have ended. -/
  ended : List (ℕ × ω) := []

namespace Calls

variable {κ ω : Type}

/-- The call has ended. -/
def Ended (c : Calls κ ω) (n : ℕ) : Prop := n ∈ c.ended.map Prod.fst

instance (c : Calls κ ω) (n : ℕ) : Decidable (c.Ended n) := inferInstanceAs (Decidable (_ ∈ _))

/-- A promise is settled once. -/
def finish (c : Calls κ ω) (n : ℕ) (o : ω) : Calls κ ω :=
  if c.Ended n then c else { c with ended := c.ended ++ [(n, o)] }

section Finish

variable {c : Calls κ ω} {n m : ℕ} {o x : ω}

@[simp] theorem finish_names : (c.finish n o).names = c.names := by
  unfold finish
  split_ifs <;> rfl

@[simp] theorem finish_waiting : (c.finish n o).waiting = c.waiting := by
  unfold finish
  split_ifs <;> rfl

@[simp] theorem finish_timers : (c.finish n o).timers = c.timers := by
  unfold finish
  split_ifs <;> rfl

theorem mem_finish : (m, x) ∈ (c.finish n o).ended ↔ (m, x) ∈ c.ended ∨ (¬c.Ended n ∧ m = n ∧ x = o) := by
  unfold finish
  split_ifs with h
  · simp [h]
  · simp [h]

theorem ended_finish : (c.finish n o).Ended m ↔ c.Ended m ∨ m = n := by
  unfold finish
  split_ifs with h
  · constructor
    · exact .inl
    · rintro (hm | rfl)
      · exact hm
      · exact h
  · unfold Ended
    rw [List.map_append, List.mem_append]
    simp

theorem nodup_finish (h : (c.ended.map Prod.fst).Nodup) : ((c.finish n o).ended.map Prod.fst).Nodup := by
  unfold finish
  split_ifs with hn
  · exact h
  · rw [List.map_append]
    refine h.append (by simp) fun a ha ha' => hn ?_
    rw [show n = a from (List.mem_singleton.mp ha').symm]
    exact ha

end Finish

/-! ### The operations -/

variable [DecidableEq κ]

/-- A new call waits under a name, with a timer. -/
def start (c : Calls κ ω) (k : κ) : Calls κ ω where
  names := c.names ++ [k]
  waiting := c.waiting.set k c.names.length
  timers := c.timers ++ [c.names.length]
  ended := c.ended

/-- The call that waits under the name stops waiting, its timer is cleared, and it ends. -/
def remove (c : Calls κ ω) (k : κ) (n : ℕ) (o : ω) : Calls κ ω :=
  let c' : Calls κ ω :=
    { c with waiting := c.waiting.delete k, timers := c.timers.filter fun m => decide (m ≠ n) }
  c'.finish n o

/-- The call that waits under the name, if any, ends. -/
def answer (c : Calls κ ω) (k : κ) (o : ω) : Calls κ ω :=
  match c.waiting.get? k with
  | none => c
  | some n => c.remove k n o

/-- The timer of a call fires, if it runs. -/
def expire (c : Calls κ ω) (n : ℕ) (o : ω) : Calls κ ω :=
  match c.names[n]? with
  | some k => if n ∈ c.timers then c.remove k n o else c
  | none => c

/-- All calls that wait end. -/
def dropAll (c : Calls κ ω) (o : ω) : Calls κ ω := c.waiting.keys.foldl (fun c k => c.answer k o) c

variable {c : Calls κ ω} {k : κ} {n m : ℕ} {o x : ω}

/-! ### What an operation changes -/

@[simp] theorem remove_names : (c.remove k n o).names = c.names := by
  unfold remove
  exact finish_names

@[simp] theorem remove_waiting : (c.remove k n o).waiting = c.waiting.delete k := by
  unfold remove
  exact finish_waiting

theorem mem_remove (h : (m, x) ∈ (c.remove k n o).ended) : (m, x) ∈ c.ended ∨ (m = n ∧ x = o) := by
  rcases mem_finish.mp h with hold | ⟨-, hm, hx⟩
  · exact .inl hold
  · exact .inr ⟨hm, hx⟩

theorem answer_of_not_waiting (h : c.waiting.get? k = none) : c.answer k o = c := by
  unfold answer
  rw [h]

theorem answer_of_waiting (h : c.waiting.get? k = some n) : c.answer k o = c.remove k n o := by
  unfold answer
  rw [h]

@[simp] theorem answer_names : (c.answer k o).names = c.names := by
  unfold answer
  split
  · rfl
  · exact remove_names

theorem answer_waiting : (c.answer k o).waiting = c.waiting.delete k := by
  rcases hk : c.waiting.get? k with _ | n
  · rw [answer_of_not_waiting hk]
    exact (OrdMap.delete_of_get?_none hk).symm
  · rw [answer_of_waiting hk]
    exact remove_waiting

theorem mem_answer (h : (m, x) ∈ (c.answer k o).ended) :
    (m, x) ∈ c.ended ∨ (c.waiting.get? k = some m ∧ x = o) := by
  rcases hk : c.waiting.get? k with _ | n
  · rw [answer_of_not_waiting hk] at h
    exact .inl h
  · rw [answer_of_waiting hk] at h
    rcases mem_remove h with hold | ⟨rfl, rfl⟩
    · exact .inl hold
    · exact .inr ⟨rfl, rfl⟩

/-- A timer that fires, fires for its own call. -/
theorem expire_cases :
    c.expire n o = c ∨ ∃ k, c.names[n]? = some k ∧ n ∈ c.timers ∧ c.expire n o = c.remove k n o := by
  unfold expire
  split
  · rename_i k hk
    split_ifs with ht
    · exact .inr ⟨k, hk, ht, rfl⟩
    · exact .inl rfl
  · exact .inl rfl

@[simp] theorem expire_names : (c.expire n o).names = c.names := by
  rcases expire_cases (c := c) (n := n) (o := o) with h | ⟨k, -, -, h⟩
  · rw [h]
  · rw [h, remove_names]

theorem mem_expire (h : (m, x) ∈ (c.expire n o).ended) :
    (m, x) ∈ c.ended ∨ (m = n ∧ n ∈ c.timers ∧ x = o) := by
  rcases expire_cases (c := c) (n := n) (o := o) with he | ⟨k, -, ht, he⟩
  · rw [he] at h
    exact .inl h
  · rw [he] at h
    rcases mem_remove h with hold | ⟨rfl, rfl⟩
    · exact .inl hold
    · exact .inr ⟨rfl, ht, rfl⟩

/-- What every answer keeps, answers to all names keep. -/
theorem dropAll_induct {P : Calls κ ω → Prop} (h : P c) (hanswer : ∀ c k, P c → P (c.answer k o)) :
    P (c.dropAll o) := by
  unfold dropAll
  generalize c.waiting.keys = ks
  induction ks generalizing c with
  | nil => exact h
  | cons k ks ih => exact ih (hanswer c k h)

@[simp] theorem dropAll_names : (c.dropAll o).names = c.names :=
  dropAll_induct (P := fun c' => c'.names = c.names) rfl fun _ _ h => answer_names.trans h

theorem mem_dropAll (h : (m, x) ∈ (c.dropAll o).ended) : (m, x) ∈ c.ended ∨ x = o := by
  refine dropAll_induct (P := fun c' => (m, x) ∈ c'.ended → (m, x) ∈ c.ended ∨ x = o) .inl ?_ h
  intro c' k ih h'
  rcases mem_answer h' with hold | ⟨-, rfl⟩
  · exact ih hold
  · exact .inr rfl

theorem foldl_answer_waiting (ks : List κ) :
    (ks.foldl (fun c k => c.answer k o) c).waiting = ks.foldl OrdMap.delete c.waiting := by
  induction ks generalizing c with
  | nil => rfl
  | cons k ks ih =>
    rw [List.foldl_cons, ih, answer_waiting]
    rfl

@[simp] theorem dropAll_waiting : (c.dropAll o).waiting = ∅ := by
  unfold dropAll
  rw [foldl_answer_waiting]
  exact OrdMap.foldl_delete_keys c.waiting

/-! ### The invariant -/

/-- The calls wait exactly as long as they have not ended; calls with an outcome of `own` are left out. -/
structure Inv (own : ω → Prop) (c : Calls κ ω) : Prop where
  distinct : c.names.Nodup
  waits : ∀ {k n}, c.waiting.get? k = some n → c.names[n]? = some k
  timed : ∀ {n}, n ∈ c.timers ↔ ∃ k, c.waiting.get? k = some n
  once : (c.ended.map Prod.fst).Nodup
  known : ∀ {n}, c.Ended n → n < c.names.length
  exact : ∀ {n k}, c.names[n]? = some k → (∀ x, (n, x) ∈ c.ended → ¬own x) →
    (c.waiting.get? k = some n ↔ ¬c.Ended n)

theorem inv_init (own : ω → Prop) : Inv own ({} : Calls κ ω) where
  distinct := List.nodup_nil
  waits h := by cases h
  timed := by
    intro n
    constructor
    · intro h
      cases h
    · rintro ⟨_, h⟩
      cases h
  once := List.nodup_nil
  known h := by cases h
  exact h := by cases h

namespace Inv

variable {own : ω → Prop}

theorem start (h : Inv own c) (hk : k ∉ c.names) : Inv own (c.start k) where
  distinct := by
    show (c.names ++ [k]).Nodup
    exact List.nodup_append.mpr ⟨h.distinct, by simp, by
      rintro a ha b hb rfl
      exact hk (List.mem_singleton.mp hb ▸ ha)⟩
  waits := by
    intro k' n hget
    change (c.waiting.set k c.names.length).get? k' = some n at hget
    rw [OrdMap.get?_set] at hget
    show (c.names ++ [k])[n]? = some k'
    split_ifs at hget with heq
    · cases hget
      rw [heq]
      simp
    · rw [List.getElem?_append_left (List.getElem?_eq_some_iff.mp (h.waits hget)).1]
      exact h.waits hget
  timed := by
    intro n
    show n ∈ c.timers ++ [c.names.length] ↔ ∃ k', (c.waiting.set k c.names.length).get? k' = some n
    rw [List.mem_append, List.mem_singleton, h.timed]
    constructor
    · rintro (⟨k', hk'⟩ | rfl)
      · have hne : k' ≠ k := by
          rintro rfl
          exact hk (List.mem_of_getElem? (h.waits hk'))
        exact ⟨k', (OrdMap.get?_set_ne _ _ hne).trans hk'⟩
      · exact ⟨k, OrdMap.get?_set_self _ _ _⟩
    · rintro ⟨k', hk'⟩
      rw [OrdMap.get?_set] at hk'
      split_ifs at hk' with heq
      · cases hk'
        exact .inr rfl
      · exact .inl ⟨k', hk'⟩
  once := h.once
  known hn := by
    show _ < (c.names ++ [k]).length
    rw [List.length_append]
    exact Nat.lt_add_right _ (h.known hn)
  exact := by
    intro n k' hn hown
    change (c.names ++ [k])[n]? = some k' at hn
    show (c.waiting.set k c.names.length).get? k' = some n ↔ ¬c.Ended n
    rw [OrdMap.get?_set]
    rcases Nat.lt_or_ge n c.names.length with hlt | hge
    · rw [List.getElem?_append_left hlt] at hn
      have hne : k' ≠ k := by
        rintro rfl
        exact hk (List.mem_of_getElem? hn)
      rw [if_neg hne]
      exact h.exact hn hown
    · -- the new call
      rw [List.getElem?_append_right hge, List.getElem?_singleton] at hn
      split_ifs at hn with hlen
      cases hn
      have hnew : c.names.length = n := by omega
      rw [if_pos rfl, hnew]
      simp only [true_iff]
      exact fun he => absurd (h.known he) (Nat.not_lt.mpr hge)

/-- The call ends by itself; it may wait on. -/
theorem finish (h : Inv own c) (hn : n < c.names.length) (ho : own o) : Inv own (c.finish n o) where
  distinct := by rw [finish_names]; exact h.distinct
  waits := by rw [finish_names, finish_waiting]; exact h.waits
  timed := by rw [finish_timers, finish_waiting]; exact h.timed
  once := nodup_finish h.once
  known := by
    intro m hm
    rw [finish_names]
    rcases ended_finish.mp hm with hm | rfl
    · exact h.known hm
    · exact hn
  exact := by
    intro m k hm hown
    rw [finish_names] at hm
    rw [finish_waiting, ended_finish]
    have hold : ∀ x, (m, x) ∈ c.ended → ¬own x := fun x hx => hown x (mem_finish.mpr (.inl hx))
    by_cases hmn : m = n
    · subst hmn
      by_cases he : c.Ended m
      · rw [h.exact hm hold]
        simp [he]
      · exact absurd ho (hown o (mem_finish.mpr (.inr ⟨he, rfl, rfl⟩)))
    · rw [h.exact hm hold]
      simp [hmn]

theorem remove (h : Inv own c) (hk : c.waiting.get? k = some n) (o : ω) : Inv own (c.remove k n o) where
  distinct := by rw [remove_names]; exact h.distinct
  waits := by
    intro k' m hget
    rw [remove_names]
    rw [remove_waiting, OrdMap.get?_delete] at hget
    split_ifs at hget
    exact h.waits hget
  timed := by
    intro m
    rw [remove_waiting]
    unfold Calls.remove
    rw [finish_timers, List.mem_filter, decide_eq_true_eq, h.timed]
    constructor
    · rintro ⟨⟨k', hk'⟩, hmn⟩
      have hne : k' ≠ k := by
        rintro rfl
        exact hmn (Option.some.inj (hk'.symm.trans hk))
      exact ⟨k', (OrdMap.get?_delete_ne _ hne).trans hk'⟩
    · rintro ⟨k', hk'⟩
      rw [OrdMap.get?_delete] at hk'
      split_ifs at hk' with heq
      refine ⟨⟨k', hk'⟩, ?_⟩
      rintro rfl
      exact heq (Option.some.inj ((h.waits hk').symm.trans (h.waits hk)))
  once := nodup_finish h.once
  known := by
    intro m hm
    rw [remove_names]
    rcases ended_finish.mp hm with hm | rfl
    · exact h.known hm
    · exact (List.getElem?_eq_some_iff.mp (h.waits hk)).1
  exact := by
    intro m k' hm hown
    rw [remove_names] at hm
    have hended : (c.remove k n o).Ended m ↔ c.Ended m ∨ m = n := ended_finish
    rw [remove_waiting, hended, OrdMap.get?_delete]
    have hold : ∀ x, (m, x) ∈ c.ended → ¬own x := fun x hx => hown x (mem_finish.mpr (.inl hx))
    by_cases hmn : m = n
    · subst hmn
      obtain rfl : k' = k := Option.some.inj (hm.symm.trans (h.waits hk))
      simp
    · have hne : k' ≠ k := by
        rintro rfl
        have hlt : m < c.names.length := (List.getElem?_eq_some_iff.mp hm).1
        exact hmn ((List.getElem?_inj hlt h.distinct).mp (hm.trans (h.waits hk).symm))
      rw [if_neg hne, h.exact hm hold]
      simp [hmn]

theorem answer (h : Inv own c) (k : κ) (o : ω) : Inv own (c.answer k o) := by
  rcases hk : c.waiting.get? k with _ | n
  · rw [answer_of_not_waiting hk]
    exact h
  · rw [answer_of_waiting hk]
    exact h.remove hk o

theorem expire (h : Inv own c) (n : ℕ) (o : ω) : Inv own (c.expire n o) := by
  rcases expire_cases (c := c) (n := n) (o := o) with he | ⟨k, hk, ht, he⟩
  · rw [he]
    exact h
  · rw [he]
    obtain ⟨k', hk'⟩ := h.timed.mp ht
    cases hk.symm.trans (h.waits hk')
    exact h.remove hk' o

theorem dropAll (h : Inv own c) (o : ω) : Inv own (c.dropAll o) :=
  dropAll_induct h fun _ k hc => hc.answer k o

end Inv

end Calls

end ConsensusNode.Lib
