import ConsensusNode.Lib.Run
import Mathlib.Data.List.Range

/-! # A queue with waiting readers

Values are pushed, readers take them, and a failure ends the waiting. A reader that finds nothing waits; a
call of `recv` is its number, and `outcomes` is the order in which the calls are settled.

* `run_fifo`: in every run the calls are settled in their order, and what they receive, followed by what is
  still there, is what was pushed.
* `run_rejects`: a call is rejected only after a failure, and when everything that was pushed has been handed
  out.
* `Carries`: a machine with such a queue in it; `Carries.fifo` is both results for it. -/

namespace ConsensusNode.Lib

open Run

structure Mailbox (α ε : Type) where
  inbox : List α := []
  /-- The calls that wait, oldest first. -/
  waiters : List ℕ := []
  failure : Option ε := none
  /-- The number of calls. -/
  recvs : ℕ := 0
  outcomes : List (ℕ × Except ε α) := []

namespace Mailbox

variable {α ε : Type}

def push (m : Mailbox α ε) (a : α) : Mailbox α ε :=
  match m.waiters with
  | n :: ns => { m with waiters := ns, outcomes := m.outcomes ++ [(n, .ok a)] }
  | [] => { m with inbox := m.inbox ++ [a] }

def recv (m : Mailbox α ε) : Mailbox α ε :=
  match m.inbox with
  | a :: as => { m with inbox := as, recvs := m.recvs + 1, outcomes := m.outcomes ++ [(m.recvs, .ok a)] }
  | [] =>
    match m.failure with
    | some e => { m with recvs := m.recvs + 1, outcomes := m.outcomes ++ [(m.recvs, .error e)] }
    | none => { m with recvs := m.recvs + 1, waiters := m.waiters ++ [m.recvs] }

/-- The rejections of some calls. -/
def rejections (ns : List ℕ) (e : ε) : List (ℕ × Except ε α) := ns.map fun n => (n, .error e)

def fail (m : Mailbox α ε) (e : ε) : Mailbox α ε :=
  { m with failure := some e, waiters := [], outcomes := m.outcomes ++ rejections m.waiters e }

inductive Event (α ε : Type) where
  | push (a : α)
  | recv
  | fail (e : ε)

def step (m : Mailbox α ε) : Event α ε → Mailbox α ε
  | .push a => m.push a
  | .recv => m.recv
  | .fail e => m.fail e

/-- What is pushed. -/
def Event.pushed? : Event α ε → Option α
  | .push a => some a
  | _ => none

def pushes (events : List (Event α ε)) : List α := events.filterMap Event.pushed?

/-- What an outcome hands out. -/
def value? (o : ℕ × Except ε α) : Option α :=
  match o.2 with
  | .ok a => some a
  | .error _ => none

/-- What the calls received, in the order of their settlement. -/
def received (m : Mailbox α ε) : List α := m.outcomes.filterMap value?

/-- A call is rejected in the step. -/
def Rejects (m : Mailbox α ε) (event : Event α ε) : Prop :=
  ∃ n e, (n, .error e) ∈ (m.step event).outcomes ∧ (n, .error e) ∉ m.outcomes

/-! ### The invariant -/

/-- A queue that has been given `pushed`. -/
structure Fifo (pushed : List α) (m : Mailbox α ε) : Prop where
  /-- The calls are settled in their order. -/
  settled : m.outcomes.map Prod.fst = List.range m.outcomes.length
  /-- The other calls wait, in their order. -/
  waiting : m.waiters = List.range' m.outcomes.length (m.recvs - m.outcomes.length)
  calls : m.outcomes.length ≤ m.recvs
  /-- Nothing is lost, doubled or overtaken. -/
  handed : m.received ++ m.inbox = pushed
  one : m.inbox = [] ∨ m.waiters = []
  failed : m.failure ≠ none → m.waiters = []

theorem fifo_init : Fifo [] ({} : Mailbox α ε) where
  settled := rfl
  waiting := rfl
  calls := le_rfl
  handed := rfl
  one := .inl rfl
  failed _ := rfl

variable {pushed : List α} {m : Mailbox α ε}

theorem rejections_fst (ns : List ℕ) (e : ε) :
    (rejections ns e : List (ℕ × Except ε α)).map Prod.fst = ns := by
  unfold rejections
  rw [List.map_map]
  exact List.map_id _

/-- A rejection hands out nothing. -/
theorem rejections_value? (ns : List ℕ) (e : ε) :
    (rejections ns e : List (ℕ × Except ε α)).filterMap value? = [] := by
  unfold rejections
  rw [List.filterMap_map]
  exact List.filterMap_eq_nil_iff.mpr fun _ _ => rfl

/-- The next call is settled. -/
theorem settled_concat {os : List (ℕ × Except ε α)} (h : os.map Prod.fst = List.range os.length)
    (x : Except ε α) :
    (os ++ [(os.length, x)]).map Prod.fst = List.range (os ++ [(os.length, x)]).length := by
  rw [List.map_append, h, List.length_append, List.length_singleton, List.range_succ]
  rfl

/-- If no call waits, all are settled. -/
theorem Fifo.recvs_eq (h : Fifo pushed m) (hw : m.waiters = []) : m.recvs = m.outcomes.length := by
  have hlen := congrArg List.length h.waiting
  rw [hw, List.length_range', List.length_nil] at hlen
  have := h.calls
  omega

theorem Fifo.push (h : Fifo pushed m) (a : α) : Fifo (pushed ++ [a]) (m.push a) := by
  unfold Mailbox.push
  split
  · rename_i n ns hw
    have hinbox : m.inbox = [] := h.one.resolve_right (by rw [hw]; simp)
    obtain ⟨rfl, hpos, hns⟩ := List.range'_eq_cons_iff.mp (h.waiting.symm.trans hw)
    refine ⟨settled_concat h.settled _, ?_, ?_, ?_, .inl hinbox, ?_⟩
    · show ns = List.range' (m.outcomes ++ [_]).length (m.recvs - (m.outcomes ++ [_]).length)
      rw [hns, List.length_append, List.length_singleton, Nat.sub_sub]
    · show (m.outcomes ++ [_]).length ≤ m.recvs
      rw [List.length_append, List.length_singleton]
      omega
    · show List.filterMap value? (m.outcomes ++ [(m.outcomes.length, .ok a)]) ++ m.inbox = pushed ++ [a]
      rw [List.filterMap_append, ← h.handed, hinbox, List.append_nil, List.append_nil]
      rfl
    · intro hf
      rw [h.failed hf] at hw
      cases hw
  · rename_i hw
    refine ⟨h.settled, h.waiting, h.calls, ?_, .inr hw, h.failed⟩
    show m.received ++ (m.inbox ++ [a]) = _
    rw [← List.append_assoc, h.handed]

theorem Fifo.recv (h : Fifo pushed m) : Fifo pushed m.recv := by
  have hlen (x : ℕ × Except ε α) : (m.outcomes ++ [x]).length = m.outcomes.length + 1 := by
    rw [List.length_append, List.length_singleton]
  -- a call that is settled at once is the next one
  have hnow (x : Except ε α) (hw : m.waiters = []) :
      (m.outcomes ++ [(m.recvs, x)]).map Prod.fst = List.range (m.outcomes ++ [(m.recvs, x)]).length ∧
      m.waiters = List.range' (m.outcomes ++ [(m.recvs, x)]).length
        (m.recvs + 1 - (m.outcomes ++ [(m.recvs, x)]).length) ∧
      (m.outcomes ++ [(m.recvs, x)]).length ≤ m.recvs + 1 := by
    rw [hlen, h.recvs_eq hw, Nat.sub_self]
    refine ⟨?_, hw, le_rfl⟩
    rw [← hlen (m.outcomes.length, x)]
    exact settled_concat h.settled x
  unfold Mailbox.recv
  split
  · rename_i a as hinbox
    have hw : m.waiters = [] := h.one.resolve_left (by rw [hinbox]; simp)
    obtain ⟨hsettled, hwaiting, hcalls⟩ := hnow (.ok a) hw
    refine ⟨hsettled, hwaiting, hcalls, ?_, .inr hw, fun _ => hw⟩
    show List.filterMap value? (m.outcomes ++ [(m.recvs, .ok a)]) ++ as = pushed
    rw [List.filterMap_append, ← h.handed, hinbox, List.append_assoc]
    rfl
  · rename_i hinbox
    split
    · rename_i e hf
      have hw : m.waiters = [] := h.failed (by rw [hf]; simp)
      obtain ⟨hsettled, hwaiting, hcalls⟩ := hnow (.error e) hw
      refine ⟨hsettled, hwaiting, hcalls, ?_, .inr hw, fun _ => hw⟩
      show List.filterMap value? (m.outcomes ++ [(m.recvs, .error e)]) ++ m.inbox = pushed
      rw [List.filterMap_append, ← h.handed]
      exact congrArg (· ++ m.inbox) (List.append_nil _)
    · rename_i hf
      refine ⟨h.settled, ?_, h.calls.trans (Nat.le_succ _), h.handed, .inl hinbox, fun hne => absurd hf hne⟩
      show m.waiters ++ [m.recvs] = List.range' m.outcomes.length (m.recvs + 1 - m.outcomes.length)
      rw [Nat.sub_add_comm h.calls, List.range'_1_concat, ← h.waiting, Nat.add_sub_cancel' h.calls]

theorem Fifo.fail (h : Fifo pushed m) (e : ε) : Fifo pushed (m.fail e) := by
  have hwaiters : m.waiters.length = m.recvs - m.outcomes.length := by
    rw [h.waiting, List.length_range']
  have hlen : (m.outcomes ++ rejections m.waiters e).length = m.recvs := by
    have hrej := congrArg List.length (rejections_fst (α := α) m.waiters e)
    rw [List.length_map] at hrej
    rw [List.length_append, hrej, hwaiters, Nat.add_sub_cancel' h.calls]
  refine ⟨?_, ?_, hlen.le, ?_, .inr rfl, fun _ => rfl⟩
  · show List.map Prod.fst (m.outcomes ++ rejections m.waiters e) = List.range (m.outcomes ++ _).length
    rw [List.map_append, rejections_fst, h.settled, hlen, h.waiting, List.range_eq_range',
      List.range_eq_range']
    have happend := List.range'_append_1 (s := 0) (m := m.outcomes.length) (n := m.recvs - m.outcomes.length)
    rwa [Nat.zero_add, Nat.add_sub_cancel' h.calls] at happend
  · show [] = List.range' (m.outcomes ++ rejections m.waiters e).length (m.recvs - (m.outcomes ++ _).length)
    rw [hlen, Nat.sub_self]
    rfl
  · show List.filterMap value? (m.outcomes ++ rejections m.waiters e) ++ m.inbox = pushed
    rw [List.filterMap_append, rejections_value?, List.append_nil]
    exact h.handed

theorem Fifo.step (h : Fifo pushed m) (event : Event α ε) :
    Fifo (pushed ++ event.pushed?.toList) (m.step event) := by
  cases event with
  | push a => exact h.push a
  | recv => exact (List.append_nil pushed).symm ▸ h.recv
  | fail e => exact (List.append_nil pushed).symm ▸ h.fail e

/-! ### Runs -/

theorem pushes_concat (events : List (Event α ε)) (event : Event α ε) :
    pushes (events ++ [event]) = pushes events ++ event.pushed?.toList := by
  unfold pushes
  rw [List.filterMap_append]
  cases event <;> rfl

/-- **First in, first out.** -/
theorem run_fifo (events : List (Event α ε)) : Fifo (pushes events) (run step ({} : Mailbox α ε) events) := by
  induction events using List.reverseRecOn with
  | nil => exact fifo_init
  | append_singleton events event ih =>
    rw [run_concat, pushes_concat]
    exact ih.step event

theorem push_failure (m : Mailbox α ε) (a : α) : (m.push a).failure = m.failure := by
  unfold push
  split <;> rfl

theorem recv_failure (m : Mailbox α ε) : m.recv.failure = m.failure := by
  unfold recv
  split
  · rfl
  · split <;> rfl

/-- A failure is there only after one has happened. -/
theorem run_failure {events : List (Event α ε)} (hf : (run step ({} : Mailbox α ε) events).failure ≠ none) :
    ∃ e, Event.fail e ∈ events := by
  induction events using List.reverseRecOn with
  | nil => exact absurd rfl hf
  | append_singleton events event ih =>
    rw [run_concat] at hf
    have hlater : (∃ e, Event.fail e ∈ events) → ∃ e, Event.fail e ∈ events ++ [event] :=
      fun ⟨e, he⟩ => ⟨e, List.mem_append_left _ he⟩
    cases event with
    | push a => exact hlater (ih (push_failure _ a ▸ hf))
    | recv => exact hlater (ih (recv_failure _ ▸ hf))
    | fail e => exact ⟨e, by simp⟩

/-- What is rejected is rejected with a failure, and when nothing is left. -/
theorem rejects_step (h : Fifo pushed m) {event : Event α ε} (hr : m.Rejects event) :
    m.inbox = [] ∧ (m.step event).failure ≠ none := by
  obtain ⟨n, e, hnew, hold⟩ := hr
  cases event with
  | push a =>
    change (n, Except.error e) ∈ (m.push a).outcomes at hnew
    unfold push at hnew
    split at hnew
    · rcases List.mem_append.mp hnew with hmem | hmem
      · exact absurd hmem hold
      · cases List.mem_singleton.mp hmem
    · exact absurd hnew hold
  | recv =>
    change (n, Except.error e) ∈ m.recv.outcomes at hnew
    rw [show (m.step .recv).failure = m.failure from recv_failure m]
    unfold recv at hnew
    split at hnew
    · rcases List.mem_append.mp hnew with hmem | hmem
      · exact absurd hmem hold
      · cases List.mem_singleton.mp hmem
    · rename_i hinbox
      split at hnew
      · rename_i e' hf
        exact ⟨hinbox, by rw [hf]; simp⟩
      · exact absurd hnew hold
  | fail e' =>
    refine ⟨?_, by simp [step, fail]⟩
    rcases h.one with hinbox | hw
    · exact hinbox
    · change (n, Except.error e) ∈ m.outcomes ++ rejections m.waiters e' at hnew
      rw [hw] at hnew
      exact absurd (by simpa [rejections] using hnew) hold

/-- **A call is rejected only after a failure, and when everything that was pushed has been handed out.** -/
theorem run_rejects {pre : List (Event α ε)} {event : Event α ε}
    (hr : (run step ({} : Mailbox α ε) pre).Rejects event) :
    (∃ e, Event.fail e ∈ pre ++ [event]) ∧ (run step ({} : Mailbox α ε) pre).received = pushes pre := by
  obtain ⟨hinbox, hf⟩ := rejects_step (run_fifo pre) hr
  constructor
  · exact run_failure (by rw [run_concat]; exact hf)
  · have hhanded := (run_fifo pre).handed
    rwa [hinbox, List.append_nil] at hhanded

/-! ### Machines with a queue -/

section Machine

variable {σ ι : Type} (step' : σ → ι → σ) (box : σ → Mailbox α ε) (event? : ι → Option (Event α ε))

/-- The queue in the state of a machine changes by the events that its inputs are for it. -/
def Carries : Prop :=
  ∀ s i, box (step' s i) = match event? i with
    | some event => (box s).step event
    | none => box s

/-- What holds of the queue after the run `is`, and of each step of it. -/
structure FifoRun (s : σ) (is : List ι) : Prop where
  fifo : Fifo (pushes (is.filterMap event?)) (box (run step' s is))
  rejects : ∀ pre i post, is = pre ++ i :: post → ∀ n e,
    (n, .error e) ∈ (box (run step' s (pre ++ [i]))).outcomes →
    (n, .error e) ∉ (box (run step' s pre)).outcomes →
    (∃ e', Event.fail e' ∈ (pre ++ [i]).filterMap event?) ∧
      (box (run step' s pre)).received = pushes (pre.filterMap event?)

variable {step' box event?}

theorem Carries.run_eq (h : Carries step' box event?) (s : σ) (is : List ι) :
    box (run step' s is) = run step (box s) (is.filterMap event?) := by
  induction is generalizing s with
  | nil => rfl
  | cons i is ih =>
    rw [run_cons, ih, h s i]
    cases hi : event? i with
    | none => rw [List.filterMap_cons_none hi]
    | some event => rw [List.filterMap_cons_some hi, run_cons]

/-- **The queue of a machine.** -/
theorem Carries.fifo (h : Carries step' box event?) {s : σ} (h0 : box s = {}) (is : List ι) :
    FifoRun step' box event? s is where
  fifo := by
    rw [h.run_eq, h0]
    exact run_fifo _
  rejects := by
    intro pre i post _ n e hnew hold
    rw [h.run_eq, h0, List.filterMap_append] at hnew
    rw [h.run_eq, h0] at hold ⊢
    cases hi : event? i with
    | none =>
      rw [List.filterMap_cons_none hi, List.filterMap_nil, List.append_nil] at hnew
      exact absurd hnew hold
    | some event =>
      rw [List.filterMap_append]
      rw [List.filterMap_cons_some hi, List.filterMap_nil] at hnew ⊢
      rw [run_concat] at hnew
      exact run_rejects ⟨n, e, hnew, hold⟩

end Machine

end Mailbox

end ConsensusNode.Lib
