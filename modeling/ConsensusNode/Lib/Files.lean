import Mathlib.Data.Nat.Notation
import Mathlib.Logic.Function.Basic

/-! # Processes that share files

A file system of named files, the operations of a process on it, each of them one atomic step, and the
interleaving of processes. A process is a machine: its state says which operation comes next (`next`),
and the answer takes it to the next state (`resume`). Replacing a file with `truncate` and `write` are
two steps; a process may stop between any two.

* `exec`: one operation. `deny` says which operations the system refuses.
* `World.step`: one process makes its next step.
* `alone`: a process that runs without others. -/

namespace ConsensusNode.Lib

universe u v w

/-- The files that exist, with their contents. -/
abbrev Disk (κ : Type u) (β : Type v) := κ → Option β

/-- One step of a process. -/
inductive FsOp (κ : Type u) (β : Type v) where
  /-- Create a directory, or find that it exists. -/
  | mkdir (p : κ)
  | access (p : κ)
  | read (p : κ)
  | truncate (p : κ)
  | write (p : κ) (b : β)
  | rename (p q : κ)

/-- The answer to one operation. -/
inductive FsAns (β : Type v) (ε : Type w) where
  | done
  | data (b : β)
  | absent
  | denied (code : ε)

section Exec

variable {κ : Type u} {β : Type v} {ε : Type w} [DecidableEq κ]

/-- One operation; a refused one changes nothing. `empty` is what a truncated file holds. -/
def exec (empty : β) (deny : FsOp κ β → Option ε) (d : Disk κ β) (o : FsOp κ β) :
    FsAns β ε × Disk κ β :=
  match deny o with
  | some code => (.denied code, d)
  | none =>
    match o with
    | .mkdir _ => (.done, d)
    | .access p => (if (d p).isSome then .done else .absent, d)
    | .read p => (match d p with | some b => .data b | none => .absent, d)
    | .truncate p => (.done, Function.update d p (some empty))
    | .write p b => (.done, Function.update d p (some b))
    | .rename p q =>
      match d p with
      | some b => (.done, Function.update (Function.update d p none) q (some b))
      | none => (.absent, d)

variable {empty : β} {deny : FsOp κ β → Option ε} {d : Disk κ β}

theorem exec_denied {o : FsOp κ β} {code : ε} (h : deny o = some code) :
    exec empty deny d o = (.denied code, d) := by
  simp only [exec, h]

/-- Operations that only look. -/
def FsOp.Looks : FsOp κ β → Prop
  | .mkdir _ | .access _ | .read _ => True
  | _ => False

theorem exec_looks {o : FsOp κ β} (h : o.Looks) : (exec empty deny d o).2 = d := by
  unfold exec
  split
  · rfl
  · cases o <;> first | rfl | cases h

theorem exec_mkdir {p : κ} (h : deny (.mkdir p) = none) : exec empty deny d (.mkdir p) = (.done, d) := by
  simp only [exec, h]

theorem exec_access {p : κ} (h : deny (.access p) = none) :
    exec empty deny d (.access p) = (if (d p).isSome then .done else .absent, d) := by
  simp only [exec, h]

theorem exec_truncate {p : κ} (h : deny (.truncate p) = none) :
    exec empty deny d (.truncate p) = (.done, Function.update d p (some empty)) := by
  simp only [exec, h]

theorem exec_write {p : κ} {b : β} (h : deny (.write p b) = none) :
    exec empty deny d (.write p b) = (.done, Function.update d p (some b)) := by
  simp only [exec, h]

theorem exec_rename {p q : κ} {b : β} (h : deny (.rename p q) = none) (hb : d p = some b) :
    exec empty deny d (.rename p q) =
      (.done, Function.update (Function.update d p none) q (some b)) := by
  simp only [exec, h, hb]

theorem exec_read {p : κ} (h : deny (.read p) = none) :
    exec empty deny d (.read p) = (match d p with | some b => .data b | none => .absent, d) := by
  rcases hb : d p with _ | b
  · simp [exec, h, hb]
  · simp [exec, h, hb]

theorem exec_write_done {p : κ} {b : β} (h : (exec empty deny d (.write p b)).1 = .done) :
    (exec empty deny d (.write p b)).2 p = some b := by
  rcases hdeny : deny (.write p b) with _ | code
  · simp [exec, hdeny]
  · simp [exec, hdeny] at h

theorem exec_rename_done {p q : κ} {b : β} (hb : d p = some b) (h : (exec empty deny d (.rename p q)).1 = .done) :
    (exec empty deny d (.rename p q)).2 q = some b := by
  rcases hdeny : deny (.rename p q) with _ | code
  · simp [exec, hdeny, hb]
  · simp [exec, hdeny] at h

/-- A rename that fails changes nothing. -/
theorem exec_rename_fails {p q : κ} (h : (exec empty deny d (.rename p q)).1 ≠ .done) :
    (exec empty deny d (.rename p q)).2 = d := by
  rcases hdeny : deny (.rename p q) with _ | code
  · rcases hb : d p with _ | b
    · simp [exec, hdeny, hb]
    · simp [exec, hdeny, hb] at h
  · simp [exec, hdeny]

end Exec

/-- A process: the next operation, `none` when it has finished, and what the answer does. -/
structure Machine (κ : Type u) (β : Type v) (ε : Type w) (σ : Type*) where
  next : σ → Option (FsOp κ β)
  resume : σ → FsAns β ε → σ

section Run

variable {κ : Type u} {β : Type v} {ε : Type w} {σ : Type*} [DecidableEq κ]
  (m : Machine κ β ε σ) (empty : β) (deny : FsOp κ β → Option ε)

/-- One step of a process on a disk. -/
def Machine.tick (s : σ × Disk κ β) : σ × Disk κ β :=
  match m.next s.1 with
  | none => s
  | some o => (m.resume s.1 (exec empty deny s.2 o).1, (exec empty deny s.2 o).2)

/-- A process that runs alone, for at most so many steps. -/
def Machine.alone : ℕ → σ × Disk κ β → σ × Disk κ β
  | 0, s => s
  | n + 1, s => Machine.alone n (m.tick empty deny s)

theorem Machine.tick_some {s : σ × Disk κ β} {o : FsOp κ β} (h : m.next s.1 = some o) :
    m.tick empty deny s = (m.resume s.1 (exec empty deny s.2 o).1, (exec empty deny s.2 o).2) := by
  simp only [Machine.tick, h]

theorem Machine.alone_done {s : σ × Disk κ β} (h : m.next s.1 = none) :
    ∀ n, m.alone empty deny n s = s
  | 0 => rfl
  | n + 1 => by
    have htick : m.tick empty deny s = s := by simp only [Machine.tick, h]
    rw [Machine.alone, htick, Machine.alone_done h n]

theorem Machine.alone_add (k : ℕ) : ∀ (n : ℕ) (s : σ × Disk κ β),
    m.alone empty deny (n + k) s = m.alone empty deny k (m.alone empty deny n s)
  | 0, s => by rw [Nat.zero_add, Machine.alone]
  | n + 1, s => by rw [Nat.succ_add, Machine.alone, Machine.alone, Machine.alone_add k n]

/-- What a process keeps in every step it keeps alone. -/
theorem Machine.alone_induct {P : σ × Disk κ β → Prop} (hP : ∀ s, P s → P (m.tick empty deny s)) :
    ∀ (n : ℕ) {s : σ × Disk κ β}, P s → P (m.alone empty deny n s)
  | 0, _, h => h
  | n + 1, _, h => Machine.alone_induct hP n (hP _ h)

/-- A process comes to `s'`. -/
def Machine.Goes (s s' : σ × Disk κ β) : Prop := ∃ n, m.alone empty deny n s = s'

variable {m empty deny}

theorem Machine.Goes.refl (s : σ × Disk κ β) : m.Goes empty deny s s := ⟨0, rfl⟩

theorem Machine.Goes.tail {s s₁ s₂ : σ × Disk κ β} (h : m.Goes empty deny s s₁)
    (ht : m.tick empty deny s₁ = s₂) : m.Goes empty deny s s₂ := by
  obtain ⟨n, hn⟩ := h
  refine ⟨n + 1, ?_⟩
  rw [Machine.alone_add, hn, ← ht]
  rfl

/-- A process that has ended has ended where it comes to an end. -/
theorem Machine.Goes.unique {s s' : σ × Disk κ β} (h : m.Goes empty deny s s') (hs' : m.next s'.1 = none)
    {n : ℕ} (hn : m.next (m.alone empty deny n s).1 = none) : m.alone empty deny n s = s' := by
  obtain ⟨k, rfl⟩ := h
  have h1 := Machine.alone_done m empty deny hs' n
  have h2 := Machine.alone_done m empty deny hn k
  rw [← Machine.alone_add] at h1 h2
  rw [Nat.add_comm k n] at h1
  rw [← h1, ← h2]

/-- What holds on the way and is kept holds at the end. -/
theorem Machine.Goes.keeps {P : σ × Disk κ β → Prop} (hP : ∀ s, P s → P (m.tick empty deny s))
    {s s' : σ × Disk κ β} (h : m.Goes empty deny s s') (hs' : P s') {n : ℕ}
    (hn : m.next (m.alone empty deny n s).1 = none) : P (m.alone empty deny n s) := by
  obtain ⟨k, rfl⟩ := h
  have h1 := Machine.alone_induct m empty deny hP n hs'
  have h2 := Machine.alone_done m empty deny hn k
  rw [← Machine.alone_add] at h1 h2
  rw [Nat.add_comm k n] at h1
  rw [h2] at h1
  exact h1

variable (m empty deny)

variable {ι : Type*} [DecidableEq ι]

/-- The disk and the processes. -/
structure World (κ : Type u) (β : Type v) (ι : Type*) (σ : Type*) where
  disk : Disk κ β
  procs : ι → σ

namespace World

/-- One process makes a step. -/
def step (w : World κ β ι σ) (i : ι) : World κ β ι σ :=
  let s := m.tick empty deny (w.procs i, w.disk)
  { disk := s.2, procs := Function.update w.procs i s.1 }

/-- One process is put into a state: it starts, or it is stopped. -/
def setProc (w : World κ β ι σ) (i : ι) (s : σ) : World κ β ι σ :=
  { w with procs := Function.update w.procs i s }

variable {m empty deny} {w : World κ β ι σ} {i : ι}

theorem step_of_next {o : FsOp κ β} (h : m.next (w.procs i) = some o) : w.step m empty deny i =
    ⟨(exec empty deny w.disk o).2,
      Function.update w.procs i (m.resume (w.procs i) (exec empty deny w.disk o).1)⟩ := by
  unfold step
  rw [Machine.tick_some m empty deny (s := (w.procs i, w.disk)) h]

theorem step_of_looks {o : FsOp κ β} (h : m.next (w.procs i) = some o) (ho : o.Looks) :
    w.step m empty deny i =
      w.setProc i (m.resume (w.procs i) (exec empty deny w.disk o).1) := by
  have hlook : (exec empty deny w.disk o).2 = w.disk := exec_looks ho
  rw [step_of_next h, hlook]
  rfl

theorem step_of_done (h : m.next (w.procs i) = none) : w.step m empty deny i = w := by
  simp [step, Machine.tick, h]

end World

end Run

end ConsensusNode.Lib
