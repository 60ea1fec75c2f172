import ConsensusNode.Lib.Files

/-! # Programs on files that may be stopped at any point

A program of one process, written in sequence: it has returned, or thrown, or makes one operation on the
files and goes on with the answer. It is a machine in the sense of `Lib.Files`, so it can run for any
number of steps and stop there. Along the way it is watched: `see` adds each operation to a history of
any type.

`Meets C Q p h d` says what the program `p` does from the history `h` and the disk `d`: if it returns, its
result, the history and the disk meet `Q`; and wherever it is stopped before that, or throws, the history,
the operation it would make next and the disk meet `C`.

* `meets_bind`: the rule for sequences.
* `Meets.alone`: `Meets` holds on after any number of steps.
* `Spares q p`: no operation of `p` changes the file `q` (`Spares.meets`).
* `eval p d`: the end of `p`, if no other process runs (`goes_eval`); `eval_bind` is its rule for sequences.
* `mapFiles f p`: the program `p` on files with other names, for a process that shares some of its files
  with other ones. -/

namespace ConsensusNode.Lib

variable {κ β ε χ ρ τ : Type} [DecidableEq κ]

/-- A program. `χ` is the type of what it throws. -/
inductive FileProg (κ β ε χ ρ : Type) where
  | ret (r : ρ)
  | thrown (e : χ)
  | op (o : FsOp κ β) (k : FsAns β ε → FileProg κ β ε χ ρ)

/-- The operation changes the file. -/
def FsOp.changes (q : κ) : FsOp κ β → Bool
  | .truncate p => p = q
  | .write p _ => p = q
  | .rename p p' => p = q || p' = q
  | _ => false

/-- The operation on files with other names. -/
def FsOp.map {κ' : Type} (f : κ → κ') : FsOp κ β → FsOp κ' β
  | .mkdir p => .mkdir (f p)
  | .access p => .access (f p)
  | .read p => .read (f p)
  | .truncate p => .truncate (f p)
  | .write p b => .write (f p) b
  | .rename p q => .rename (f p) (f q)

theorem exec_of_not_changes {empty : β} {deny : FsOp κ β → Option ε} {d : Disk κ β} {o : FsOp κ β} {q : κ}
    (h : o.changes q = false) : (exec empty deny d o).2 q = d q := by
  unfold exec
  split
  · rfl
  · rcases o with p | p | p | p | ⟨p, b⟩ | ⟨p, p'⟩
    · rfl
    · rfl
    · rfl
    · have hp : p ≠ q := by simpa [FsOp.changes] using h
      simp [hp.symm]
    · have hp : p ≠ q := by simpa [FsOp.changes] using h
      simp [hp.symm]
    · have hp : p ≠ q ∧ p' ≠ q := by simpa [FsOp.changes] using h
      simp only
      split
      · simp [hp.1.symm, hp.2.symm]
      · rfl

namespace FileProg

def bind (p : FileProg κ β ε χ ρ) (f : ρ → FileProg κ β ε χ τ) : FileProg κ β ε χ τ :=
  match p with
  | .ret r => f r
  | .thrown e => .thrown e
  | .op o k => .op o fun a => (k a).bind f

instance : Monad (FileProg κ β ε χ) where
  pure := .ret
  bind := .bind

/-- One operation, with its answer. -/
def call (o : FsOp κ β) : FileProg κ β ε χ (FsAns β ε) := .op o .ret

/-- The outcome of a computation without operations. -/
def ofExcept : Except χ ρ → FileProg κ β ε χ ρ
  | .ok r => .ret r
  | .error e => .thrown e

def next : FileProg κ β ε χ ρ → Option (FsOp κ β)
  | .op o _ => some o
  | _ => none

def resume : FileProg κ β ε χ ρ → FsAns β ε → FileProg κ β ε χ ρ
  | .op _ k, a => k a
  | p, _ => p

def machine : Machine κ β ε (FileProg κ β ε χ ρ) := ⟨next, resume⟩

/-- What the program has returned. -/
def result? : FileProg κ β ε χ ρ → Option ρ
  | .ret r => some r
  | _ => none

section Meets

variable {η : Type} (empty : β) (deny : FsOp κ β → Option ε) (see : η → FsOp κ β → η)

def Meets (C : η → Option (FsOp κ β) → Disk κ β → Prop) (Q : ρ → η → Disk κ β → Prop) :
    FileProg κ β ε χ ρ → η → Disk κ β → Prop
  | .ret r, h, d => Q r h d
  | .thrown _, h, d => C h none d
  | .op o k, h, d => C h (some o) d ∧
      Meets C Q (k (exec empty deny d o).1) (see h o) (exec empty deny d o).2

/-- The history after the first `n` operations. -/
def history : ℕ → FileProg κ β ε χ ρ × Disk κ β → η → η
  | 0, _, h => h
  | n + 1, s, h => history n (machine.tick empty deny s) (match s.1.next with | some o => see h o | none => h)

variable {empty deny see} {C C' : η → Option (FsOp κ β) → Disk κ β → Prop}
  {Q Q' : ρ → η → Disk κ β → Prop} {h : η} {d : Disk κ β}

theorem meets_bind {R : τ → η → Disk κ β → Prop} (f : ρ → FileProg κ β ε χ τ) :
    ∀ (p : FileProg κ β ε χ ρ) (h : η) (d : Disk κ β), Meets empty deny see C R (p >>= f) h d ↔
      Meets empty deny see C (fun r => Meets empty deny see C R (f r)) p h d
  | .ret _, _, _ => Iff.rfl
  | .thrown _, _, _ => Iff.rfl
  | .op _ k, _, _ => and_congr Iff.rfl (meets_bind f (k _) _ _)

theorem meets_ofExcept {x : Except χ ρ} (hC : C h none d) (hQ : ∀ r, x = .ok r → Q r h d) :
    Meets empty deny see C Q (ofExcept x) h d := by
  rcases x with e | r
  · exact hC
  · exact hQ r rfl

theorem Meets.mono (hC : ∀ h o d, C h o d → C' h o d) (hQ : ∀ r h d, Q r h d → Q' r h d) :
    ∀ {p : FileProg κ β ε χ ρ} {h : η} {d : Disk κ β}, Meets empty deny see C Q p h d →
      Meets empty deny see C' Q' p h d
  | .ret _, _, _, hp => hQ _ _ _ hp
  | .thrown _, _, _, hp => hC _ _ _ hp
  | .op _ _, _, _, hp => ⟨hC _ _ _ hp.1, Meets.mono hC hQ hp.2⟩

theorem Meets.alone : ∀ (n : ℕ) {p : FileProg κ β ε χ ρ} {h : η} {d : Disk κ β},
    Meets empty deny see C Q p h d →
      Meets empty deny see C Q (machine.alone empty deny n (p, d)).1
        (history empty deny see n (p, d) h) (machine.alone empty deny n (p, d)).2
  | 0, _, _, _, hp => hp
  | n + 1, .ret _, _, _, hp => Meets.alone n hp
  | n + 1, .thrown _, _, _, hp => Meets.alone n hp
  | n + 1, .op _ _, _, _, hp => Meets.alone n hp.2

/-- A program that has not returned meets the condition for its next operation. -/
theorem Meets.stopped {p : FileProg κ β ε χ ρ} (hp : Meets empty deny see C Q p h d)
    (hnone : p.result? = none) : C h p.next d := by
  rcases p with r | e | ⟨o, k⟩
  · cases hnone
  · exact hp
  · exact hp.1

theorem Meets.returned {p : FileProg κ β ε χ ρ} {r : ρ} (hp : Meets empty deny see C Q p h d)
    (hsome : p.result? = some r) : Q r h d := by
  rcases p with r' | e | ⟨o, k⟩
  · cases hsome
    exact hp
  · cases hsome
  · cases hsome

end Meets

section Spares

/-- Whatever the answers, no operation of the program changes the file. -/
def Spares (q : κ) : FileProg κ β ε χ ρ → Prop
  | .op o k => o.changes q = false ∧ ∀ a, Spares q (k a)
  | _ => True

variable {q : κ}

theorem Spares.bind {f : ρ → FileProg κ β ε χ τ} (hf : ∀ r, Spares q (f r)) :
    ∀ {p : FileProg κ β ε χ ρ}, Spares q p → Spares q (p >>= f)
  | .ret _, _ => hf _
  | .thrown _, _ => trivial
  | .op _ _, h => ⟨h.1, fun a => Spares.bind hf (h.2 a)⟩

theorem spares_call {o : FsOp κ β} (h : o.changes q = false) :
    Spares q (call o : FileProg κ β ε χ (FsAns β ε)) := ⟨h, fun _ => trivial⟩

theorem spares_ofExcept (x : Except χ ρ) : Spares q (ofExcept x : FileProg κ β ε χ ρ) := by
  cases x <;> trivial

/-- The file stays as it is, and so does a history that only sees changes of this file. -/
theorem Spares.meets {η : Type} {empty : β} {deny : FsOp κ β → Option ε} {see : η → FsOp κ β → η} {h : η}
    {content : Option β} (hsee : ∀ o, o.changes q = false → see h o = h) :
    ∀ {p : FileProg κ β ε χ ρ} {d : Disk κ β}, Spares q p → d q = content →
      Meets empty deny see (fun h' _ d' => h' = h ∧ d' q = content)
        (fun _ h' d' => h' = h ∧ d' q = content) p h d
  | .ret _, _, _, hd => ⟨rfl, hd⟩
  | .thrown _, _, _, hd => ⟨rfl, hd⟩
  | .op o _, _, hp, hd => by
    refine ⟨⟨rfl, hd⟩, ?_⟩
    rw [hsee o hp.1]
    exact Spares.meets hsee (hp.2 _) ((exec_of_not_changes hp.1).trans hd)

theorem Spares.resume {p : FileProg κ β ε χ ρ} (h : Spares q p) (a : FsAns β ε) : Spares q (p.resume a) := by
  rcases p with r | e | ⟨o, k⟩
  · exact h
  · exact h
  · exact h.2 a

/-- A program that has ended changes nothing. -/
theorem spares_of_ended {p : FileProg κ β ε χ ρ} (h : p.next = none) : Spares q p := by
  rcases p with r | e | ⟨o, k⟩
  · trivial
  · trivial
  · cases h

/-- A step of the program leaves the file alone. -/
theorem Spares.tick {empty : β} {deny : FsOp κ β → Option ε} {p : FileProg κ β ε χ ρ} (h : Spares q p)
    (d : Disk κ β) : (machine.tick empty deny (p, d)).2 q = d q := by
  rcases p with r | e | ⟨o, k⟩
  · rfl
  · rfl
  · exact exec_of_not_changes h.1

end Spares

section MapFiles

variable {κ' : Type} (f : κ → κ')

def mapFiles : FileProg κ β ε χ ρ → FileProg κ' β ε χ ρ
  | .ret r => .ret r
  | .thrown e => .thrown e
  | .op o k => .op (o.map f) fun a => mapFiles (k a)

omit [DecidableEq κ] in
/-- A file that none of the files of the program is mapped to is left alone. -/
theorem spares_mapFiles [DecidableEq κ'] {q : κ'} (hq : ∀ x, f x ≠ q) :
    ∀ p : FileProg κ β ε χ ρ, Spares q (p.mapFiles f)
  | .ret _ => trivial
  | .thrown _ => trivial
  | .op o k => by
    refine ⟨?_, fun a => spares_mapFiles hq (k a)⟩
    cases o <;> simp [FsOp.map, FsOp.changes, hq]

end MapFiles

section Eval

variable (empty : β) (deny : FsOp κ β → Option ε)

/-- A program that runs to its end without other processes: its outcome and the disk it leaves. -/
def eval : FileProg κ β ε χ ρ → Disk κ β → Except χ ρ × Disk κ β
  | .ret r, d => (.ok r, d)
  | .thrown e, d => (.error e, d)
  | .op o k, d => eval (k (exec empty deny d o).1) (exec empty deny d o).2

variable {empty deny}

/-- The machine comes to that end. -/
theorem goes_eval : ∀ (p : FileProg κ β ε χ ρ) (d : Disk κ β), (machine (β := β) (ε := ε)).Goes empty deny (p, d)
    (ofExcept (eval empty deny p d).1, (eval empty deny p d).2)
  | .ret _, _ => ⟨0, rfl⟩
  | .thrown _, _ => ⟨0, rfl⟩
  | .op o k, d => by
    obtain ⟨n, hn⟩ := goes_eval (k (exec empty deny d o).1) (exec empty deny d o).2
    exact ⟨n + 1, hn⟩

theorem eval_bind (f : ρ → FileProg κ β ε χ τ) : ∀ (p : FileProg κ β ε χ ρ) (d : Disk κ β),
    eval empty deny (p >>= f) d = match eval empty deny p d with
      | (.ok r, d') => eval empty deny (f r) d'
      | (.error e, d') => (.error e, d')
  | .ret _, _ => rfl
  | .thrown _, _ => rfl
  | .op _ k, _ => eval_bind f (k _) _

theorem eval_bind_ok {p : FileProg κ β ε χ ρ} {d d' : Disk κ β} {r : ρ} (h : eval empty deny p d = (.ok r, d'))
    (f : ρ → FileProg κ β ε χ τ) : eval empty deny (p >>= f) d = eval empty deny (f r) d' := by
  rw [eval_bind, h]

theorem eval_bind_error {p : FileProg κ β ε χ ρ} {d d' : Disk κ β} {e : χ}
    (h : eval empty deny p d = (.error e, d')) (f : ρ → FileProg κ β ε χ τ) :
    eval empty deny (p >>= f) d = (.error e, d') := by
  rw [eval_bind, h]

theorem eval_bind_eq_ok {p : FileProg κ β ε χ ρ} {f : ρ → FileProg κ β ε χ τ} {d d' : Disk κ β} {t : τ}
    (h : eval empty deny (p >>= f) d = (.ok t, d')) :
    ∃ r d₁, eval empty deny p d = (.ok r, d₁) ∧ eval empty deny (f r) d₁ = (.ok t, d') := by
  rw [eval_bind] at h
  rcases hp : eval empty deny p d with ⟨e | r, d₁⟩
  · rw [hp] at h
    cases h
  · rw [hp] at h
    exact ⟨r, d₁, rfl, h⟩

@[simp] theorem eval_ofExcept (x : Except χ ρ) (d : Disk κ β) : eval empty deny (ofExcept x) d = (x, d) := by
  cases x <;> rfl

end Eval

end FileProg

end ConsensusNode.Lib
