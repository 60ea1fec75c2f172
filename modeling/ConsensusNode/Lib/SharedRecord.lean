import ConsensusNode.Lib.Run
import Mathlib.Data.Fintype.Defs
import Mathlib.Logic.Function.Basic

/-! # Programs that share a record

A record gives every field a value, a patch gives some fields new values. A program loads the whole record,
asks questions and waits for the answers, and saves a record it holds with a patch applied. Programs take their
steps in any order, and a save writes the whole record.

* `Extends r p`: each save of `p` extends the record that `p` has loaded or saved last, `r` to begin with.
* `UpToDate`: the save that comes next is of a program that has loaded or saved since any other one saved.
* `record_eq`: if every save is up to date, the record is the one at the start with all patches in their order.
* `contains_patches`: then no update is lost, unless programs patch the same field.
* `exec_keeps`: what a program that runs alone leaves as it was. -/

namespace ConsensusNode.Lib.SharedRecord

open Lib.Run

/-- The record with the values of the patch. -/
def patched {F V : Type} (r : F → V) (p : F → Option V) : F → V := fun f => (p f).getD (r f)

/-- A program. `Q` are the questions, `A q` the answers to `q`, `χ` is the type of what it throws. -/
inductive RecordProg (F V Q : Type) (A : Q → Type) (χ ρ : Type) where
  | ret (r : ρ)
  | thrown (e : χ)
  | load (k : (F → V) → RecordProg F V Q A χ ρ)
  /-- Save the record with the patch, and go on with what was saved. -/
  | save (record : F → V) (patch : F → Option V) (k : (F → V) → RecordProg F V Q A χ ρ)
  | ask (q : Q) (k : A q → RecordProg F V Q A χ ρ)

namespace RecordProg

variable {F V Q : Type} {A : Q → Type} {χ ρ τ : Type}

def bind (p : RecordProg F V Q A χ ρ) (f : ρ → RecordProg F V Q A χ τ) : RecordProg F V Q A χ τ :=
  match p with
  | .ret r => f r
  | .thrown e => .thrown e
  | .load k => .load fun r => (k r).bind f
  | .save record patch k => .save record patch fun r => (k r).bind f
  | .ask q k => .ask q fun a => (k a).bind f

instance : Monad (RecordProg F V Q A χ) where
  pure := .ret
  bind := .bind

/-- The record, as it is now. -/
def current : RecordProg F V Q A χ (F → V) := .load .ret

def remember (record : F → V) (patch : F → Option V) : RecordProg F V Q A χ (F → V) := .save record patch .ret

def answer (q : Q) : RecordProg F V Q A χ (A q) := .ask q .ret

/-- Whatever the answers, each save extends the record that was loaded or saved last. -/
def Extends : Option (F → V) → RecordProg F V Q A χ ρ → Prop
  | _, .load k => ∀ r, Extends (some r) (k r)
  | held, .save record patch k => held = some record ∧ Extends (some (patched record patch)) (k (patched record patch))
  | held, .ask _ k => ∀ a, Extends held (k a)
  | _, _ => True

/-- A program that only asks. -/
def Asks : RecordProg F V Q A χ ρ → Prop
  | .load _ => False
  | .save _ _ _ => False
  | .ask _ k => ∀ a, Asks (k a)
  | _ => True

theorem Asks.extends_bind {f : ρ → RecordProg F V Q A χ τ} {held : Option (F → V)} (hf : ∀ r, Extends held (f r)) :
    ∀ {p : RecordProg F V Q A χ ρ}, Asks p → Extends held (p >>= f)
  | .ret _, _ => hf _
  | .thrown _, _ => trivial
  | .ask _ _, h => fun a => Asks.extends_bind hf (h a)

section Rules

variable {held : Option (F → V)}

theorem extends_current {f : (F → V) → RecordProg F V Q A χ τ} (hf : ∀ r, Extends (some r) (f r)) :
    Extends held (current >>= f) := hf

/-- The save of a record that is held. -/
theorem extends_remember {record : F → V} {patch : F → Option V} {f : (F → V) → RecordProg F V Q A χ τ}
    (hf : Extends (some (patched record patch)) (f (patched record patch))) :
    Extends (some record) (remember record patch >>= f) := ⟨rfl, hf⟩

theorem extends_answer {q : Q} {f : A q → RecordProg F V Q A χ τ} (hf : ∀ a, Extends held (f a)) :
    Extends held (answer q >>= f) := hf

end Rules

/-- Whatever the answers, each question meets `okQ` and each patch that is saved meets `okP`. -/
def Within (okQ : Q → Prop) (okP : (F → Option V) → Prop) : RecordProg F V Q A χ ρ → Prop
  | .load k => ∀ r, Within okQ okP (k r)
  | .save _ patch k => okP patch ∧ ∀ r, Within okQ okP (k r)
  | .ask q k => okQ q ∧ ∀ a, Within okQ okP (k a)
  | _ => True

theorem Within.bind {okQ : Q → Prop} {okP : (F → Option V) → Prop} {f : ρ → RecordProg F V Q A χ τ}
    (hf : ∀ r, Within okQ okP (f r)) : ∀ {p : RecordProg F V Q A χ ρ}, Within okQ okP p → Within okQ okP (p >>= f)
  | .ret _, _ => hf _
  | .thrown _, _ => trivial
  | .load _, h => fun r => Within.bind hf (h r)
  | .save _ _ _, h => ⟨h.1, fun r => Within.bind hf (h.2 r)⟩
  | .ask _ _, h => ⟨h.1, fun a => Within.bind hf (h.2 a)⟩

section Exec

variable {σ : Type} (record : σ → F → V) (write : σ → (F → V) → σ) (reply : σ → (q : Q) → A q × σ)

/-- A program that runs alone in a world with the record in it: its result, and the world at the end. -/
def exec : RecordProg F V Q A χ ρ → σ → Except χ ρ × σ
  | .ret r, s => (.ok r, s)
  | .thrown e, s => (.error e, s)
  | .load k, s => exec (k (record s)) s
  | .save base patch k, s => exec (k (patched base patch)) (write s (patched base patch))
  | .ask q k, s => exec (k (reply s q).1) (reply s q).2

/-- A program that goes on with `f` when it returns. -/
theorem exec_bind (f : ρ → RecordProg F V Q A χ τ) (p : RecordProg F V Q A χ ρ) (s : σ) :
    exec record write reply (p >>= f) s =
      match exec record write reply p s with
      | (.ok r, s') => exec record write reply (f r) s'
      | (.error e, s') => (.error e, s') := by
  induction p generalizing s with
  | ret r => rfl
  | thrown e => rfl
  | load k ih => exact ih (record s) s
  | save base patch k ih => exact ih (patched base patch) (write s (patched base patch))
  | ask q k ih => exact ih (reply s q).1 (reply s q).2

/-- **The frame rule.** What patches and questions of this kind leave alone is as before when the program ends. -/
theorem exec_keeps {I : σ → Prop} {okQ : Q → Prop} {okP : (F → Option V) → Prop}
    (hwrite : ∀ s r, record (write s r) = r) (hreply : ∀ s q, record (reply s q).2 = record s)
    (hsave : ∀ s patch, okP patch → I s → I (write s (patched (record s) patch)))
    (hask : ∀ s q, okQ q → I s → I (reply s q).2) {p : RecordProg F V Q A χ ρ} {held : Option (F → V)} {s : σ}
    (hextends : Extends held p) (hwithin : Within okQ okP p) (hheld : ∀ r, held = some r → r = record s) (hs : I s) :
    I (exec record write reply p s).2 := by
  induction p generalizing held s with
  | ret r => exact hs
  | thrown e => exact hs
  | load k ih =>
    exact ih (record s) (hextends (record s)) (hwithin (record s)) (fun r hr => (Option.some.inj hr).symm) hs
  | save base patch k ih =>
    obtain ⟨rfl, hextends⟩ := hextends
    obtain rfl := hheld base rfl
    refine ih _ hextends (hwithin.2 _) (fun r hr => ?_) (hsave s patch hwithin.1 hs)
    rw [hwrite, Option.some.inj hr]
  | ask q k ih =>
    refine ih _ (hextends _) (hwithin.2 _) (fun r hr => ?_) (hask s q hwithin.1 hs)
    rw [hreply, hheld r hr]

end Exec

end RecordProg

open RecordProg

/-! ### Interleavings -/

variable {F V Q : Type} {A : Q → Type} {χ ρ ι : Type} [DecidableEq ι]

/-- The record and the programs. `fresh i`: no other program has saved since `i` loaded or saved last. `saves` are
the patches that were saved, with the program that did it. -/
structure Shared (F V Q : Type) (A : Q → Type) (χ ρ ι : Type) where
  record : F → V
  procs : ι → RecordProg F V Q A χ ρ
  fresh : ι → Bool := fun _ => false
  saves : List (ι × (F → Option V)) := []

/-- The next step of one program; `answers` has the answer it may wait for. -/
structure Turn (Q : Type) (A : Q → Type) (ι : Type) where
  who : ι
  answers : (q : Q) → A q

def Shared.step (s : Shared F V Q A χ ρ ι) (t : Turn Q A ι) : Shared F V Q A χ ρ ι :=
  match s.procs t.who with
  | .ret _ => s
  | .thrown _ => s
  | .load k =>
    { s with procs := Function.update s.procs t.who (k s.record), fresh := Function.update s.fresh t.who true }
  | .save base patch k =>
    { record := patched base patch
      procs := Function.update s.procs t.who (k (patched base patch))
      fresh := fun j => decide (j = t.who)
      saves := s.saves ++ [(t.who, patch)] }
  | .ask q k => { s with procs := Function.update s.procs t.who (k (t.answers q)) }

/-- **The condition.** A program that saves next has loaded or saved since any other one saved. -/
def UpToDate (s : Shared F V Q A χ ρ ι) (t : Turn Q A ι) : Prop :=
  match s.procs t.who with
  | .save _ _ _ => s.fresh t.who = true
  | _ => True

instance (s : Shared F V Q A χ ρ ι) (t : Turn Q A ι) : Decidable (UpToDate s t) := by
  unfold UpToDate
  split <;> infer_instance

/-- The record with all patches that were saved, in their order. -/
def replay (r : F → V) (saves : List (ι × (F → Option V))) : F → V := saves.foldl (fun r e => patched r e.2) r

/-- **The invariant.** -/
structure Kept (r : F → V) (s : Shared F V Q A χ ρ ι) : Prop where
  record : s.record = replay r s.saves
  extending : ∀ i, ∃ held, Extends held (s.procs i) ∧ (s.fresh i = true → held = some s.record)

section Step

variable {s : Shared F V Q A χ ρ ι} {t : Turn Q A ι}

theorem step_load {k : (F → V) → RecordProg F V Q A χ ρ} (hp : s.procs t.who = .load k) : s.step t =
    { s with
      procs := Function.update s.procs t.who (k s.record)
      fresh := Function.update s.fresh t.who true } := by
  unfold Shared.step
  rw [hp]

theorem step_save {base : F → V} {patch : F → Option V} {k : (F → V) → RecordProg F V Q A χ ρ}
    (hp : s.procs t.who = .save base patch k) : s.step t =
    { record := patched base patch
      procs := Function.update s.procs t.who (k (patched base patch))
      fresh := fun j => decide (j = t.who)
      saves := s.saves ++ [(t.who, patch)] } := by
  unfold Shared.step
  rw [hp]

theorem step_ask {q : Q} {k : A q → RecordProg F V Q A χ ρ} (hp : s.procs t.who = .ask q k) : s.step t =
    { s with procs := Function.update s.procs t.who (k (t.answers q)) } := by
  unfold Shared.step
  rw [hp]

/-- One program goes on to `p`. -/
theorem extending_update {procs : ι → RecordProg F V Q A χ ρ} {fresh : ι → Bool} {record : F → V} {who : ι}
    {p : RecordProg F V Q A χ ρ} (hself : ∃ held, Extends held p ∧ (fresh who = true → held = some record))
    (hothers : ∀ i, i ≠ who → ∃ held, Extends held (procs i) ∧ (fresh i = true → held = some record)) (i : ι) :
    ∃ held, Extends held (Function.update procs who p i) ∧ (fresh i = true → held = some record) := by
  by_cases hi : i = who
  · subst hi
    rwa [Function.update_self]
  · rw [Function.update_of_ne hi]
    exact hothers i hi

/-- A save that is up to date adds its patch to the record. -/
theorem Kept.step {r : F → V} (h : Kept r s) (ht : UpToDate s t) : Kept r (s.step t) := by
  obtain ⟨held, hextends, hheld⟩ := h.extending t.who
  unfold UpToDate at ht
  rcases hp : s.procs t.who with v | e | k | ⟨base, patch, k⟩ | ⟨q, k⟩
  · have hstep : s.step t = s := by
      unfold Shared.step
      rw [hp]
    rwa [hstep]
  · have hstep : s.step t = s := by
      unfold Shared.step
      rw [hp]
    rwa [hstep]
  · rw [hp] at hextends
    rw [step_load hp]
    refine ⟨h.record, extending_update ⟨_, hextends s.record, fun _ => rfl⟩ fun i hi => ?_⟩
    obtain ⟨held', hi', hfresh⟩ := h.extending i
    exact ⟨held', hi', fun hf => hfresh ((Function.update_of_ne hi _ _).symm.trans hf)⟩
  · rw [hp] at hextends ht
    obtain ⟨hbase, hrest⟩ := hextends
    have hbase : base = s.record := Option.some.inj (hbase.symm.trans (hheld ht))
    rw [step_save hp]
    refine ⟨?_, extending_update ⟨_, hrest, fun _ => rfl⟩ fun i hi => ?_⟩
    · show patched base patch = replay r (s.saves ++ [(t.who, patch)])
      rw [hbase, h.record, replay, replay, List.foldl_concat]
    · obtain ⟨held', hi', -⟩ := h.extending i
      exact ⟨held', hi', fun hfresh => absurd (of_decide_eq_true hfresh) hi⟩
  · rw [hp] at hextends
    rw [step_ask hp]
    exact ⟨h.record, extending_update ⟨held, hextends _, hheld⟩ fun i _ => h.extending i⟩

end Step

variable {r : F → V} {procs : ι → RecordProg F V Q A χ ρ}

/-- **The record is what the patches make of it.** -/
theorem record_eq (hprocs : ∀ i, Extends none (procs i)) {turns : List (Turn Q A ι)}
    (h : Steps Shared.step (fun _ s t => UpToDate s t) { record := r, procs := procs } turns) :
    (run Shared.step { record := r, procs := procs } turns).record =
      replay r (run Shared.step { record := r, procs := procs } turns).saves := by
  refine (run_induct (J := fun _ s => Kept r s) (C := fun _ s t => UpToDate s t) ⟨rfl, fun i => ?_⟩
    (fun _ _ hs ht => hs.step ht) h).record
  exact ⟨none, hprocs i, fun hfresh => by cases hfresh⟩

/-! ### What a program has saved -/

/-- All patches of a program in one, later ones over earlier ones. -/
def patchesOf (i : ι) (saves : List (ι × (F → Option V))) : F → Option V :=
  saves.foldl (fun q e f => if e.1 = i then (e.2 f).or (q f) else q f) fun _ => none

/-- The record has the values of the patch. -/
def Contains (r : F → V) (p : F → Option V) : Prop := ∀ f v, p f = some v → r f = v

/-- No other program patches a field that `i` patches. -/
def Apart (i : ι) (saves : List (ι × (F → Option V))) : Prop :=
  ∀ e ∈ saves, e.1 ≠ i → ∀ f, e.2 f = none ∨ patchesOf i saves f = none

instance [Fintype F] (i : ι) (saves : List (ι × (F → Option V))) : Decidable (Apart i saves) :=
  inferInstanceAs (Decidable (∀ e ∈ saves, e.1 ≠ i → ∀ f, e.2 f = none ∨ patchesOf i saves f = none))

theorem patchesOf_concat (i : ι) (saves : List (ι × (F → Option V))) (e : ι × (F → Option V)) (f : F) :
    patchesOf i (saves ++ [e]) f = if e.1 = i then (e.2 f).or (patchesOf i saves f) else patchesOf i saves f := by
  unfold patchesOf
  rw [List.foldl_concat]

theorem Apart.init {i : ι} {saves : List (ι × (F → Option V))} {e : ι × (F → Option V)}
    (h : Apart i (saves ++ [e])) : Apart i saves := by
  intro e' he' hne f
  refine (h e' (List.mem_append_left _ he') hne f).imp_right fun hnone => ?_
  rw [patchesOf_concat] at hnone
  split_ifs at hnone with hi
  · exact (Option.or_eq_none_iff.mp hnone).2
  · exact hnone

theorem contains_replay (r : F → V) (i : ι) (saves : List (ι × (F → Option V))) (h : Apart i saves) :
    Contains (replay r saves) (patchesOf i saves) := by
  induction saves using List.reverseRecOn with
  | nil =>
    intro f v hv
    cases hv
  | append_singleton saves e ih =>
    intro f v hv
    have hreplay : replay r (saves ++ [e]) f = (e.2 f).getD (replay r saves f) := by
      rw [replay, List.foldl_concat]
      rfl
    rw [hreplay]
    have hlast := h e (List.mem_append_right _ (List.mem_singleton_self e))
    rw [patchesOf_concat] at hv
    rcases hpatch : e.2 f with _ | w
    · rw [hpatch, Option.none_or, ite_self] at hv
      exact ih h.init f v hv
    · by_cases hi : e.1 = i
      · rw [hpatch, if_pos hi] at hv
        cases hv
        rfl
      · rcases hlast hi f with hnone | hnone
        · rw [hnone] at hpatch
          cases hpatch
        · rw [patchesOf_concat, if_neg hi] at hnone
          rw [if_neg hi, hnone] at hv
          cases hv

/-- **No update is lost.** -/
theorem contains_patches (hprocs : ∀ i, Extends none (procs i)) {turns : List (Turn Q A ι)}
    (h : Steps Shared.step (fun _ s t => UpToDate s t) { record := r, procs := procs } turns) (i : ι)
    (hi : Apart i (run Shared.step { record := r, procs := procs } turns).saves) :
    Contains (run Shared.step { record := r, procs := procs } turns).record
      (patchesOf i (run Shared.step { record := r, procs := procs } turns).saves) := by
  rw [record_eq hprocs h]
  exact contains_replay r i _ hi

end ConsensusNode.Lib.SharedRecord
