import Mathlib.Logic.Function.Basic
import Mathlib.Logic.Relation

/-! # A section that one process at a time is in

Processes share a store and one lock. A process takes the lock when it is free, works on the store, and
gives the lock back; it may also stop for good before it does, and the lock then stays taken. `R` says
what one process can do in one step, to the lock, its own state and the store; `inside` is the part of its
states in which it holds the lock.

* `Disciplined R inside`: only a process that is inside changes the store, and only one that finds the lock
  free comes in.
* `Protects`: what each step keeps. `Free` is what the store meets while the lock is free, `Own` what it
  meets while a process is inside, `Left` what it meets once the lock has been left behind.
* `guarded_reachable`: then at most one process is inside and the store meets what it has to, in every state
  that can be reached.
* `abandoned_reachable`: a lock that was left behind is never taken again, and the store stays as it is. -/

namespace ConsensusNode.Lib.LockedSection

variable {ι L S : Type*} [DecidableEq ι]

/-- What one process sees: the lock, its own state, the store. -/
structure View (L S : Type*) where
  locked : Bool
  proc : L
  store : S

/-- The processes with the lock and the store they share. -/
structure Sys (ι L S : Type*) where
  locked : Bool
  procs : ι → L
  store : S

def Sys.view (t : Sys ι L S) (p : ι) : View L S := ⟨t.locked, t.procs p, t.store⟩

/-- The process `p` has come to `v`. -/
def Sys.put (t : Sys ι L S) (p : ι) (v : View L S) : Sys ι L S :=
  ⟨v.locked, Function.update t.procs p v.proc, v.store⟩

@[simp] theorem Sys.put_locked (t : Sys ι L S) (p : ι) (v : View L S) : (t.put p v).locked = v.locked := rfl

@[simp] theorem Sys.put_store (t : Sys ι L S) (p : ι) (v : View L S) : (t.put p v).store = v.store := rfl

@[simp] theorem Sys.put_self (t : Sys ι L S) (p : ι) (v : View L S) : (t.put p v).procs p = v.proc := by
  simp [Sys.put]

theorem Sys.put_ne (t : Sys ι L S) {p q : ι} (h : q ≠ p) (v : View L S) : (t.put p v).procs q = t.procs q := by
  simp [Sys.put, h]

@[simp] theorem Sys.put_view (t : Sys ι L S) (p : ι) : t.put p (t.view p) = t := by
  simp [Sys.put, Sys.view]

variable (R : View L S → View L S → Prop) (inside : L → Prop)

/-- One process makes one step. -/
def Moves (t t' : Sys ι L S) : Prop := ∃ p v, R (t.view p) v ∧ t' = t.put p v

/-- The kinds of steps that the lock allows. -/
inductive Kind : View L S → View L S → Prop
  | outside {b : Bool} {l l' : L} {s : S} (h : ¬ inside l) (h' : ¬ inside l') : Kind ⟨b, l, s⟩ ⟨b, l', s⟩
  | enter {l l' : L} {s : S} (h : ¬ inside l) (h' : inside l') : Kind ⟨false, l, s⟩ ⟨true, l', s⟩
  | work {b : Bool} {l l' : L} {s s' : S} (h : inside l) (h' : inside l') : Kind ⟨b, l, s⟩ ⟨b, l', s'⟩
  | leave {b : Bool} {l l' : L} {s s' : S} (h : inside l) (h' : ¬ inside l') : Kind ⟨b, l, s⟩ ⟨false, l', s'⟩
  | abandon {b : Bool} {l l' : L} {s s' : S} (h : inside l) (h' : ¬ inside l') : Kind ⟨b, l, s⟩ ⟨b, l', s'⟩

def Disciplined : Prop := ∀ v v', R v v' → Kind inside v v'

/-- A process that is inside has the lock, and no other process is inside. -/
structure Exclusive (t : Sys ι L S) : Prop where
  locked : ∀ p, inside (t.procs p) → t.locked = true
  one : ∀ p q, inside (t.procs p) → inside (t.procs q) → p = q

/-- The lock is taken and nobody is inside. -/
def Abandoned (t : Sys ι L S) : Prop := t.locked = true ∧ ∀ p, ¬ inside (t.procs p)

variable {R inside}

section Kind

variable {v v' : View L S}

theorem Kind.enters (h : Kind inside v v') (hout : ¬ inside v.proc) (hin : inside v'.proc) :
    v.locked = false ∧ v'.locked = true := by
  rcases h with ⟨h, h'⟩ | ⟨h, h'⟩ | ⟨h, h'⟩ | ⟨h, h'⟩ | ⟨h, h'⟩
  · exact absurd hin h'
  · exact ⟨rfl, rfl⟩
  all_goals exact absurd h hout

theorem Kind.stays_in (h : Kind inside v v') (hin : inside v.proc) (hin' : inside v'.proc) :
    v'.locked = v.locked := by
  rcases h with ⟨h, h'⟩ | ⟨h, h'⟩ | ⟨h, h'⟩ | ⟨h, h'⟩ | ⟨h, h'⟩
  · rfl
  · exact absurd hin h
  · rfl
  all_goals exact absurd hin' h'

theorem Kind.stays_out (h : Kind inside v v') (hout : ¬ inside v.proc) (hout' : ¬ inside v'.proc) :
    v'.locked = v.locked := by
  rcases h with ⟨h, h'⟩ | ⟨h, h'⟩ | ⟨h, h'⟩ | ⟨h, h'⟩ | ⟨h, h'⟩
  · rfl
  · exact absurd h' hout'
  all_goals exact absurd h hout

/-- A process that is not inside leaves the store alone. -/
theorem Kind.store_eq (h : Kind inside v v') (hout : ¬ inside v.proc) : v'.store = v.store := by
  rcases h with ⟨h, h'⟩ | ⟨h, h'⟩ | ⟨h, h'⟩ | ⟨h, h'⟩ | ⟨h, h'⟩
  · rfl
  · rfl
  all_goals exact absurd h hout

/-- A step that does not come in may be the last one of its process. -/
theorem Kind.gone {l : L} (h : Kind inside v v') (hstep : inside v.proc ∨ ¬ inside v'.proc) (hl : ¬ inside l) :
    Kind inside v ⟨v'.locked, l, v'.store⟩ := by
  rcases h with ⟨h, h'⟩ | ⟨h, h'⟩ | ⟨h, h'⟩ | ⟨h, h'⟩ | ⟨h, h'⟩
  · exact .outside h hl
  · exact absurd h' (hstep.resolve_left h)
  · exact .abandon h hl
  · exact .leave h hl
  · exact .abandon h hl

end Kind

theorem Exclusive.put {t : Sys ι L S} (ht : Exclusive inside t) {p : ι} {v : View L S}
    (hv : Kind inside (t.view p) v) : Exclusive inside (t.put p v) := by
  -- whoever else is inside keeps `p` out
  have hothers : ∀ q, q ≠ p → inside (t.procs q) → v.locked = true ∧ ¬ inside v.proc := by
    intro q hq hin
    have hp : ¬ inside (t.procs p) := fun h => hq (ht.one q p hin h)
    have hlocked : t.locked = true := ht.locked q hin
    have hp' : ¬ inside v.proc := by
      intro h
      have hfree : t.locked = false := (hv.enters hp h).1
      rw [hlocked] at hfree
      cases hfree
    exact ⟨(hv.stays_out hp hp').trans hlocked, hp'⟩
  refine ⟨?_, ?_⟩
  · intro q hq
    by_cases hqp : q = p
    · subst hqp
      rw [Sys.put_self] at hq
      by_cases hin : inside (t.procs q)
      · exact (hv.stays_in hin hq).trans (ht.locked q hin)
      · exact (hv.enters hin hq).2
    · rw [Sys.put_ne t hqp] at hq
      exact (hothers q hqp hq).1
  · intro q r hq hr
    by_cases hqp : q = p
    · by_cases hrp : r = p
      · rw [hqp, hrp]
      · subst hqp
        rw [Sys.put_self] at hq
        rw [Sys.put_ne t hrp] at hr
        exact absurd hq (hothers r hrp hr).2
    · by_cases hrp : r = p
      · subst hrp
        rw [Sys.put_self] at hr
        rw [Sys.put_ne t hqp] at hq
        exact absurd hr (hothers q hqp hq).2
      · rw [Sys.put_ne t hqp] at hq
        rw [Sys.put_ne t hrp] at hr
        exact ht.one q r hq hr

/-! ## What the lock protects -/

variable (R inside) in
/-- Each step keeps what the store is for. -/
structure Protects (Free Left : S → Prop) (Own : L → S → Prop) : Prop where
  enter : ∀ v v', R v v' → ¬ inside v.proc → inside v'.proc → Free v.store → Own v'.proc v'.store
  work : ∀ v v', R v v' → inside v.proc → inside v'.proc → Own v.proc v.store → Own v'.proc v'.store
  leave : ∀ v v', R v v' → inside v.proc → ¬ inside v'.proc → v'.locked = false → Own v.proc v.store →
    Free v'.store
  abandon : ∀ v v', R v v' → inside v.proc → ¬ inside v'.proc → v'.locked = true → Own v.proc v.store →
    Left v'.store

variable (inside) in
/-- One process is inside at most, and the store is as the lock says. -/
structure Guarded (Free Left : S → Prop) (Own : L → S → Prop) (t : Sys ι L S) : Prop where
  exclusive : Exclusive inside t
  free : t.locked = false → Free t.store
  own : ∀ p, inside (t.procs p) → Own (t.procs p) t.store
  left : Abandoned inside t → Left t.store

variable {Free Left : S → Prop} {Own : L → S → Prop}

theorem Guarded.put (hR : Disciplined R inside) (hP : Protects R inside Free Left Own) {t : Sys ι L S}
    (ht : Guarded inside Free Left Own t) {p : ι} {v : View L S} (hv : R (t.view p) v) :
    Guarded inside Free Left Own (t.put p v) := by
  have hkind : Kind inside (t.view p) v := hR _ _ hv
  refine ⟨ht.exclusive.put hkind, ?_, ?_, ?_⟩
  · intro hfree
    rw [Sys.put_locked] at hfree
    rw [Sys.put_store]
    by_cases hin : inside (t.procs p)
    · by_cases hin' : inside v.proc
      · have hlocked : v.locked = true := (hkind.stays_in hin hin').trans (ht.exclusive.locked p hin)
        rw [hfree] at hlocked
        cases hlocked
      · exact hP.leave _ _ hv hin hin' hfree (ht.own p hin)
    · have hin' : ¬ inside v.proc := by
        intro h
        have hlocked : v.locked = true := (hkind.enters hin h).2
        rw [hfree] at hlocked
        cases hlocked
      rw [hkind.store_eq hin]
      exact ht.free ((hkind.stays_out hin hin').symm.trans hfree)
  · intro q hq
    rw [Sys.put_store]
    by_cases hqp : q = p
    · subst hqp
      rw [Sys.put_self] at hq ⊢
      by_cases hin : inside (t.procs q)
      · exact hP.work _ _ hv hin hq (ht.own q hin)
      · exact hP.enter _ _ hv hin hq (ht.free (hkind.enters hin hq).1)
    · rw [Sys.put_ne t hqp] at hq ⊢
      -- another process is inside, so `p` leaves the store alone
      have hp : ¬ inside (t.procs p) := fun h => hqp (ht.exclusive.one q p hq h)
      rw [hkind.store_eq hp]
      exact ht.own q hq
  · rintro ⟨hlocked, hnone⟩
    have hp' : ¬ inside v.proc := by simpa using hnone p
    rw [Sys.put_locked] at hlocked
    rw [Sys.put_store]
    by_cases hin : inside (t.procs p)
    · exact hP.abandon _ _ hv hin hp' hlocked (ht.own p hin)
    · rw [hkind.store_eq hin]
      refine ht.left ⟨(hkind.stays_out hin hp').symm.trans hlocked, ?_⟩
      intro q
      by_cases hqp : q = p
      · rw [hqp]
        exact hin
      · have hq := hnone q
        rwa [Sys.put_ne t hqp] at hq

/-! ## A lock that was left behind -/

theorem Abandoned.put {t : Sys ι L S} (ht : Abandoned inside t) {p : ι} {v : View L S}
    (hv : Kind inside (t.view p) v) : Abandoned inside (t.put p v) ∧ (t.put p v).store = t.store := by
  obtain ⟨hlocked, hnone⟩ := ht
  have hp : ¬ inside v.proc := by
    intro h
    have hfree : t.locked = false := (hv.enters (hnone p) h).1
    rw [hlocked] at hfree
    cases hfree
  refine ⟨⟨(hv.stays_out (hnone p) hp).trans hlocked, ?_⟩, hv.store_eq (hnone p)⟩
  intro q
  by_cases hqp : q = p
  · rw [hqp, Sys.put_self]
    exact hp
  · rw [Sys.put_ne t hqp]
    exact hnone q

/-! ## Over runs -/

section Reachable

variable {t t' : Sys ι L S}

theorem guarded_reachable (hR : Disciplined R inside) (hP : Protects R inside Free Left Own)
    (h : Relation.ReflTransGen (Moves R) t t') (ht : Guarded inside Free Left Own t) : Guarded inside Free Left Own t' := by
  induction h with
  | refl => exact ht
  | tail _ hmove ih =>
    obtain ⟨p, v, hv, rfl⟩ := hmove
    exact ih.put hR hP hv

theorem abandoned_reachable (hR : Disciplined R inside) (h : Relation.ReflTransGen (Moves R) t t')
    (ht : Abandoned inside t) : Abandoned inside t' ∧ t'.store = t.store := by
  induction h with
  | refl => exact ⟨ht, rfl⟩
  | tail _ hmove ih =>
    obtain ⟨p, v, hv, rfl⟩ := hmove
    obtain ⟨habandoned, hstore⟩ := ih.1.put (hR _ _ hv)
    exact ⟨habandoned, hstore.trans ih.2⟩

end Reachable

end ConsensusNode.Lib.LockedSection
