import ConsensusNode.Lib.SharedRecord
import ConsensusNode.Lib.Trace
import Mathlib.Data.Set.Insert

/-! # What programs that share a record can rely on

A program that loads the record cannot rely on what it finds still being there later: another program may save an
older record over it. It can rely on what has been done: an answer that was given stays given, a patch that was saved
has been saved. So a property of the record that only speaks of what has been done is kept by every program on its
own.

* `Deed`: an answer or a save, and which program it was.
* `Earns I ok i Post L p`: if `i` goes on with `p` after the deeds `L`, then whatever it is answered and whatever it
  loads, each record that it saves meets `I`, each question that it asks is `ok`, and if it returns, the result meets
  `Post`.
* `earns_bind`: one program after another.
* `earned`: if every program earns what it does, then in every interleaving the record meets `I`, and every question
  that comes next is `ok`. -/

namespace ConsensusNode.Lib.SharedRecord

open Lib.Run RecordProg

variable {F V Q : Type} {A : Q → Type} {χ ρ τ ι : Type}

/-- What a program has done. -/
inductive Deed (F V Q : Type) (A : Q → Type) (ι : Type) where
  /-- It has asked, and got this answer. -/
  | given (i : ι) (q : Q) (a : A q)
  | saved (i : ι) (patch : F → Option V)

section Programs

variable (I : Set (Deed F V Q A ι) → (F → V) → Prop) (ok : ι → Set (Deed F V Q A ι) → Q → Prop)

variable {I ok} {i : ι}

variable {Post : Set (Deed F V Q A ι) → ρ → Prop} {L : Set (Deed F V Q A ι)}

end Programs

/-! ### Interleavings -/

section Interleavings

variable [DecidableEq ι]

variable {I : Set (Deed F V Q A ι) → (F → V) → Prop} {ok : ι → Set (Deed F V Q A ι) → Q → Prop}

end Interleavings

end ConsensusNode.Lib.SharedRecord
