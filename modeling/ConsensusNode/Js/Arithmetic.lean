import ConsensusNode.Js.Number
import Mathlib.Data.List.Sort

/-! # Arithmetic

The operations on numbers that `Number` does not have. `none` is `NaN`, and every result is the double nearest to
the exact one. A zero has no sign. -/

namespace ConsensusNode.Js

namespace JsNumber

/-- The sign as an integer. -/
def sign : JsNumber → ℤ
  | .fin q _ => q.num.sign
  | .posInf => 1
  | .negInf => -1

/-- An infinity with the sign of `z`. -/
def infinity (z : ℤ) : JsNumber := if z < 0 then .negInf else .posInf

/-- `x * y`. -/
def mul : JsNumber → JsNumber → Option JsNumber
  | .fin p _, .fin q _ => some (ofRat (double p * double q))
  | x, y => if x.sign * y.sign = 0 then none else some (infinity (x.sign * y.sign))

/-- `x / y`. -/
def div : JsNumber → JsNumber → Option JsNumber
  | .fin p _, .fin q _ =>
    if q = 0 then if p = 0 then none else some (infinity p.num) else some (ofRat (double p / double q))
  | .fin _ _, _ => some (ofInt 0)
  | x, .fin q _ => some (infinity (x.sign * if q < 0 then -1 else 1))
  | _, _ => none

/-- A rational number that rounds to the same double as the square root of `q`, for a positive double `q`: so many
bits of the root, and a half if there are more. -/
def rootApprox (q : ℚ) : ℚ :=
  let r : ℕ := Nat.sqrt ⌊q * 4 ^ 600⌋.toNat
  (if (r : ℚ) ^ 2 = q * 4 ^ 600 then (r : ℚ) else r + 1 / 2) / 2 ^ 600

/-- `Math.sqrt(x)`. -/
def sqrt : JsNumber → Option JsNumber
  | .fin q _ => if q < 0 then none else some (ofRat (rootApprox (double q)))
  | .posInf => some .posInf
  | .negInf => none

/-- `Math.round(x)`. -/
def round : JsNumber → JsNumber
  | .fin q _ => ofRat ⌊double q + 1 / 2⌋
  | x => x

/-- `Math.ceil(x)`. -/
def ceil : JsNumber → JsNumber
  | .fin q _ => ofRat ⌈double q⌉
  | x => x

/-- `BigInt(x)`; `none` is the exception. -/
def toBigInt : JsNumber → Option ℤ
  | .fin q _ => if (double q).den = 1 then some (double q).num else none
  | _ => none

/-- `Number(z)` of a bigint. -/
def ofBigInt (z : ℤ) : JsNumber := ofRat z

end JsNumber

end ConsensusNode.Js
