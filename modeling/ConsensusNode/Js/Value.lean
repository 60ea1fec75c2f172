import Mathlib.Data.List.Forall2
import ConsensusNode.Js.Json

/-! # Conversions of JSON values

What the language does with a value whose type nobody has checked: `Object.entries`, `String(v)` and
`Number(v)`. An object is printed `[object Object]`, unless it has a field `toString` of its own (which
cannot be a function, so that the conversion throws); an array is printed as its elements with commas
between them, `null` being empty. -/

namespace ConsensusNode.Js

/-! ### Exceptions -/

/-- `if (!c) throw new Error(message)`. -/
def require (c : Bool) (message : JsString) : Except JsError Unit :=
  if c then .ok () else .error (.thrown message)

theorem require_eq_ok {c : Bool} {m : JsString} {u : Unit} : require c m = .ok u ↔ c = true := by
  unfold require; cases c <;> simp

theorem bind_eq_ok {ε α β : Type} {x : Except ε α} {f : α → Except ε β} {b : β} :
    (x >>= f) = .ok b ↔ ∃ a, x = .ok a ∧ f a = .ok b := by
  cases x with
  | error e => simp [bind, Except.bind]
  | ok a => simp [bind, Except.bind]

theorem mapM_eq_some {α β : Type} {f : α → Option β} : ∀ {xs : List α} {ys : List β},
    xs.mapM f = some ys ↔ List.Forall₂ (fun x y => f x = some y) xs ys
  | [], ys => by simp [eq_comm]
  | x :: xs, ys => by
    simp only [List.mapM_cons, Option.bind_eq_bind, Option.bind_eq_some_iff, List.forall₂_cons_left_iff,
      Option.pure_def, Option.some.injEq]
    constructor
    · rintro ⟨y, hy, ys', hys, rfl⟩
      exact ⟨y, ys', hy, mapM_eq_some.mp hys, rfl⟩
    · rintro ⟨y, ys', hy, hys, rfl⟩
      exact ⟨y, hy, ys', mapM_eq_some.mpr hys, rfl⟩

theorem mapM_eq_ok {ε α β : Type} {f : α → Except ε β} : ∀ {xs : List α} {ys : List β},
    xs.mapM f = .ok ys ↔ List.Forall₂ (fun x y => f x = .ok y) xs ys
  | [], ys => by simp [pure, Except.pure, eq_comm]
  | x :: xs, ys => by
    simp only [List.mapM_cons, bind_eq_ok, pure, Except.pure, Except.ok.injEq,
      List.forall₂_cons_left_iff]
    constructor
    · rintro ⟨y, hy, zs, hzs, rfl⟩
      exact ⟨y, zs, hy, mapM_eq_ok.mp hzs, rfl⟩
    · rintro ⟨y, zs, hy, hzs, rfl⟩
      exact ⟨y, hy, zs, mapM_eq_ok.mpr hzs, rfl⟩

theorem forall₂_mem_left {α β : Type} {R : α → β → Prop} : ∀ {xs : List α} {ys : List β},
    List.Forall₂ R xs ys → ∀ x ∈ xs, ∃ y ∈ ys, R x y
  | _, _, .nil, x, hx => by cases hx
  | _, _, .cons (a := a) (b := b) h hs, x, hx => by
    rcases List.mem_cons.mp hx with rfl | hx
    · exact ⟨b, by simp, h⟩
    · obtain ⟨y, hy, hr⟩ := forall₂_mem_left hs x hx
      exact ⟨y, by simp [hy], hr⟩

theorem forall₂_mem_right {α β : Type} {R : α → β → Prop} {xs : List α} {ys : List β}
    (h : List.Forall₂ R xs ys) : ∀ y ∈ ys, ∃ x ∈ xs, R x y :=
  forall₂_mem_left h.flip

/-! ### Objects and texts -/

/-- `Object.entries(v)`; strings and arrays have their positions as keys. -/
def objectEntries : Json → Except JsError (List (JsString × Json))
  | .null => .error .native
  | .str s => .ok (s.mapIdx fun i c => (decText i, .str [c]))
  | .arr xs => .ok (xs.mapIdx fun i v => (decText i, v))
  | .obj fs => .ok fs
  | _ => .ok []

mutual

/-- `String(v)`. -/
def toStr : Json → Except JsError JsString
  | .null => .ok (js "null")
  | .bool b => .ok (if b then js "true" else js "false")
  | .num x => .ok x.toText
  | .str s => .ok s
  | .arr xs => (elementTexts xs).map (join (unit ','))
  | .obj fs => if (fs.lookup (js "toString")).isSome then .error .native
      else .ok (js "[object Object]")

/-- The texts of the elements of an array. -/
def elementTexts : List Json → Except JsError (List JsString)
  | [] => .ok []
  | x :: xs => do
    let t ← toStr x
    let ts ← elementTexts xs
    return (if x = .null then [] else t) :: ts

end

/-! ### Numbers -/

/-- Digits with an optional point and an optional exponent, and nothing after them. -/
def readDecimal (s : JsString) : Option ℚ :=
  let ip := s.takeWhile isDigit
  let r := s.dropWhile isDigit
  let point := r.head? == some (unit '.')
  let fp := if point then r.tail.takeWhile isDigit else []
  let r := if point then r.tail.dropWhile isDigit else r
  if ip = [] ∧ fp = [] then none else
    match readExponent r with
    | some (ex, []) => some ((digitsVal (ip ++ fp) : ℚ) * 10 ^ (ex - fp.length))
    | _ => none

/-- The value of a digit in a base up to sixteen. -/
def digitIn (base : ℕ) (c : UInt16) : Option ℕ :=
  let n := c.toNat
  let d := if 48 ≤ n ∧ n ≤ 57 then n - 48 else if 97 ≤ n ∧ n ≤ 102 then n - 87
    else if 65 ≤ n ∧ n ≤ 70 then n - 55 else base
  if d < base then some d else none

/-- The value of a non-empty digit sequence in a base. -/
def readBase (base : ℕ) (s : JsString) : Option ℕ :=
  if s = [] then none
  else s.foldl (fun a c => do return (← a) * base + (← digitIn base c)) (some 0)

/-- `Number(s)` of a string; `none` is `NaN`. -/
def numberOfText (s : JsString) : Option JsNumber :=
  match trim s with
  | [] => some (JsNumber.ofNat 0)
  | c :: r =>
    let sign : ℚ := if c = unit '-' then -1 else 1
    let r' := if c = unit '-' ∨ c = unit '+' then r else c :: r
    if r' = js "Infinity" then some (if sign < 0 then .negInf else .posInf)
    else match c :: r with
      | 48 :: b :: ds =>
        if b = unit 'x' ∨ b = unit 'X' then (readBase 16 ds).map fun n => ofRat n
        else if b = unit 'o' ∨ b = unit 'O' then (readBase 8 ds).map fun n => ofRat n
        else if b = unit 'b' ∨ b = unit 'B' then (readBase 2 ds).map fun n => ofRat n
        else (readDecimal r').map ofRat
      | _ => (readDecimal r').map fun q => ofRat (sign * q)

/-- `Number(v)`. -/
def toNumber : Json → Except JsError (Option JsNumber)
  | .null => .ok (some (JsNumber.ofNat 0))
  | .bool b => .ok (some (JsNumber.ofNat (if b then 1 else 0)))
  | .num x => .ok (some x)
  | .str s => .ok (numberOfText s)
  | v => (toStr v).map numberOfText

/-- `Number.isInteger(x)`. -/
def JsNumber.isInteger : JsNumber → Bool
  | .fin q _ => decide (q.den = 1)
  | _ => false

end ConsensusNode.Js
