import ConsensusNode.Js.Arithmetic
import ConsensusNode.Js.Json
import ConsensusNode.Lib.Loop

/-! # The benchmark runner

`bench` of `runtime/benchmarks/runner.ts`. The readings of the clock and the results of the measured function are
given as two sequences; the state of a loop says how many of each it has taken.

* `bench_returns_iff`: the measurement comes to its end if and only if enough of the samples can be used. -/

namespace ConsensusNode.Runtime

open Js JsNumber Lib.Loop

/-- A number, or `NaN`. -/
abbrev Numeric := Option JsNumber

namespace Numeric

def add (x y : Numeric) : Numeric := x.bind fun x => y.bind fun y => x.add y

def sub (x y : Numeric) : Numeric := x.bind fun x => y.bind fun y => x.sub y

/-- `x ** 2` -/
def square (x : Numeric) : Numeric := x.bind fun x => x.mul x

def div (x y : Numeric) : Numeric := x.bind fun x => y.bind fun y => x.div y

end Numeric

/-! ### Options and results -/

structure BenchOptions where
  name : JsString
  warmupMs : Option JsNumber := none
  measureMs : Option JsNumber := none
  minSamples : Option JsNumber := none
  maxSamples : Option JsNumber := none

namespace BenchOptions

variable (opts : BenchOptions)

/-- `opts.warmupMs ?? 200`, and so on. -/
def warmup : JsNumber := opts.warmupMs.getD (.ofNat 200)

def measure : JsNumber := opts.measureMs.getD (.ofNat 1000)

def min : JsNumber := opts.minSamples.getD (.ofNat 10)

def max : JsNumber := opts.maxSamples.getD (.ofNat 200)

end BenchOptions

structure BenchStats where
  min : Numeric
  median : Numeric
  mean : Numeric
  p95 : Numeric
  p99 : Numeric
  stddev : Numeric

structure BenchResult where
  name : JsString
  reliable : Bool
  samples : ℕ
  total_ops : Numeric
  duration_ms : Numeric
  ops_per_second : Numeric
  ns_per_op : BenchStats
  cv : Numeric

/-! ### The loops -/

/-- `hrtime` has the readings of `hrtime.bigint()` and `fn` what the calls of the function return, in order. -/
structure BenchEnv where
  hrtime : ℕ → ℤ
  fn : ℕ → JsNumber

/-- How many readings and calls were made. -/
structure Taken where
  reads : ℕ
  calls : ℕ

structure Sampling extends Taken where
  samplesNs : List JsNumber := []
  samplesOps : List JsNumber := []

/-- `BigInt(ms * 1_000_000)`; `none` is the exception. -/
def nanoseconds (ms : JsNumber) : Option ℤ := (ms.mul (.ofNat 1000000)).bind toBigInt

variable (env : BenchEnv) (opts : BenchOptions)

/-- `while (hrtime.bigint() < warmupEnd) await fn();` -/
def warmupRound (warmupEnd : ℤ) (t : Taken) : Taken ⊕ Taken :=
  if env.hrtime t.reads < warmupEnd then .inl ⟨t.reads + 1, t.calls + 1⟩ else .inr ⟨t.reads + 1, t.calls⟩

def measureRound (measureEnd : ℤ) (s : Sampling) : Sampling ⊕ Sampling :=
  if (ofNat s.samplesNs.length).val < opts.max.val then
    if measureEnd ≤ env.hrtime s.reads ∧ opts.min.val ≤ (ofNat s.samplesNs.length).val then
      .inr { s with reads := s.reads + 1 }
    else
      let ops := env.fn s.calls
      let elapsedNs := ofBigInt (env.hrtime (s.reads + 2) - env.hrtime (s.reads + 1))
      if 0 < ops.val ∧ 0 < elapsedNs.val then
        .inl ⟨⟨s.reads + 3, s.calls + 1⟩, s.samplesNs ++ [elapsedNs], s.samplesOps ++ [ops]⟩
      else .inl { s with reads := s.reads + 3, calls := s.calls + 1 }
  else .inr s

/-! ### The result -/

def percentile (sortedValues : List Numeric) (p : JsNumber) : Numeric :=
  let n := sortedValues.length
  if n = 0 then some (ofNat 0) else
    let rank : ℤ := (((ofNat n).mul p).bind fun x => x.ceil.toBigInt).getD 0
    sortedValues.getD (Max.max 0 (Min.min ((n : ℤ) - 1) (rank - 1))).toNat (some (ofNat 0))

/-- The result when no sample was usable. -/
def emptyResult (name : JsString) (durationMs : Numeric) : BenchResult where
  name := name
  reliable := false
  samples := 0
  total_ops := some (ofNat 0)
  duration_ms := durationMs.map JsNumber.round
  ops_per_second := some (ofNat 0)
  ns_per_op := ⟨some (ofNat 0), some (ofNat 0), some (ofNat 0), some (ofNat 0), some (ofNat 0), some (ofNat 0)⟩
  cv := some (ofNat 0)

def benchResult (s : Sampling) (durationMs : Numeric) : BenchResult :=
  if s.samplesNs.length = 0 then emptyResult opts.name durationMs else
    let zero : Numeric := some (ofNat 0)
    let count : Numeric := some (ofNat s.samplesNs.length)
    let nsPerOp := s.samplesNs.zipWith JsNumber.div s.samplesOps
    let sorted := nsPerOp.mergeSort fun a b => !JsNumber.lt zero (Numeric.sub a b)
    let mean := Numeric.div (nsPerOp.foldl Numeric.add zero) count
    let squares := nsPerOp.foldl (fun a b => Numeric.add a (Numeric.square (Numeric.sub b mean))) zero
    let variance := Numeric.div squares count
    let stddev := variance.bind JsNumber.sqrt
    let cv := if JsNumber.lt zero mean then Numeric.div stddev mean else zero
    { name := opts.name
      reliable := JsNumber.lt cv (some (ofRat (1 / 10))) && decide (opts.min.val ≤ (ofNat s.samplesNs.length).val)
      samples := s.samplesNs.length
      total_ops := s.samplesOps.foldl (fun a b => Numeric.add a (some b)) zero
      duration_ms := durationMs.map JsNumber.round
      ops_per_second := Numeric.div (some (ofNat 1000000000)) mean
      ns_per_op := ⟨sorted.headD none, percentile sorted (ofRat (1 / 2)), mean, percentile sorted (ofRat (95 / 100)),
        percentile sorted (ofRat (99 / 100)), stddev⟩
      cv := cv }

/-- The warm-up with so many rounds, after the first reading. -/
def warmedUp (fuel : ℕ) : Option (Except JsError Taken) :=
  match nanoseconds opts.warmup with
  | none => some (.error .native)
  | some warmupNs => (loop (warmupRound env (env.hrtime 0 + warmupNs)) fuel ⟨1, 0⟩).map .ok

/-- `Number(hrtime.bigint() - measureStart) / 1e6` -/
def durationMs (measureStart now : ℤ) : Numeric := (ofBigInt (now - measureStart)).div (ofNat 1000000)

/-- `none`: a loop is still running after `fuel` rounds. -/
def bench (fuel : ℕ) : Option (Except JsError BenchResult) :=
  (warmedUp env opts fuel).bind fun
    | .error e => some (.error e)
    | .ok t =>
      match nanoseconds opts.measure with
      | none => some (.error .native)
      | some measureNs =>
        let measureStart := env.hrtime t.reads
        (loop (measureRound env opts (measureStart + measureNs)) fuel ⟨⟨t.reads + 1, t.calls⟩, [], []⟩).map fun s =>
          .ok (benchResult opts s (durationMs measureStart (env.hrtime s.reads)))

/-! ### The samples

The measurement starts at `t`. -/

section Samples

variable (t : Taken)

/-- What the call in round `k` returns. -/
def roundOps (k : ℕ) : JsNumber := env.fn (t.calls + k)

/-- How long it took. -/
def roundNs (k : ℕ) : JsNumber :=
  ofBigInt (env.hrtime (t.reads + 3 * k + 2) - env.hrtime (t.reads + 3 * k + 1))

/-- The sample can be used. -/
def usable (k : ℕ) : Bool := decide (0 < (roundOps env t k).val ∧ 0 < (roundNs env t k).val)

/-- The rounds with a usable sample among the first `n`. -/
def usableRounds (n : ℕ) : List ℕ := (List.range n).filter (usable env t)

/-- The state after `k` rounds. -/
def sampled (k : ℕ) : Sampling where
  reads := t.reads + 3 * k
  calls := t.calls + k
  samplesNs := (usableRounds env t k).map (roundNs env t)
  samplesOps := (usableRounds env t k).map (roundOps env t)

theorem sampled_zero : sampled env t 0 = ⟨t, [], []⟩ := rfl

theorem length_samplesNs (k : ℕ) : (sampled env t k).samplesNs.length = (usableRounds env t k).length :=
  List.length_map _

theorem usableRounds_succ (k : ℕ) : usableRounds env t (k + 1) =
    if usable env t k = true then usableRounds env t k ++ [k] else usableRounds env t k := by
  unfold usableRounds
  rw [List.range_succ, List.filter_append, List.filter_singleton]
  cases usable env t k
  · exact List.append_nil _
  · rfl

theorem length_usableRounds_mono {k n : ℕ} (h : k ≤ n) :
    (usableRounds env t k).length ≤ (usableRounds env t n).length :=
  ((List.range_sublist.mpr h).filter _).length_le

theorem sampled_succ (k : ℕ) : sampled env t (k + 1) =
    if usable env t k = true then
      ⟨⟨t.reads + 3 * k + 3, t.calls + k + 1⟩, (sampled env t k).samplesNs ++ [roundNs env t k],
        (sampled env t k).samplesOps ++ [roundOps env t k]⟩
    else { sampled env t k with reads := t.reads + 3 * k + 3, calls := t.calls + k + 1 } := by
  unfold sampled
  rw [usableRounds_succ]
  split_ifs with h
  · rw [List.map_append, List.map_append]
    rfl
  · rfl

variable {t}

/-- One round: the loop ends, or it goes on with one sample more at most. -/
theorem measureRound_sampled (measureEnd : ℤ) (k : ℕ) :
    measureRound env opts measureEnd (sampled env t k) =
      if (ofNat (usableRounds env t k).length).val < opts.max.val then
        if measureEnd ≤ env.hrtime (t.reads + 3 * k) ∧ opts.min.val ≤ (ofNat (usableRounds env t k).length).val then
          .inr { sampled env t k with reads := t.reads + 3 * k + 1 }
        else .inl (sampled env t (k + 1))
      else .inr (sampled env t k) := by
  unfold measureRound
  rw [length_samplesNs, sampled_succ]
  refine if_congr Iff.rfl (if_congr Iff.rfl rfl ?_) rfl
  by_cases h : usable env t k = true
  · rw [if_pos h]
    exact if_pos (of_decide_eq_true h)
  · rw [if_neg h]
    exact if_neg fun hu => h (decide_eq_true hu)

/-- Where the loop ends. -/
theorem exit_iff (measureEnd : ℤ) (k : ℕ) : (∃ s, measureRound env opts measureEnd (sampled env t k) = .inr s) ↔
    opts.max.val ≤ (ofNat (usableRounds env t k).length).val ∨
      (measureEnd ≤ env.hrtime (t.reads + 3 * k) ∧ opts.min.val ≤ (ofNat (usableRounds env t k).length).val) := by
  rw [measureRound_sampled]
  split_ifs with hmax hend
  · exact ⟨fun _ => .inr hend, fun _ => ⟨_, rfl⟩⟩
  · constructor
    · rintro ⟨_, h⟩
      cases h
    · intro h
      exact absurd h (not_or.mpr ⟨not_le.mpr hmax, hend⟩)
  · exact ⟨fun _ => .inl (not_lt.mp hmax), fun _ => ⟨_, rfl⟩⟩

theorem along_sampled (measureEnd : ℤ) : Along (measureRound env opts measureEnd) (sampled env t) := by
  intro k
  rw [measureRound_sampled]
  split_ifs
  · exact .inr ⟨_, rfl⟩
  · exact .inl rfl
  · exact .inr ⟨_, rfl⟩

/-- The loop leaves the samples as they are. -/
theorem exit_samples {measureEnd : ℤ} {k : ℕ} {s : Sampling}
    (h : measureRound env opts measureEnd (sampled env t k) = .inr s) :
    s.samplesNs = (sampled env t k).samplesNs := by
  rw [measureRound_sampled] at h
  split_ifs at h
  · cases h
    rfl
  · cases h
    rfl

theorem val_ofNat_mono {a b : ℕ} (h : a ≤ b) : (ofNat a).val ≤ (ofNat b).val := by
  have hq : (a : ℚ) ≤ b := by exact_mod_cast h
  exact WithBot.coe_le_coe.mpr (WithTop.coe_le_coe.mpr hq)

/-- **The loop ends** if and only if there are enough usable samples at some time. -/
theorem measurement_ends_iff {measureEnd : ℤ} (hclock : ∃ N, ∀ i ≥ N, measureEnd ≤ env.hrtime i)
    (hle : opts.min.val ≤ opts.max.val) :
    (∃ fuel s, loop (measureRound env opts measureEnd) fuel ⟨t, [], []⟩ = some s) ↔
      ∃ n, opts.min.val ≤ (ofNat (usableRounds env t n).length).val := by
  rw [← sampled_zero env t, loop_returns_iff (along_sampled env opts measureEnd)]
  constructor
  · rintro ⟨k, hk⟩
    rcases (exit_iff env opts measureEnd k).mp hk with hmax | ⟨-, hmin⟩
    · exact ⟨k, hle.trans hmax⟩
    · exact ⟨k, hmin⟩
  · rintro ⟨n, hn⟩
    obtain ⟨N, hN⟩ := hclock
    -- both conditions hold from here on
    refine ⟨Max.max n N, (exit_iff env opts measureEnd _).mpr (.inr ⟨hN _ ?_, hn.trans ?_⟩)⟩
    · show N ≤ t.reads + 3 * Max.max n N
      omega
    · exact val_ofNat_mono (length_usableRounds_mono env t (Nat.le_max_left n N))

end Samples

/-! ### The function -/

variable (t : Taken)

/-- The warm-up ends; the measurement starts at `t` and is to last until `measureEnd`. -/
def Measures (t : Taken) (measureEnd : ℤ) : Prop :=
  ∃ fuel t', warmedUp env opts fuel = some (.ok t') ∧ t = ⟨t'.reads + 1, t'.calls⟩ ∧
    ∃ measureNs, nanoseconds opts.measure = some measureNs ∧ measureEnd = env.hrtime t'.reads + measureNs

/-- `bench` returns a result, and the one for no samples if none is usable. -/
def Finishes (t : Taken) : Prop :=
  ∃ fuel result, bench env opts fuel = some (.ok result) ∧
    ((∀ k, usable env t k = false) → ∃ durationMs, result = emptyResult opts.name durationMs)

variable {env opts t}

theorem warmedUp_mono {n m : ℕ} (hnm : n ≤ m) {r : Except JsError Taken} (h : warmedUp env opts n = some r) :
    warmedUp env opts m = some r := by
  unfold warmedUp at h ⊢
  split at h
  · exact h
  · obtain ⟨t', ht', rfl⟩ := Option.map_eq_some_iff.mp h
    rw [loop_mono hnm ht']
    rfl

/-- Two runs of the warm-up end in the same way. -/
theorem warmedUp_unique {n m : ℕ} {r r' : Except JsError Taken} (h : warmedUp env opts n = some r)
    (h' : warmedUp env opts m = some r') : r = r' := by
  have hmax := warmedUp_mono (Nat.le_max_left n m) h
  rw [warmedUp_mono (Nat.le_max_right n m) h'] at hmax
  cases hmax
  rfl

theorem bench_eq {fuel : ℕ} {t' : Taken} {measureNs : ℤ} (hwarm : warmedUp env opts fuel = some (.ok t'))
    (hns : nanoseconds opts.measure = some measureNs) : bench env opts fuel =
      (loop (measureRound env opts (env.hrtime t'.reads + measureNs)) fuel ⟨⟨t'.reads + 1, t'.calls⟩, [], []⟩).map
        fun s => .ok (benchResult opts s (durationMs (env.hrtime t'.reads) (env.hrtime s.reads))) := by
  unfold bench
  rw [hwarm, Option.bind_some]
  simp only [hns]

theorem benchResult_of_nil {s : Sampling} (h : s.samplesNs = []) (durationMs : Numeric) :
    benchResult opts s durationMs = emptyResult opts.name durationMs := by
  unfold benchResult
  rw [h]
  rfl

/-- `bench` returns when the measurement ends. -/
theorem finishes_iff_ends {measureEnd : ℤ} (h : Measures env opts t measureEnd) :
    Finishes env opts t ↔ ∃ fuel s, loop (measureRound env opts measureEnd) fuel ⟨t, [], []⟩ = some s := by
  obtain ⟨fuel₀, t', hwarm, rfl, measureNs, hns, rfl⟩ := h
  constructor
  · rintro ⟨fuel, result, hbench, -⟩
    rcases hw : warmedUp env opts fuel with _ | r
    · unfold bench at hbench
      rw [hw] at hbench
      cases hbench
    · obtain rfl := warmedUp_unique hw hwarm
      rw [bench_eq hw hns] at hbench
      obtain ⟨s, hs, -⟩ := Option.map_eq_some_iff.mp hbench
      exact ⟨fuel, s, hs⟩
  · rintro ⟨fuel, s, hs⟩
    have hend := loop_mono (Nat.le_max_left fuel fuel₀) hs
    have hbench := bench_eq (warmedUp_mono (Nat.le_max_right fuel fuel₀) hwarm) hns
    rw [hend] at hbench
    refine ⟨_, _, hbench, fun hnone => ⟨_, benchResult_of_nil ?_ _⟩⟩
    rw [← sampled_zero env] at hs
    obtain ⟨k, hk⟩ := exists_exit_of_loop (along_sampled env opts _) hs
    rw [exit_samples env opts hk]
    have hrounds : usableRounds env ⟨t'.reads + 1, t'.calls⟩ k = [] :=
      List.filter_eq_nil_iff.mpr fun j _ => ne_true_of_eq_false (hnone j)
    show (usableRounds env _ k).map _ = []
    rw [hrounds]
    rfl

/-- **The benchmark ends** if and only if at some time `minSamples` of the samples are usable. -/
theorem bench_returns_iff {measureEnd : ℤ} (h : Measures env opts t measureEnd)
    (hclock : ∃ N, ∀ i ≥ N, measureEnd ≤ env.hrtime i) (hle : opts.min.val ≤ opts.max.val) :
    Finishes env opts t ↔ ∃ n, opts.min.val ≤ (ofNat (usableRounds env t n).length).val := by
  rw [finishes_iff_ends h]
  exact measurement_ends_iff env opts hclock hle

namespace Sample

/-- A clock that goes on by a second with each reading. -/
def clockEnv (fn : ℕ → JsNumber) : BenchEnv where
  hrtime i := i * 1000000000
  fn := fn

def defaults : BenchOptions where
  name := js "noop"

/-- The warm-up is over at once, and the measurement lasts from the second to the third second. -/
theorem measures (fn : ℕ → JsNumber) : Measures (clockEnv fn) defaults ⟨3, 0⟩ 3000000000 := by
  have hwarmup : nanoseconds defaults.warmup = some 200000000 := by decide +kernel
  have hmeasure : nanoseconds defaults.measure = some 1000000000 := by decide +kernel
  refine ⟨1, ⟨2, 0⟩, ?_, rfl, 1000000000, hmeasure, rfl⟩
  unfold warmedUp
  rw [hwarmup]
  rfl

theorem clock_passes (fn : ℕ → JsNumber) (e : ℕ) : ∃ N, ∀ i ≥ N, (e : ℤ) ≤ (clockEnv fn).hrtime i := by
  refine ⟨e, fun i hi => ?_⟩
  show (e : ℤ) ≤ i * 1000000000
  omega

/-- Every sample is one operation in a second. -/
theorem steady_finishes : Finishes (clockEnv fun _ => ofNat 1) defaults ⟨3, 0⟩ :=
  (bench_returns_iff (measures _) (clock_passes _ 3000000000) (by decide +kernel)).mpr ⟨10, by decide +kernel⟩

/-- A function that does no operation is called for ever. -/
theorem idle_runs_on : ¬ ∀ (env : BenchEnv) (opts : BenchOptions) (t : Taken) (measureEnd : ℤ),
    Measures env opts t measureEnd → (∃ N, ∀ i ≥ N, measureEnd ≤ env.hrtime i) → (∀ k, 0 ≤ (env.fn k).val) →
    opts.min.val ≤ opts.max.val → Finishes env opts t := by
  intro hall
  have hfinishes := hall (clockEnv fun _ => ofNat 0) defaults ⟨3, 0⟩ 3000000000 (measures _)
    (clock_passes _ 3000000000) (fun _ => le_rfl) (by decide +kernel)
  have hends := (finishes_iff_ends (measures _)).mp hfinishes
  obtain ⟨n, hn⟩ := (measurement_ends_iff _ _ (clock_passes _ 3000000000) (by decide +kernel)).mp hends
  have hnone : usableRounds (clockEnv fun _ => ofNat 0) ⟨3, 0⟩ n = [] :=
    List.filter_eq_nil_iff.mpr fun j _ hj => absurd (of_decide_eq_true hj).1 (lt_irrefl _)
  rw [hnone] at hn
  exact absurd hn (by decide +kernel)

end Sample

end ConsensusNode.Runtime
