import ConsensusNode.Js.Number
import ConsensusNode.Js.OrdMap

/-! # The replay cache

`tickets/replay.ts`: a map from the `jti`s that have been used to the expiry of their tickets. `sweep`
runs at most every 30 seconds and drops what has expired; a full cache drops its oldest entries before it
takes a new one.

* `get?_sweep`: what the sweep leaves.
* `entries_evict`: a full cache loses its oldest entries, as many as are needed.
* `consume_of_has`, `consume_of_not_has`: the two outcomes of `consume` on a cache that is not full. -/

namespace ConsensusNode.Tickets

open Js

def SWEEP_INTERVAL_SEC : JsNumber := JsNumber.ofNat 30

structure JtiReplayCache where
  maxEntries : ℕ
  seen : OrdMap JsString JsNumber
  lastSweep : JsNumber

namespace JtiReplayCache

/-- `new JtiReplayCache(maxEntries)`. -/
def new (maxEntries : ℕ) : JtiReplayCache := ⟨maxEntries, ∅, JsNumber.ofNat 0⟩

/-- Thirty seconds have passed since the last sweep. -/
def sweepDue (c : JtiReplayCache) (now : JsNumber) : Bool :=
  !JsNumber.lt (now.sub c.lastSweep) (some SWEEP_INTERVAL_SEC)

def sweep (c : JtiReplayCache) (now : JsNumber) : JtiReplayCache :=
  if c.sweepDue now then
    { c with lastSweep := now, seen := c.seen.filter fun e => !decide (e.2.val ≤ now.val) }
  else c

/-- The eviction loop; it runs at most once for every entry. -/
def evict (maxEntries : ℕ) : ℕ → OrdMap JsString JsNumber → OrdMap JsString JsNumber
  | 0, m => m
  | n + 1, m =>
    if maxEntries ≤ m.size then
      match m.oldest? with
      | none => m
      | some k => evict maxEntries n (m.delete k)
    else m

/-- `consume` after its sweep. -/
def insert (c : JtiReplayCache) (jti : JsString) (exp : JsNumber) : Bool × JtiReplayCache :=
  if c.seen.has jti then (false, c)
  else (true, { c with seen := (evict c.maxEntries c.seen.size c.seen).set jti exp })

/-- Record a `jti` as used: `true` if it was not in the cache. -/
def consume (c : JtiReplayCache) (jti : JsString) (exp now : JsNumber) : Bool × JtiReplayCache :=
  (c.sweep now).insert jti exp

variable {c : JtiReplayCache} {jti : JsString} {exp now : JsNumber}

@[simp] theorem sweep_maxEntries : (c.sweep now).maxEntries = c.maxEntries := by
  unfold sweep; split_ifs <;> rfl

theorem get?_sweep {k : JsString} {e : JsNumber} : (c.sweep now).seen.get? k = some e ↔
    c.seen.get? k = some e ∧ ¬ (c.sweepDue now = true ∧ e.val ≤ now.val) := by
  unfold sweep
  split_ifs with h
  · rw [OrdMap.get?_filter_eq_some]
    simp [h]
  · simp [h]

theorem size_sweep_le : (c.sweep now).seen.size ≤ c.seen.size := by
  unfold sweep
  split_ifs
  · exact List.length_filter_le _ _
  · exact le_refl _

theorem evict_of_size_lt {m : OrdMap JsString JsNumber} {M n : ℕ} (h : m.size < M) :
    evict M n m = m := by
  cases n with
  | zero => rfl
  | succ n => unfold evict; rw [if_neg (by omega)]

theorem entries_delete_oldest {m : OrdMap JsString JsNumber} {e : JsString × JsNumber}
    {l : List (JsString × JsNumber)} (h : m.entries = e :: l) : (m.delete e.1).entries = l := by
  have hnd := m.nodup
  rw [h, List.map_cons, List.nodup_cons] at hnd
  show m.entries.filter _ = l
  rw [h, List.filter_cons_of_neg (by simp), List.filter_eq_self]
  intro a ha
  have hne : a.1 ≠ e.1 := by
    intro hae
    exact hnd.1 (hae ▸ List.mem_map_of_mem ha)
  simpa using hne

/-- The loop drops the oldest entries until one more fits. -/
theorem entries_evict {M n : ℕ} {m : OrdMap JsString JsNumber} (h : m.size ≤ n) :
    (evict M n m).entries = m.entries.drop (m.size + 1 - M) := by
  induction n generalizing m with
  | zero =>
    have hnil : m.entries = [] := List.eq_nil_of_length_eq_zero (Nat.le_zero.mp h)
    simp [evict, hnil]
  | succ n ih =>
    unfold evict
    split_ifs with hM
    · rcases he : m.entries with _ | ⟨e, l⟩
      · have ho : m.oldest? = none := by simp [OrdMap.oldest?, OrdMap.keys, he]
        simp [ho, he]
      · have ho : m.oldest? = some e.1 := by simp [OrdMap.oldest?, OrdMap.keys, he]
        have hsize : m.size = l.length + 1 := by simp [OrdMap.size, he]
        have hl : (m.delete e.1).size = l.length := by
          rw [OrdMap.size, entries_delete_oldest he]
        have hdrop : m.size + 1 - M = (l.length + 1 - M) + 1 := by omega
        simp only [ho]
        rw [ih (by omega), entries_delete_oldest he, hl, hdrop, List.drop_succ_cons]
    · have hdrop : m.size + 1 - M = 0 := by omega
      rw [hdrop, List.drop_zero]

@[simp] theorem consume_maxEntries : (c.consume jti exp now).2.maxEntries = c.maxEntries := by
  unfold consume insert
  split_ifs
  · exact sweep_maxEntries
  · exact sweep_maxEntries

/-- A `jti` that the sweep leaves in the cache is refused. -/
theorem consume_of_has (h : (c.sweep now).seen.has jti = true) :
    c.consume jti exp now = (false, c.sweep now) := by
  unfold consume insert; rw [if_pos h]

/-- A `jti` that is not in the cache after the sweep is accepted and stored; nothing else changes in a
cache that is not full. -/
theorem consume_of_not_has (h : (c.sweep now).seen.has jti = false) (hM : c.seen.size < c.maxEntries) :
    c.consume jti exp now =
      (true, { c.sweep now with seen := (c.sweep now).seen.set jti exp }) := by
  have hsize : (c.sweep now).seen.size < (c.sweep now).maxEntries := by
    rw [sweep_maxEntries]; exact lt_of_le_of_lt size_sweep_le hM
  unfold consume insert
  rw [if_neg (by simp [h]), evict_of_size_lt hsize]

end JtiReplayCache

end ConsensusNode.Tickets
