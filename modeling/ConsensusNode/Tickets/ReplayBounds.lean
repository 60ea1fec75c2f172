import ConsensusNode.Lib.BoundedQueue
import ConsensusNode.Lib.Run
import ConsensusNode.Tickets.Replay

/-! # What the replay cache keeps

Runs of `consume` on one cache. Behind its sweep the cache is a queue with a bound (`insert_entries`).

* `replay_refused`: the size stays within the bound, and a `jti` that was recorded is refused until its ticket
  expires, as long as fewer than `maxEntries` others are recorded in between.
* `sheds_soonest`: if the tickets are recorded in the order in which they expire, a full cache drops the one
  that expires first.

Tickets of the same lifetime expire in the order in which they are issued. They may be spent in another order,
and the queue is in the order in which they are spent. -/

namespace ConsensusNode.Tickets

open Js Lib Lib.Run BoundedQueue

/-- A call of `consume`. -/
structure ConsumeCall where
  jti : JsString
  exp : JsNumber
  now : JsNumber

namespace JtiReplayCache

/-- The cache after a call. -/
def after (c : JtiReplayCache) (a : ConsumeCall) : JtiReplayCache := (c.consume a.jti a.exp a.now).2

/-- The result of a call. -/
def fresh (c : JtiReplayCache) (a : ConsumeCall) : Bool := (c.consume a.jti a.exp a.now).1

/-- The number of calls that return `true`. -/
def freshCount : JtiReplayCache → List ConsumeCall → ℕ
  | _, [] => 0
  | c, a :: as => (c.fresh a).toNat + (c.after a).freshCount as

/-- A call drops an entry that its sweep has left, because the cache is full. -/
def Drops (c : JtiReplayCache) (a : ConsumeCall) (e : JsString × JsNumber) : Prop :=
  e ∈ (c.sweep a.now).seen.entries ∧ (c.after a).seen.has e.1 = false

/-- **The condition.** A call that records a ticket records one that expires no earlier than those in the
cache. -/
def InOrder (c : JtiReplayCache) (a : ConsumeCall) : Prop :=
  (c.sweep a.now).seen.has a.jti = false → ∀ e ∈ c.seen.entries, e.2.val ≤ a.exp.val

instance (c : JtiReplayCache) (a : ConsumeCall) : Decidable (c.InOrder a) :=
  inferInstanceAs (Decidable (_ → ∀ e ∈ c.seen.entries, e.2.val ≤ a.exp.val))

/-! ### The cache as a queue -/

/-- The eviction loop. -/
theorem evict_entries {M n : ℕ} {m : OrdMap JsString JsNumber} (h : m.size ≤ n) :
    (evict M n m).entries = shed M m.entries := entries_evict h

theorem entries_set_new {m : OrdMap JsString JsNumber} {k : JsString} (h : m.has k = false) (v : JsNumber) :
    (m.set k v).entries = m.entries ++ [(k, v)] := by
  unfold OrdMap.set
  rw [dif_neg (by simp [h])]

variable {c : JtiReplayCache} {a : ConsumeCall}

theorem fresh_iff : c.fresh a = true ↔ (c.sweep a.now).seen.has a.jti = false := by
  unfold fresh consume insert
  split_ifs with h
  · simp [h]
  · simp [h]

/-- A call that is refused leaves the swept cache. -/
theorem after_of_not_fresh (h : c.fresh a = false) : c.after a = c.sweep a.now := by
  have hhas : (c.sweep a.now).seen.has a.jti = true := by
    rw [← Bool.not_eq_false, ← fresh_iff, h]
    decide
  unfold after
  rw [consume_of_has hhas]

/-- **A call that records its ticket** puts it at the end of the queue. -/
theorem after_entries (h : c.fresh a = true) :
    (c.after a).seen.entries = push c.maxEntries (c.sweep a.now).seen.entries (a.jti, a.exp) := by
  have hnot := fresh_iff.mp h
  have hevict := evict_entries (M := (c.sweep a.now).maxEntries) (le_refl (c.sweep a.now).seen.size)
  have hnew : (evict (c.sweep a.now).maxEntries (c.sweep a.now).seen.size (c.sweep a.now).seen).has a.jti =
      false := by
    rw [← Bool.not_eq_true, OrdMap.has_iff] at hnot ⊢
    refine fun hmem => hnot ?_
    unfold OrdMap.keys at hmem
    rw [hevict] at hmem
    exact (List.IsSuffix.map _ (shed_suffix _ _)).subset hmem
  unfold after consume insert
  rw [if_neg (by simp [hnot])]
  show (OrdMap.set _ _ _).entries = _
  rw [entries_set_new hnew, hevict, sweep_maxEntries]
  rfl

@[simp] theorem after_maxEntries : (c.after a).maxEntries = c.maxEntries := consume_maxEntries

theorem sweep_sublist (now : JsNumber) : (c.sweep now).seen.entries.Sublist c.seen.entries := by
  unfold sweep
  split_ifs
  · exact List.filter_sublist
  · exact List.Sublist.refl _

theorem after_size_le (h : c.seen.size ≤ max c.maxEntries 1) : (c.after a).seen.size ≤ max c.maxEntries 1 := by
  rcases hf : c.fresh a with _ | _
  · rw [after_of_not_fresh hf]
    exact le_trans size_sweep_le h
  · show (c.after a).seen.entries.length ≤ _
    rw [after_entries hf]
    exact length_push_le _ _ _

/-- The bound, after every run. -/
theorem size_run_le (M : ℕ) (calls : List ConsumeCall) :
    (run after (.new M) calls).maxEntries = M ∧ (run after (.new M) calls).seen.size ≤ max M 1 := by
  refine run_induct (J := fun _ (c : JtiReplayCache) => c.maxEntries = M ∧ c.seen.size ≤ max M 1)
    (C := fun _ _ _ => True) ⟨rfl, Nat.zero_le _⟩ (fun pre a h _ => ?_)
    (show Steps after (fun _ _ _ => True) (.new M) calls from fun _ _ _ _ => trivial)
  refine ⟨after_maxEntries.trans h.1, ?_⟩
  have hsize := @after_size_le (run after (.new M) pre) a
  rw [h.1] at hsize
  exact hsize h.2

/-! ### A recorded ticket -/

/-- The entry is in the cache with at most `k` entries behind it. -/
def Held (e : JsString × JsNumber) (k : ℕ) (c : JtiReplayCache) : Prop :=
  ∃ l₁ l₂, c.seen.entries = l₁ ++ e :: l₂ ∧ l₂.length ≤ k

variable {e : JsString × JsNumber} {k : ℕ}

theorem Held.sweep (h : Held e k c) {now : JsNumber} (hnow : now.val < e.2.val) : Held e k (c.sweep now) := by
  obtain ⟨l₁, l₂, heq, hlen⟩ := h
  unfold JtiReplayCache.sweep
  split_ifs
  · have hkept : (!decide (e.2.val ≤ now.val)) = true := by simpa using hnow
    refine ⟨l₁.filter fun e => !decide (e.2.val ≤ now.val), l₂.filter fun e => !decide (e.2.val ≤ now.val), ?_,
      le_trans (List.length_filter_le _ _) hlen⟩
    show c.seen.entries.filter _ = _
    rw [heq, List.filter_append, List.filter_cons_of_pos (by exact hkept)]
  · exact ⟨l₁, l₂, heq, hlen⟩

theorem Held.has (h : Held e k c) : c.seen.has e.1 = true := by
  obtain ⟨l₁, l₂, heq, -⟩ := h
  rw [OrdMap.has_iff, OrdMap.keys, heq]
  simp

/-- A call while the ticket has not expired: its own `jti` is refused, another one goes behind it. -/
theorem Held.after (h : Held e k c) (hnow : a.now.val < e.2.val) (hroom : k + (c.fresh a).toNat < c.maxEntries) :
    Held e (k + (c.fresh a).toNat) (c.after a) := by
  have hswept := h.sweep hnow
  rcases hf : c.fresh a with _ | _
  · rw [after_of_not_fresh hf]
    exact hswept
  · obtain ⟨l₁, l₂, heq, hlen⟩ := hswept
    rw [hf, Bool.toNat_true] at hroom
    have hroom' : l₂.length + 2 ≤ c.maxEntries := by omega
    obtain ⟨l, hl⟩ : ∃ l, push c.maxEntries (l₁ ++ e :: l₂) (a.jti, a.exp) = l ++ e :: (l₂ ++ [(a.jti, a.exp)]) :=
      push_keeps hroom' (a.jti, a.exp)
    refine ⟨l, l₂ ++ [(a.jti, a.exp)], ?_, ?_⟩
    · rw [after_entries hf, heq, hl]
    · rw [List.length_append, List.length_singleton, Bool.toNat_true]
      omega

theorem Held.run : ∀ {calls : List ConsumeCall} {k : ℕ} {c : JtiReplayCache}, Held e k c →
    (∀ a ∈ calls, a.now.val < e.2.val) → k + c.freshCount calls < c.maxEntries →
      Held e (k + c.freshCount calls) (run JtiReplayCache.after c calls)
  | [], _, _, h, _, _ => h
  | a :: calls, k, c, h, hnow, hroom => by
    rw [freshCount] at hroom ⊢
    have hstep := h.after (hnow a List.mem_cons_self) (by omega)
    rw [← Nat.add_assoc] at hroom ⊢
    exact Held.run hstep (fun b hb => hnow b (List.mem_cons_of_mem _ hb)) (by rw [after_maxEntries]; exact hroom)

/-- A ticket that has just been recorded is the newest one. -/
theorem held_of_fresh (h : c.fresh a = true) : Held (a.jti, a.exp) 0 (c.after a) :=
  ⟨_, [], after_entries h, le_rfl⟩

end JtiReplayCache

open JtiReplayCache

/-- **What the cache guarantees by itself.** -/
theorem replay_refused (M : ℕ) (hM : 1 ≤ M) (calls : List ConsumeCall)
    (hclock : calls.Pairwise fun a b => a.now.val ≤ b.now.val) :
    (∀ pre, pre <+: calls → (run after (.new M) pre).seen.size ≤ M ∧ (run after (.new M) pre).seen.keys.Nodup) ∧
    ∀ pre a mid b post, calls = pre ++ a :: (mid ++ b :: post) →
      (run after (.new M) pre).fresh a = true → b.jti = a.jti → b.now.val < a.exp.val →
      (run after (.new M) (pre ++ [a])).freshCount mid ≤ M - 1 →
      (run after (.new M) (pre ++ a :: mid)).fresh b = false := by
  constructor
  · intro pre _
    have hsize := (size_run_le M pre).2
    rw [max_eq_left hM] at hsize
    exact ⟨hsize, OrdMap.nodup_keys _⟩
  · rintro pre a mid b post rfl hfresh hjti hexp hcount
    have hmid : ∀ x ∈ mid, x.now.val ≤ b.now.val := by
      intro x hx
      have htail := (List.pairwise_cons.mp (List.pairwise_append.mp hclock).2.1).2
      exact (List.pairwise_append.mp htail).2.2 x hx b List.mem_cons_self
    have hbound : (run after (.new M) (pre ++ [a])).maxEntries = M := (size_run_le M _).1
    have hnew : Held (a.jti, a.exp) 0 (run after (.new M) (pre ++ [a])) := by
      rw [run_concat]
      exact held_of_fresh hfresh
    have hheld := hnew.run (fun x hx => lt_of_le_of_lt (hmid x hx) hexp) (by rw [hbound]; omega)
    rw [← run_append, List.append_assoc, List.singleton_append] at hheld
    have hhas := (hheld.sweep hexp).has
    rw [← Bool.not_eq_true, fresh_iff, hjti, hhas]
    decide

/-! ### What is dropped -/

theorem head_of_drops {c : JtiReplayCache} {a : ConsumeCall} (hsize : c.seen.size ≤ max c.maxEntries 1)
    {e : JsString × JsNumber} (h : c.Drops a e) : (c.sweep a.now).seen.entries.head? = some e := by
  obtain ⟨hmem, hgone⟩ := h
  rcases hf : c.fresh a with _ | _
  · rw [after_of_not_fresh hf, ← Bool.not_eq_true, OrdMap.has_iff] at hgone
    exact absurd (List.mem_map_of_mem hmem) hgone
  · refine head_of_shed (le_trans size_sweep_le hsize) hmem fun hshed => ?_
    rw [← Bool.not_eq_true, OrdMap.has_iff, OrdMap.keys, after_entries hf] at hgone
    exact hgone (List.mem_map_of_mem (List.mem_append_left _ hshed))

/-- The entries are in the order in which they expire. -/
def ByExpiry (c : JtiReplayCache) : Prop := c.seen.entries.Pairwise fun e e' => e.2.val ≤ e'.2.val

theorem byExpiry_new (M : ℕ) : ByExpiry (.new M) := List.Pairwise.nil

theorem ByExpiry.after {c : JtiReplayCache} {a : ConsumeCall} (h : ByExpiry c) (ha : c.InOrder a) :
    ByExpiry (c.after a) := by
  have hswept := h.sublist (sweep_sublist a.now)
  rcases hf : c.fresh a with _ | _
  · unfold ByExpiry
    rw [after_of_not_fresh hf]
    exact hswept
  · unfold ByExpiry
    rw [after_entries hf]
    refine List.pairwise_append.mpr ⟨hswept.sublist (shed_suffix _ _).sublist, List.pairwise_singleton _ _, ?_⟩
    intro e he e' he'
    rw [List.mem_singleton.mp he']
    exact ha (fresh_iff.mp hf) e ((sweep_sublist a.now).subset ((shed_suffix _ _).subset he))

/-- **What a full cache drops**, in a run that records its tickets in the order in which they expire. -/
theorem sheds_soonest (M : ℕ) (calls : List ConsumeCall)
    (horder : Steps after (fun _ c a => c.InOrder a) (.new M) calls) :
    Steps after (fun _ c a => ∀ e, c.Drops a e → ∀ e' ∈ (c.sweep a.now).seen.entries, e.2.val ≤ e'.2.val)
      (.new M) calls := by
  refine Steps.of_inv (J := fun _ c => ByExpiry c ∧ c.maxEntries = M ∧ c.seen.size ≤ max M 1)
    ⟨byExpiry_new M, rfl, Nat.zero_le _⟩ (fun pre a h ha => ?_) (fun pre a h _ => ?_) horder
  · refine ⟨h.1.after ha, ?_⟩
    have hrun := size_run_le M (pre ++ [a])
    rw [run_concat] at hrun
    exact hrun
  · obtain ⟨hsorted, hM, hsize⟩ := h
    intro e hdrop e' he'
    have hhead := head_of_drops (by rw [hM]; exact hsize) hdrop
    have hswept := hsorted.sublist (sweep_sublist a.now)
    obtain ⟨l, hl⟩ : ∃ l, ((run after (.new M) pre).sweep a.now).seen.entries = e :: l := by
      rcases hentries : ((run after (.new M) pre).sweep a.now).seen.entries with _ | ⟨x, l⟩
      · rw [hentries] at hhead
        cases hhead
      · rw [hentries] at hhead
        cases hhead
        exact ⟨l, rfl⟩
    rw [hl] at he' hswept
    rcases List.mem_cons.mp he' with rfl | he'
    · exact le_rfl
    · exact (List.pairwise_cons.mp hswept).1 e' he'

namespace Sample

/-- A ticket issued at 0 and one issued at 10, with the same lifetime of 100. -/
def early (now : ℕ) : ConsumeCall := ⟨js "a", .ofNat 100, .ofNat now⟩
def late (now : ℕ) : ConsumeCall := ⟨js "b", .ofNat 110, .ofNat now⟩
def third : ConsumeCall := ⟨js "c", .ofNat 130, .ofNat 30⟩

/-- One call that returns `true` in between: the ticket is still refused. -/
theorem early_refused :
    (run after (.new 2) ([] ++ early 10 :: [late 20])).fresh (early 30) = false :=
  (replay_refused 2 (by decide) [early 10, late 20, early 30] (by decide +kernel)).2 [] (early 10) [late 20]
    (early 30) [] rfl (by decide +kernel) rfl (by decide +kernel) (by decide +kernel)

/-- Two of them are too many. -/
example : (run after (.new 2) [early 10, late 20, third]).fresh (early 40) = true := by decide +kernel

theorem early_shed :
    (run after (.new 2) [early 10, late 20]).Drops third (js "a", .ofNat 100) ∧
    Steps after (fun _ c a => ∀ e, c.Drops a e → ∀ e' ∈ (c.sweep a.now).seen.entries, e.2.val ≤ e'.2.val)
      (.new 2) [early 10, late 20, third] :=
  ⟨⟨by decide +kernel, by decide +kernel⟩, sheds_soonest 2 [early 10, late 20, third] (by decide +kernel)⟩

/-- The ticket that was issued second is spent first: the full cache drops it, and the one that expires first
stays. -/
theorem sheds_later_expiry : ¬ ∀ (M : ℕ) (T : JsNumber) (calls : List ConsumeCall),
    (∀ a ∈ calls, ∃ iat : JsNumber, iat.add T = some a.exp ∧ iat.val ≤ a.now.val ∧ a.now.val ≤ a.exp.val) →
    (calls.Pairwise fun a b => a.now.val ≤ b.now.val) →
    Steps after (fun _ c a => ∀ e, c.Drops a e → ∀ e' ∈ (c.sweep a.now).seen.entries, e.2.val ≤ e'.2.val)
      (.new M) calls := by
  intro hall
  have hlife : ∀ a ∈ [late 10, early 20, third],
      ∃ iat : JsNumber, iat.add (.ofNat 100) = some a.exp ∧ iat.val ≤ a.now.val ∧ a.now.val ≤ a.exp.val := by
    intro a ha
    rcases List.mem_cons.mp ha with rfl | ha
    · exact ⟨.ofNat 10, by decide +kernel, by decide +kernel, by decide +kernel⟩
    rcases List.mem_cons.mp ha with rfl | ha
    · exact ⟨.ofNat 0, by decide +kernel, by decide +kernel, by decide +kernel⟩
    · rw [List.mem_singleton.mp ha]
      exact ⟨.ofNat 30, by decide +kernel, by decide +kernel, by decide +kernel⟩
  have hsteps := hall 2 (.ofNat 100) [late 10, early 20, third] hlife (by decide +kernel)
  exact absurd (hsteps [late 10, early 20] third [] rfl (js "b", .ofNat 110) ⟨by decide +kernel, by decide +kernel⟩
    (js "a", .ofNat 100) (by decide +kernel)) (by decide +kernel)

end Sample

end ConsensusNode.Tickets
