import Mathlib.Data.Finset.Card
import ConsensusNode.Tickets.RequestTicket

/-! # Tickets are used once

Runs of `verifyRequestTicket` on one replay cache. The acceptance window of a ticket ends at
`exp + 5`, but the sweep drops its entry from `exp` on; a sweep that runs in these five seconds forgets a
ticket that still verifies (`SweepForgets`).

* `accepted_once`: in a run with clocks that never decrease and fewer than `maxEntries` different `jti`s,
  in which no sweep forgets a ticket that still verifies, no token is accepted twice.

The invariant: an accepted ticket is still in the cache under its own expiry, or it was already expired at
some earlier call (`Remembered`). -/

namespace ConsensusNode.Tickets

open Js Lib.Run ConsensusNode.Runtime

variable (p : Platform)

/-- One call, with the values of the clock at its two reads. -/
structure Call where
  opts : VerifyRequestTicketOptions
  clock : JsNumber
  clock' : JsNumber

namespace Call

/-- The time the claims are checked at. -/
def time (c : Call) : JsNumber := c.opts.now.getD c.clock

/-- The time the `jti` is spent at. -/
def time' (c : Call) : JsNumber := c.opts.now.getD c.clock'

end Call

/-- The cache, and the tokens accepted so far with their claims. -/
structure Ledger where
  cache : JtiReplayCache
  accepted : List (JsString × TicketClaims)

namespace Ledger

/-- A new cache. -/
def new (maxEntries : ℕ) : Ledger := ⟨.new maxEntries, []⟩

/-- A call on the cache. -/
def step (s : Ledger) (c : Call) : Ledger :=
  match verifyRequestTicket p c.clock c.clock' c.opts (some s.cache) with
  | (.ok v, cache) => ⟨cache.getD s.cache, s.accepted ++ [(c.opts.token, v.claims)]⟩
  | (.error _, cache) => ⟨cache.getD s.cache, s.accepted⟩

/-- The `jti`s accepted so far. -/
def jtis (s : Ledger) : Finset JsString := (s.accepted.map fun a => a.2.jti).toFinset

end Ledger

/-- The clock never goes back, within a call and from call to call. -/
def ClocksMonotone (calls : List Call) : Prop :=
  (calls.flatMap fun c => [c.time.val, c.time'.val]).Pairwise (· ≤ ·)

/-- The call reaches the cache, its sweep is due, and an entry that has expired there belongs to a
ticket that still verifies at this call. -/
def SweepForgets (s : Ledger) (c : Call) : Prop :=
  (∃ v, checkRequestTicket p c.clock c.opts = .ok v) ∧ s.cache.sweepDue c.time' = true ∧
    ∃ jti exp, s.cache.seen.get? jti = some exp ∧ exp.val ≤ c.time'.val ∧
      isExpired exp DEFAULT_CLOCK_TOLERANCE_SEC c.time = false

variable {p}

/-! ### The claims of a token -/

/-- The token carries these claims, whatever key it is verified with. -/
def Carries (token : JsString) (c : TicketClaims) : Prop :=
  ∃ t raw, tokenParts token = .ok t ∧ parse (decodeUtf8 t.message) = some raw ∧
    raw.field? (js "jti") = some (.str c.jti) ∧ raw.field? (js "exp") = some (.num c.exp)

theorem Carries.unique {token : JsString} {c d : TicketClaims} (hc : Carries token c)
    (hd : Carries token d) : c.jti = d.jti ∧ c.exp = d.exp := by
  obtain ⟨t, raw, ht, hraw, hj, he⟩ := hc
  obtain ⟨t', raw', ht', hraw', hj', he'⟩ := hd
  rw [ht] at ht'
  cases ht'
  rw [hraw] at hraw'
  cases hraw'
  rw [hj] at hj'
  rw [he] at he'
  simp only [Option.some.injEq, Json.str.injEq] at hj'
  simp only [Option.some.injEq, Json.num.injEq] at he'
  exact ⟨hj', he'⟩

theorem carries_of_check {clock : JsNumber} {opts : VerifyRequestTicketOptions}
    {v : VerifiedRequestTicket} (h : checkRequestTicket p clock opts = .ok v) :
    Carries opts.token v.claims := by
  obtain ⟨⟨t, raw, ht, -, hraw, hacc⟩, -⟩ := checkRequestTicket_eq_ok h
  exact ⟨t, raw, ht, hraw, hacc.jti, hacc.exp⟩

theorem unexpired_of_check {c : Call} (htol : c.opts.clockToleranceSec = none)
    {v : VerifiedRequestTicket} (h : checkRequestTicket p c.clock c.opts = .ok v) :
    isExpired v.claims.exp DEFAULT_CLOCK_TOLERANCE_SEC c.time = false := by
  obtain ⟨⟨t, raw, -, -, -, hacc⟩, -⟩ := checkRequestTicket_eq_ok h
  have := hacc.unexpired
  rw [htol] at this
  exact this

theorem isExpired_mono {exp skew a b : JsNumber} (hab : a.val ≤ b.val)
    (h : isExpired exp skew a = true) : isExpired exp skew b = true := by
  unfold isExpired JsNumber.lt at *
  split at h
  · rename_i x y hx hy
    cases hy
    rw [hx]
    simp only [decide_eq_true_eq] at h ⊢
    exact lt_of_lt_of_le h hab
  · cases h

/-! ### One call -/

variable {s : Ledger} {c : Call}

/-- The outcomes of a call: rejected before the cache, refused by it, or accepted. -/
theorem step_cases (hM : s.cache.seen.size < s.cache.maxEntries) :
    Ledger.step p s c = s ∨
    (∃ v, checkRequestTicket p c.clock c.opts = .ok v ∧
      Ledger.step p s c = ⟨s.cache.sweep c.time', s.accepted⟩) ∨
    (∃ v, checkRequestTicket p c.clock c.opts = .ok v ∧
      (s.cache.sweep c.time').seen.has v.claims.jti = false ∧
      Ledger.step p s c = ⟨{ s.cache.sweep c.time' with
          seen := (s.cache.sweep c.time').seen.set v.claims.jti v.claims.exp },
        s.accepted ++ [(c.opts.token, v.claims)]⟩) := by
  unfold Ledger.step verifyRequestTicket
  cases h : checkRequestTicket p c.clock c.opts with
  | error e => exact .inl rfl
  | ok v =>
    right
    cases hs : (s.cache.sweep c.time').seen.has v.claims.jti with
    | true =>
      have hc := @JtiReplayCache.consume_of_has _ _ v.claims.exp _ hs
      left
      refine ⟨v, rfl, ?_⟩
      unfold Call.time' at hc
      simp only [hc]
      rfl
    | false =>
      have hc := @JtiReplayCache.consume_of_not_has _ _ v.claims.exp _ hs hM
      right
      refine ⟨v, rfl, hs, ?_⟩
      unfold Call.time' at hc
      simp only [hc]
      rfl

theorem accepted_step (p : Platform) (s : Ledger) (c : Call) :
    s.accepted <+: (Ledger.step p s c).accepted := by
  unfold Ledger.step
  split
  · exact List.prefix_append _ _
  · exact List.prefix_rfl

theorem accepted_run (p : Platform) : ∀ (calls : List Call) (s : Ledger),
    s.accepted <+: (run (Ledger.step p) s calls).accepted
  | [], _ => List.prefix_rfl
  | c :: calls, s => (accepted_step p s c).trans (accepted_run p calls _)

/-! ### The invariant -/

/-- Still in the cache, or expired at some earlier call. -/
def Remembered (pre : List Call) (s : Ledger) (a : TicketClaims) : Prop :=
  s.cache.seen.get? a.jti = some a.exp ∨
    ∃ c ∈ pre, isExpired a.exp DEFAULT_CLOCK_TOLERANCE_SEC c.time = true

/-- What holds after the calls `pre` on a cache with bound `M`. -/
structure Inv (M : ℕ) (pre : List Call) (s : Ledger) : Prop where
  bound : s.cache.maxEntries = M
  keys : ∀ k ∈ s.cache.seen.keys, k ∈ s.jtis
  carries : ∀ a ∈ s.accepted, Carries a.1 a.2
  remembered : ∀ a ∈ s.accepted, Remembered pre s a.2
  nodup : (s.accepted.map Prod.fst).Nodup

theorem Inv.size_le {M : ℕ} {pre : List Call} (h : Inv M pre s) :
    s.cache.seen.size ≤ s.jtis.card := by
  rw [← s.cache.seen.length_keys, ← List.toFinset_card_of_nodup s.cache.seen.nodup_keys]
  refine Finset.card_le_card fun k hk => h.keys k (List.mem_toFinset.mp hk)

/-- What the sweep of a call leaves of an accepted ticket. -/
theorem remembered_sweep {pre : List Call} (hf : ¬ SweepForgets p s c)
    {v : VerifiedRequestTicket} (hv : checkRequestTicket p c.clock c.opts = .ok v)
    {a : TicketClaims} (ha : Remembered pre s a) :
    (s.cache.sweep c.time').seen.get? a.jti = some a.exp ∨
      ∃ d ∈ pre ++ [c], isExpired a.exp DEFAULT_CLOCK_TOLERANCE_SEC d.time = true := by
  rcases ha with hin | ⟨d, hd, hexp⟩
  · by_cases hdrop : s.cache.sweepDue c.time' = true ∧ a.exp.val ≤ c.time'.val
    · right
      refine ⟨c, by simp, ?_⟩
      by_contra hne
      exact hf ⟨⟨v, hv⟩, hdrop.1, a.jti, a.exp, hin, hdrop.2, by simpa using hne⟩
    · exact .inl (JtiReplayCache.get?_sweep.mpr ⟨hin, hdrop⟩)
  · exact .inr ⟨d, by simp [hd], hexp⟩

/-- A token that was accepted before cannot pass again, if its claims are remembered. -/
theorem not_accepted_again {pre : List Call} (htol : c.opts.clockToleranceSec = none)
    (hmono : ∀ d ∈ pre, d.time.val ≤ c.time.val) {v : VerifiedRequestTicket}
    (hv : checkRequestTicket p c.clock c.opts = .ok v) {a : TicketClaims}
    (hjti : a.jti = v.claims.jti) (hexp : a.exp = v.claims.exp)
    (ha : (s.cache.sweep c.time').seen.get? a.jti = some a.exp ∨
      ∃ d ∈ pre ++ [c], isExpired a.exp DEFAULT_CLOCK_TOLERANCE_SEC d.time = true) :
    (s.cache.sweep c.time').seen.has v.claims.jti = true := by
  have hle : ∀ d ∈ pre ++ [c], d.time.val ≤ c.time.val := by
    intro d hd
    rcases List.mem_append.mp hd with hd | hd
    · exact hmono d hd
    · rw [List.mem_singleton.mp hd]
  rcases ha with hin | ⟨d, hd, hx⟩
  · rw [← hjti, OrdMap.has_iff, OrdMap.mem_keys_iff]
    exact ⟨_, hin⟩
  · have h1 := isExpired_mono (hle d hd) hx
    rw [hexp, unexpired_of_check htol hv] at h1
    cases h1

theorem Inv.step {M : ℕ} {pre : List Call} (h : Inv M pre s)
    (htol : c.opts.clockToleranceSec = none) (hmono : ∀ d ∈ pre, d.time.val ≤ c.time.val)
    (hM : s.jtis.card < M) (hf : ¬ SweepForgets p s c) :
    Inv M (pre ++ [c]) (Ledger.step p s c) := by
  have hsize : s.cache.seen.size < s.cache.maxEntries := by
    rw [h.bound]; exact lt_of_le_of_lt h.size_le hM
  have hkeys : ∀ k ∈ (s.cache.sweep c.time').seen.keys, k ∈ s.jtis := by
    intro k hk
    obtain ⟨e, he⟩ := OrdMap.mem_keys_iff.mp hk
    exact h.keys k (OrdMap.mem_keys_iff.mpr ⟨e, (JtiReplayCache.get?_sweep.mp he).1⟩)
  rcases step_cases (p := p) (c := c) hsize with he | ⟨v, hv, he⟩ | ⟨v, hv, hfresh, he⟩
  · rw [he]
    refine ⟨h.bound, h.keys, h.carries, fun a ha => ?_, h.nodup⟩
    rcases h.remembered a ha with hin | ⟨d, hd, hx⟩
    · exact .inl hin
    · exact .inr ⟨d, by simp [hd], hx⟩
  · rw [he]
    exact ⟨by rw [← h.bound]; exact JtiReplayCache.sweep_maxEntries, hkeys, h.carries,
      fun a ha => remembered_sweep hf hv (h.remembered a ha), h.nodup⟩
  · rw [he]
    have hnew : c.opts.token ∉ s.accepted.map Prod.fst := by
      intro hmem
      obtain ⟨⟨t, a⟩, ha, rfl⟩ := List.mem_map.mp hmem
      obtain ⟨hjti, hexp⟩ := (h.carries _ ha).unique (carries_of_check hv)
      have := not_accepted_again htol hmono hv hjti hexp
        (remembered_sweep hf hv (h.remembered _ ha))
      rw [hfresh] at this
      cases this
    refine ⟨by rw [← h.bound]; exact JtiReplayCache.sweep_maxEntries, ?_, ?_, ?_, ?_⟩
    · intro k hk
      simp only [Ledger.jtis, List.map_append, List.toFinset_append, Finset.mem_union]
      rcases OrdMap.mem_keys_set.mp hk with rfl | hk
      · right; simp
      · left; exact hkeys k hk
    · intro a ha
      rcases List.mem_append.mp ha with ha | ha
      · exact h.carries a ha
      · rw [List.mem_singleton.mp ha]
        exact carries_of_check hv
    · intro a ha
      rcases List.mem_append.mp ha with ha | ha
      · rcases remembered_sweep hf hv (h.remembered a ha) with hin | hx
        · left
          have hne : a.2.jti ≠ v.claims.jti := by
            intro hj
            rw [OrdMap.not_has_iff, ← hj, hin] at hfresh
            cases hfresh
          show ((s.cache.sweep c.time').seen.set _ _).get? _ = _
          rw [OrdMap.get?_set_ne _ _ hne]
          exact hin
        · exact .inr hx
      · rw [List.mem_singleton.mp ha]
        exact .inl (OrdMap.get?_set_self _ _ _)
    · rw [List.map_append, List.nodup_append]
      refine ⟨h.nodup, by simp, fun a ha b hb hab => hnew ?_⟩
      simp only [List.map_cons, List.map_nil, List.mem_singleton] at hb
      rw [← hb, ← hab]
      exact ha

/-! ### Runs -/

theorem time_le_of_monotone {pre post : List Call} (h : ClocksMonotone (pre ++ c :: post)) :
    ∀ d ∈ pre, d.time.val ≤ c.time.val := by
  intro d hd
  unfold ClocksMonotone at h
  rw [List.flatMap_append, List.pairwise_append] at h
  exact h.2.2 _ (List.mem_flatMap.mpr ⟨d, hd, by simp⟩) _ (by simp)

/-- **Single use.** In a run on a new cache with bound `M`, with clocks that never decrease, the default
tolerance, fewer than `M` different `jti`s accepted and no sweep that forgets a ticket that still
verifies, no token is accepted twice. -/
theorem accepted_once (p : Platform) (M : ℕ) (calls : List Call) (hclock : ClocksMonotone calls)
    (htol : ∀ c ∈ calls, c.opts.clockToleranceSec = none)
    (hM : (run (Ledger.step p) (.new M) calls).jtis.card < M)
    (hsweep : Steps (Ledger.step p) (fun _ s c => ¬ SweepForgets p s c) (.new M) calls)
    (t : JsString) :
    ((run (Ledger.step p) (.new M) calls).accepted.map Prod.fst).count t ≤ 1 := by
  have hinit : Inv M [] (.new M) := by
    refine ⟨rfl, ?_, ?_, ?_, List.nodup_nil⟩
    · intro k hk
      cases hk
    · intro a ha; cases ha
    · intro a ha; cases ha
  have hsteps : Steps (Ledger.step p) (fun pre s c => c.opts.clockToleranceSec = none ∧
      (∀ d ∈ pre, d.time.val ≤ c.time.val) ∧ s.jtis.card < M ∧ ¬ SweepForgets p s c)
      (.new M) calls := by
    intro pre c post e
    subst e
    refine ⟨htol c (by simp), time_le_of_monotone hclock, lt_of_le_of_lt ?_ hM,
      hsweep pre c post rfl⟩
    have hp : (run (Ledger.step p) (.new M) pre).accepted <+:
        (run (Ledger.step p) (.new M) (pre ++ c :: post)).accepted := by
      rw [run_append]
      exact accepted_run p (c :: post) _
    refine Finset.card_le_card fun k hk => ?_
    simp only [Ledger.jtis, List.mem_toFinset, List.mem_map] at hk ⊢
    obtain ⟨a, ha, rfl⟩ := hk
    exact ⟨a, hp.subset ha, rfl⟩
  have hinv := run_induct (J := Inv M) hinit
    (fun pre c hi hc => hi.step hc.1 hc.2.1 hc.2.2.1 hc.2.2.2) hsteps
  exact List.nodup_iff_count_le_one.mp hinv.nodup t

/-! ### A run that accepts a ticket twice

The ticket expires at `1700000200`. It is accepted at `1700000150`; at `1700000203` the sweep drops it,
and it still verifies. -/

/-- The orchestrator's key. -/
def orchestratorKey : Key := beBytes 32 0xea4a6c63e29c520abef5507b132ec5f9954776aebebe7b92421eea691446d22c

def sampleRequest : DedupeParams where
  target_url := js "https://api.example.com/"
  method := js "GET"
  headers := none
  body := none
  profile_hash := none

/-- The digest of the canonical form of `sampleRequest`. -/
def sampleDigest : Bytes := beBytes 32 0xdb7787d2b2daf8491543ced98d426fc4a4ccc176fe1ec4c1dc62e979c4b25007

/-- The signed claims of a ticket for `sampleRequest` at the node `node-test`. -/
def sampleMessage : Bytes :=
  let input : IssueTicketInput :=
    { nodeId := js "node-test", dedupeKey := hex sampleDigest, jti := js "jti-1" }
  utf8 (stringify (claimsJson input (JsNumber.ofNat 1700000140)))

def sampleFooter : Bytes := utf8 (stringify (.obj [(js "kid", .str (js "orchestrator-1"))]))

def sampleSignature : Bytes :=
  beBytes 64 0xa75d3192a5bcf8ffb4fcc6dccfc71e48ccd402614a9b13158887ce1bf5c9109eb7343709dec3cf8ac3e0a5fa8714bbd98ca8262cdf7ba215ad6c477a429f2f05

/-- The ticket. -/
def sampleToken : JsString :=
  HEADER ++ base64url (sampleMessage ++ sampleSignature) ++ unit '.' :: base64url sampleFooter

/-- The digest, the signature and the URL that the calls below need. -/
def sampleTables : Tables where
  digests := [(utf8 (stableStringify (.obj (canonicalRequest (js "GET") (js "https://api.example.com/") []
    (js "no-body") none))), sampleDigest)]
  signatures := [(orchestratorKey,
    pae [HEADER_BYTES, sampleMessage, sampleFooter, utf8 (js "node-test")], sampleSignature)]
  urls := [(js "https://api.example.com/", .plain (js "https:") (js "api.example.com") (js "/"))]

def sampleCall (now : ℕ) : Call where
  opts := {
    token := sampleToken
    nodeId := js "node-test"
    publicKey := orchestratorKey
    request := sampleRequest }
  clock := JsNumber.ofNat now
  clock' := JsNumber.ofNat now

/-- Two calls ten seconds apart: the second is refused. -/
def sampleRun : List Call := [sampleCall 1700000150, sampleCall 1700000160]

/-- Two calls on both sides of the expiry. -/
def sampleReplay : List Call := [sampleCall 1700000150, sampleCall 1700000203]

theorem clocksMonotone_sample {a b : ℕ} (h : a ≤ b) : ClocksMonotone [sampleCall a, sampleCall b] := by
  have hval : (JsNumber.ofNat a).val ≤ (JsNumber.ofNat b).val := by
    simp [JsNumber.ofNat, JsNumber.ofInt, JsNumber.val, h]
  simp [ClocksMonotone, sampleCall, Call.time, Call.time', hval]

theorem tolerance_sample {l : List ℕ} : ∀ c ∈ l.map sampleCall, c.opts.clockToleranceSec = none := by
  intro c hc
  obtain ⟨n, -, rfl⟩ := List.mem_map.mp hc
  rfl

theorem jtis_of_map {s : Ledger} {l : List (JsString × JsString)}
    (h : s.accepted.map (fun a => (a.1, a.2.jti)) = l) : s.jtis = (l.map Prod.snd).toFinset := by
  unfold Ledger.jtis
  rw [← h, List.map_map]
  rfl

theorem accepted_sampleRun :
    (run (Ledger.step sampleTables.platform) (.new 100000) sampleRun).accepted.map
      (fun a => (a.1, a.2.jti)) = [(sampleToken, js "jti-1")] := by
  decide +kernel

theorem accepted_sampleReplay :
    (run (Ledger.step sampleTables.platform) (.new 100000) sampleReplay).accepted.map
      (fun a => (a.1, a.2.jti)) = [(sampleToken, js "jti-1"), (sampleToken, js "jti-1")] := by
  decide +kernel

theorem sampleRun_accepted_once :
    ((run (Ledger.step sampleTables.platform) (.new 100000) sampleRun).accepted.map Prod.fst).count
      sampleToken ≤ 1 := by
  refine accepted_once sampleTables.platform 100000 sampleRun (clocksMonotone_sample (by omega))
    (tolerance_sample (l := [_, _])) ?_ ?_ sampleToken
  · rw [jtis_of_map accepted_sampleRun]
    decide
  · refine Steps.cons ?_ (Steps.cons ?_ Steps.nil)
    · rintro ⟨-, -, jti, exp, hget, -⟩
      cases hget
    · rintro ⟨-, hdue, -⟩
      revert hdue
      decide +kernel

theorem sampleReplay_accepted_twice :
    ClocksMonotone sampleReplay ∧ (∀ c ∈ sampleReplay, c.opts.clockToleranceSec = none) ∧
    (run (Ledger.step sampleTables.platform) (.new 100000) sampleReplay).jtis.card < 100000 ∧
    ((run (Ledger.step sampleTables.platform) (.new 100000) sampleReplay).accepted.map Prod.fst).count
      sampleToken = 2 := by
  refine ⟨clocksMonotone_sample (by omega), tolerance_sample (l := [_, _]), ?_, ?_⟩
  · rw [jtis_of_map accepted_sampleReplay]
    decide
  · have h := congrArg (List.map Prod.fst) accepted_sampleReplay
    rw [List.map_map] at h
    have h' : (run (Ledger.step sampleTables.platform) (.new 100000) sampleReplay).accepted.map Prod.fst
        = [sampleToken, sampleToken] := h
    rw [h']
    simp

end ConsensusNode.Tickets
