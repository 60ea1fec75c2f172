import ConsensusNode.Runtime.CacheIsolation

/-! # The life of a cached answer

Runs of overlapping calls of `serveProxyRequest` on one cache, with any clock: each lookup and each store is at the time
that the clock has then.

* `cache_cases`: what one event does to the cache.
* `response_cache`: the cache is bounded, what it answers is fresh, and what is dropped has run out or made room. -/

namespace ConsensusNode.Runtime

open Js Lib.Run

variable {p : Platform}

/-! ### Stores -/

/-- When the event reads the clock. -/
def ProxyEvent.time? : ProxyEvent → Option ℕ
  | .call _ _ now => some now
  | .responded _ _ now => some now
  | _ => none

/-- A call whose answer is stored. -/
structure CacheStore where
  id : ℕ
  r : ProxyServeRequest
  plan : ProxyPlan
  resp : UpstreamResponse
  time : ℕ
  ttl : ℕ

def CacheStore.value (st : CacheStore) : ProxyResult := .ofResponse st.plan st.resp

/-- The event is this store, under this key. -/
structure CacheStore.At (st : CacheStore) (s : ProxyServer) (e : ProxyEvent) (key : JsString) : Prop where
  event : e = .responded st.id (some st.resp) st.time
  pending : s.pending.get? st.id = some (.fetching st.r st.plan)
  under : storeUnder st.plan st.value = some (key, st.ttl)

/-- What is stored: the key of the plan, for as long as its profile says, if the status is a success. -/
theorem storeUnder_spec {plan : ProxyPlan} {result : ProxyResult} {key : JsString} {ttl : ℕ}
    (h : storeUnder plan result = some (key, ttl)) : plan.cacheKey = some key ∧ key ≠ [] ∧
      (∃ f, plan.profile = some f ∧ ttl = ttlSeconds f) ∧ 200 ≤ result.status ∧ result.status < 300 := by
  unfold storeUnder at h
  split at h
  · rename_i c k f hk hf
    split_ifs at h with hstatus
    cases h
    exact ⟨hk, List.cons_ne_nil _ _, ⟨f, hf, rfl⟩, hstatus.2⟩
  · cases h

/-! ### What an event does to the cache -/

theorem cachedProfileResult_cases (cache : ProfileCache) (key : JsString) (now : ℕ) :
    (cachedProfileResult cache key now).2 = cache ∨ ∃ entry, cache.get? key = some entry ∧ entry.expiresAt ≤ now ∧
      (cachedProfileResult cache key now).2 = cache.delete key := by
  unfold cachedProfileResult
  split
  · exact .inl rfl
  · rename_i entry hentry
    split_ifs with hexpired
    · exact .inr ⟨entry, hentry, hexpired, rfl⟩
    · exact .inl rfl

theorem cache_start (s : ProxyServer) (id : ℕ) (r : ProxyServeRequest) (plan : ProxyPlan) (now : ℕ) :
    (s.start id r plan now).cache = s.cache ∨ ∃ key entry, s.cache.get? key = some entry ∧ entry.expiresAt ≤ now ∧
      (s.start id r plan now).cache = s.cache.delete key := by
  unfold ProxyServer.start
  split
  · rename_i c k hk
    have hcases := cachedProfileResult_cases s.cache (c :: k) now
    split
    · rename_i result cache hlookup
      rw [hlookup] at hcases
      exact hcases.imp_right fun ⟨entry, h⟩ => ⟨c :: k, entry, h⟩
    · rename_i cache hlookup
      rw [hlookup] at hcases
      exact hcases.imp_right fun ⟨entry, h⟩ => ⟨c :: k, entry, h⟩
  · exact .inl rfl

theorem cache_continueFetch (s : ProxyServer) (id : ℕ) (r : ProxyServeRequest) (plan : ProxyPlan)
    (res : SafeResolution) : (s.continueFetch p id r plan res).cache = s.cache := by
  unfold ProxyServer.continueFetch
  dsimp only
  split <;> rfl

theorem cache_finish (s : ProxyServer) (id : ℕ) (plan : ProxyPlan) (resp : UpstreamResponse) (now : ℕ) :
    (s.finish id plan resp now).cache = s.cache ∨ ∃ key ttl, storeUnder plan (.ofResponse plan resp) = some (key, ttl) ∧
      (s.finish id plan resp now).cache = storeProfileResult s.cache key (.ofResponse plan resp) ttl now := by
  unfold ProxyServer.finish
  dsimp only
  split
  · rename_i key ttl hunder
    exact .inr ⟨key, ttl, hunder, rfl⟩
  · exact .inl rfl

/-- The event looks the key up when its entry has run out. -/
def RanOut (s : ProxyServer) (e : ProxyEvent) (key : JsString) : Prop :=
  ∃ t entry, e.time? = some t ∧ s.cache.get? key = some entry ∧ entry.expiresAt ≤ t

/-- **One event**: nothing happens to the cache, an entry that has run out is deleted, an answer is stored, or
everything is cleared. -/
theorem cache_cases (s : ProxyServer) (e : ProxyEvent) :
    (s.step p e).cache = s.cache ∨
    (∃ key, RanOut s e key ∧ (s.step p e).cache = s.cache.delete key) ∨
    (∃ st : CacheStore, ∃ key, st.At s e key ∧
      (s.step p e).cache = storeProfileResult s.cache key st.value st.ttl st.time) ∨
    (e = .clear ∧ (s.step p e).cache = ∅) := by
  cases e with
  | call id r now =>
    unfold ProxyServer.step
    dsimp only
    split_ifs
    · exact .inl rfl
    · split
      · exact .inl rfl
      · rename_i plan _
        rcases cache_start { s with calls := s.calls.set id r } id r plan now with h | ⟨key, entry, hentry, hexpired, h⟩
        · exact .inl h
        · exact .inr (.inl ⟨key, ⟨now, entry, rfl, hentry, hexpired⟩, h⟩)
  | checked id res =>
    unfold ProxyServer.step
    dsimp only
    split
    · exact .inl (cache_continueFetch s id _ _ _)
    · exact .inl rfl
    · exact .inl rfl
  | responded id resp now =>
    unfold ProxyServer.step
    dsimp only
    split
    · rename_i r plan resp hpending
      rcases cache_finish s id plan resp now with h | ⟨key, ttl, hunder, h⟩
      · exact .inl h
      · exact .inr (.inr (.inl ⟨⟨id, r, plan, resp, now, ttl⟩, key, ⟨rfl, hpending, hunder⟩, h⟩))
    · exact .inl rfl
    · exact .inl rfl
  | clear => exact .inr (.inr (.inr ⟨rfl, rfl⟩))

/-! ### The bound -/

/-- **The invariant**: not more entries than allowed, and no empty key, which would never be evicted. -/
structure Bounded (cache : ProfileCache) : Prop where
  size : cache.size ≤ MAX_PROFILE_CACHE_ENTRIES
  keys : [] ∉ cache.keys

theorem Bounded.delete {cache : ProfileCache} (h : Bounded cache) (key : JsString) : Bounded (cache.delete key) := by
  refine ⟨(OrdMap.size_delete_le cache key).trans h.size, fun hempty => ?_⟩
  rw [← OrdMap.has_iff, OrdMap.has_delete_iff, OrdMap.has_iff] at hempty
  exact h.keys hempty.2

/-- There is room after the oldest entry is gone. -/
theorem size_evictOldest_lt {cache : ProfileCache} (h : Bounded cache) :
    (evictOldest cache).size < MAX_PROFILE_CACHE_ENTRIES := by
  unfold evictOldest
  split_ifs with hfull
  · rcases hkeys : cache.keys with _ | ⟨_ | ⟨c, k⟩, keys⟩
    · have hsize := OrdMap.length_keys cache
      rw [hkeys] at hsize
      rw [← hsize] at hfull
      exact absurd hfull (by decide)
    · exact absurd (hkeys ▸ List.mem_cons_self) h.keys
    · have holdest : cache.oldest? = some (c :: k) := by
        unfold OrdMap.oldest?
        rw [hkeys]
        rfl
      rw [holdest]
      exact (OrdMap.size_delete_lt (hkeys ▸ List.mem_cons_self)).trans_le h.size
  · exact not_le.mp hfull

theorem Bounded.store {cache : ProfileCache} (h : Bounded cache) {key : JsString} (hkey : key ≠ [])
    (value : ProxyResult) (ttl now : ℕ) : Bounded (storeProfileResult cache key value ttl now) := by
  refine ⟨(OrdMap.size_set_le _ _ _).trans (size_evictOldest_lt h), fun hempty => ?_⟩
  rcases OrdMap.mem_keys_set.mp hempty with hnil | hold
  · exact hkey hnil.symm
  · obtain ⟨entry, hentry⟩ := OrdMap.mem_keys_iff.mp hold
    exact h.keys (OrdMap.mem_keys_iff.mpr ⟨entry, get?_evictOldest hentry⟩)

theorem Bounded.step {s : ProxyServer} (h : Bounded s.cache) (e : ProxyEvent) : Bounded (s.step p e).cache := by
  obtain hsame | ⟨key, -, hdeleted⟩ | ⟨st, key, hst, hstored⟩ | ⟨-, hcleared⟩ := cache_cases (p := p) s e
  · rw [hsame]
    exact h
  · rw [hdeleted]
    exact h.delete key
  · rw [hstored]
    exact h.store (storeUnder_spec hst.under).2.1 _ _ _
  · rw [hcleared]
    exact ⟨Nat.zero_le _, List.not_mem_nil⟩

/-! ### Where an entry comes from -/

/-- An event of the past has stored the entry. -/
def StoredBefore (p : Platform) (past : List ProxyEvent) (key : JsString) (entry : ProfileCacheEntry) : Prop :=
  ∃ pre e post, past = pre ++ e :: post ∧ ∃ st : CacheStore, st.At (serverAfter p pre) e key ∧
    entry = ⟨st.value, st.time + st.ttl * 1000⟩

theorem StoredBefore.concat {past : List ProxyEvent} {key : JsString} {entry : ProfileCacheEntry}
    (h : StoredBefore p past key entry) (e' : ProxyEvent) : StoredBefore p (past ++ [e']) key entry := by
  obtain ⟨pre, e, post, rfl, hst⟩ := h
  exact ⟨pre, e, post ++ [e'], by simp, hst⟩

/-- **The invariant of a run.** -/
structure CacheInv (p : Platform) (past : List ProxyEvent) (cache : ProfileCache) : Prop where
  bounded : Bounded cache
  stored : ∀ key entry, cache.get? key = some entry → StoredBefore p past key entry

theorem CacheInv.step {past : List ProxyEvent} (h : CacheInv p past (serverAfter p past).cache) (e : ProxyEvent) :
    CacheInv p (past ++ [e]) ((serverAfter p past).step p e).cache := by
  refine ⟨h.bounded.step e, fun key entry hentry => ?_⟩
  obtain hsame | ⟨key', -, hdeleted⟩ | ⟨st, key', hst, hstored⟩ | ⟨-, hcleared⟩ :=
    cache_cases (p := p) (serverAfter p past) e
  · rw [hsame] at hentry
    exact (h.stored key entry hentry).concat e
  · rw [hdeleted] at hentry
    exact (h.stored key entry (get?_of_delete hentry)).concat e
  · rw [hstored, storeProfileResult, OrdMap.get?_set] at hentry
    split_ifs at hentry with hkey
    · cases hentry
      exact ⟨past, e, [], rfl, st, hkey ▸ hst, rfl⟩
    · exact (h.stored key entry (get?_evictOldest hentry)).concat e
  · rw [hcleared] at hentry
    cases hentry

theorem cacheInv_run (p : Platform) (events : List ProxyEvent) : CacheInv p events (serverAfter p events).cache := by
  refine run_induct (J := fun past (s : ProxyServer) => CacheInv p past s.cache) (C := fun _ _ _ => True)
    ⟨⟨Nat.zero_le _, List.not_mem_nil⟩, fun key entry h => ?_⟩ (fun past e h _ => CacheInv.step h e)
    (fun _ _ _ _ => trivial)
  cases h

/-! ### Answers from the cache -/

section Answers

variable {past : List ProxyRecord} {id : ℕ} {result : ProxyResult}

theorem not_answered_self (h : past = past ++ [.answered id result]) : False := by
  have hlen := congrArg List.length h
  rw [List.length_append] at hlen
  exact absurd hlen (Nat.ne_of_lt (Nat.lt_succ_self _))

theorem eq_of_answered {x : ProxyRecord} (h : past ++ [x] = past ++ [.answered id result]) :
    x = .answered id result := List.head_eq_of_cons_eq (List.append_cancel_left h)

/-- Two records are not one. -/
theorem not_answered_two {x y : ProxyRecord} (h : (past ++ [x]) ++ [y] = past ++ [.answered id result]) : False := by
  have hlen := congrArg List.length h
  simp at hlen

end Answers

theorem cachedProfileResult_hit {cache : ProfileCache} {key : JsString} {now : ℕ} {result : ProxyResult}
    (h : (cachedProfileResult cache key now).1 = some result) : ∃ entry, cache.get? key = some entry ∧
      now < entry.expiresAt ∧ result = { entry.value with cached := true } := by
  unfold cachedProfileResult at h
  split at h
  · cases h
  · rename_i entry hentry
    split_ifs at h with hexpired
    cases h
    exact ⟨entry, hentry, not_le.mp hexpired, rfl⟩

theorem answered_start {s : ProxyServer} {id' : ℕ} {r : ProxyServeRequest} {plan : ProxyPlan} {now id : ℕ}
    {result : ProxyResult} (h : (s.start id' r plan now).history = s.history ++ [.answered id result]) :
    id' = id ∧ ∃ key entry, plan.cacheKey = some key ∧ s.cache.get? key = some entry ∧ now < entry.expiresAt ∧
      result = { entry.value with cached := true } := by
  unfold ProxyServer.start at h
  split at h
  · rename_i c k hk
    split at h
    · rename_i found cache hlookup
      have heq := eq_of_answered h
      cases heq
      obtain ⟨entry, hentry⟩ := cachedProfileResult_hit (congrArg Prod.fst hlookup)
      exact ⟨rfl, c :: k, entry, hk, hentry⟩
    · exact (not_answered_self h).elim
  · exact (not_answered_self h).elim

theorem answered_finish {s : ProxyServer} {id' : ℕ} {plan : ProxyPlan} {resp : UpstreamResponse} {now id : ℕ}
    {result : ProxyResult} (h : (s.finish id' plan resp now).history = s.history ++ [.answered id result]) :
    result.cached = false := by
  unfold ProxyServer.finish at h
  dsimp only at h
  split at h
  · exact (not_answered_two h).elim
  · have heq := eq_of_answered h
    cases heq
    rfl

/-- What a call that is answered from the cache has found there. -/
theorem cachedAnswer_spec {s : ProxyServer} {e : ProxyEvent} {id : ℕ} {result : ProxyResult}
    (hcached : result.cached = true) (h : (s.step p e).history = s.history ++ [.answered id result]) :
    ∃ r t plan key entry, e = .call id r t ∧ planRequest p r = .ok plan ∧ plan.cacheKey = some key ∧
      s.cache.get? key = some entry ∧ t < entry.expiresAt ∧ result = { entry.value with cached := true } := by
  cases e with
  | call id' r now =>
    unfold ProxyServer.step at h
    dsimp only at h
    split_ifs at h
    · exact (not_answered_self h).elim
    · split at h
      · have heq := eq_of_answered h
        cases heq
      · rename_i plan hplan
        obtain ⟨rfl, key, entry, hfound⟩ := answered_start h
        exact ⟨r, now, plan, key, entry, rfl, hplan, hfound⟩
  | checked id' res =>
    unfold ProxyServer.step at h
    dsimp only at h
    split at h
    · unfold ProxyServer.continueFetch at h
      dsimp only at h
      split at h <;> exact (not_answered_two h).elim
    · have heq := eq_of_answered h
      cases heq
    · exact (not_answered_self h).elim
  | responded id' resp now =>
    unfold ProxyServer.step at h
    dsimp only at h
    split at h
    · rw [answered_finish h] at hcached
      cases hcached
    · have heq := eq_of_answered h
      cases heq
    · exact (not_answered_self h).elim
  | clear => exact (not_answered_self h).elim

/-! ### Freshness -/

/-- An accepted `cache_ttl` is a whole number of seconds. -/
theorem normalizeCacheTtl_ofNat {v : Option Json} {f : ProxyExecutionProfileV1}
    (h : normalizeCacheTtl v = .ok f.cache_ttl) : f.cache_ttl = .ofNat (ttlSeconds f) := by
  unfold ttlSeconds
  unfold normalizeCacheTtl at h
  split at h
  · rw [← Except.ok.inj h]
    rfl
  · obtain ⟨_ | x, -, hx⟩ := bind_eq_ok.mp h
    · cases hx
    · dsimp only at hx
      split_ifs at hx with hc
      rw [← Except.ok.inj hx]
      simp only [Bool.and_eq_true, Bool.not_eq_true'] at hc
      obtain ⟨⟨hint, hlow⟩, -⟩ := hc
      cases x with
      | fin q hq =>
        -- an integer that is not below one
        have hden : q.den = 1 := of_decide_eq_true hint
        have hone : (1 : ℚ) ≤ q := by
          simpa [JsNumber.lt, JsNumber.val, JsNumber.ofNat, JsNumber.ofInt] using hlow
        have hpos : 0 ≤ q.num := Rat.num_nonneg.mpr (zero_le_one.trans hone)
        have hval : q = ((q.num.toNat : ℕ) : ℤ) := by
          rw [Int.toNat_of_nonneg hpos]
          exact (Rat.den_eq_one_iff q).mp hden |>.symm
        simp only [JsNumber.ofNat, JsNumber.ofInt, JsNumber.fin.injEq]
        exact hval
      | posInf => cases hint
      | negInf => cases hint

/-- The value of `cache_ttl`. -/
theorem cache_ttl_eq {r : ProxyServeRequest} {plan : ProxyPlan} {key : JsString} {f : ProxyExecutionProfileV1}
    (hplan : planRequest p r = .ok plan) (hk : plan.cacheKey = some key) (hf : plan.profile = some f) :
    f.cache_ttl = .ofNat (ttlSeconds f) := by
  obtain ⟨input, q, _, hprepared, hprofile, -⟩ := planRequest_cacheKey hplan hk
  obtain rfl : f = q.profile := Option.some_injective _ (hf.symm.trans hprofile)
  obtain ⟨_, -, -, -, -, -, httl, -⟩ := normalize_eq_ok.mp (prepare_eq_ok.mp hprepared).1
  exact normalizeCacheTtl_ofNat httl

/-- The clock does not go back. -/
def ClockForward (events : List ProxyEvent) : Prop := (events.filterMap ProxyEvent.time?).Pairwise (· ≤ ·)

/-- **A fresh answer**: it was stored before with a success status, and less than `cache_ttl` of the requesting
profile ago. -/
structure FreshAnswer (p : Platform) (past : List ProxyEvent) (e : ProxyEvent) (id : ℕ) (result : ProxyResult)
    (r : ProxyServeRequest) (t : ℕ) (plan : ProxyPlan) (f : ProxyExecutionProfileV1) (key : JsString)
    (st : CacheStore) : Prop where
  event : e = .call id r t
  planned : planRequest p r = .ok plan
  profile : plan.profile = some f
  cacheKey : plan.cacheKey = some key
  ttl : f.cache_ttl = .ofNat (ttlSeconds f)
  stored : ∃ pre e₁ post, past = pre ++ e₁ :: post ∧ st.At (serverAfter p pre) e₁ key
  value : result = { st.value with cached := true }
  success : 200 ≤ st.value.status ∧ st.value.status < 300
  fresh : t < st.time + 1000 * ttlSeconds f
  earlier : ClockForward (past ++ [e]) → st.time ≤ t

theorem ClockForward.le {past : List ProxyEvent} {e e₁ : ProxyEvent} (h : ClockForward (past ++ [e])) (hmem : e₁ ∈ past)
    {s t : ℕ} (hs : e₁.time? = some s) (ht : e.time? = some t) : s ≤ t := by
  unfold ClockForward at h
  rw [List.filterMap_append, List.pairwise_append] at h
  refine h.2.2 s (List.mem_filterMap.mpr ⟨e₁, hmem, hs⟩) t ?_
  rw [List.mem_filterMap]
  exact ⟨e, List.mem_singleton_self e, ht⟩

theorem fresh_cachedAnswer (hp : p.CollisionFree) (ha : p.AsciiCase) {past : List ProxyEvent} {e : ProxyEvent} {id : ℕ}
    {result : ProxyResult} (hcached : result.cached = true)
    (h : ((serverAfter p past).step p e).history = (serverAfter p past).history ++ [.answered id result]) :
    ∃ r t plan f key st, FreshAnswer p past e id result r t plan f key st := by
  obtain ⟨r, t, plan, key, entry, rfl, hplan, hk, hentry, hfresh, rfl⟩ := cachedAnswer_spec hcached h
  obtain ⟨pre, e₁, post, hpast, st, hst, rfl⟩ := (cacheInv_run p past).stored key entry hentry
  obtain ⟨hk₁, -, ⟨f₁, hf₁, httl⟩, hstatus⟩ := storeUnder_spec hst.under
  obtain ⟨-, hplan₁, -⟩ := (serverInv_run p pre).stage st.id _ hst.pending
  -- requests with one key have one profile
  have hsame := cacheKey_inj hp ha hplan₁ hplan hk₁ hk
  have hf : plan.profile = some f₁ := hsame.profile ▸ hf₁
  refine ⟨r, t, plan, f₁, key, st, rfl, hplan, hf, hk, cache_ttl_eq hplan hk hf, ⟨pre, e₁, post, hpast, hst⟩, rfl,
    hstatus, ?_, fun hclock => ?_⟩
  · rw [httl] at hfresh
    dsimp only at hfresh
    omega
  · have hmem : e₁ ∈ past := by
      rw [hpast]
      exact List.mem_append_right _ List.mem_cons_self
    exact hclock.le hmem (by rw [hst.event]; rfl) rfl

/-! ### What becomes of an entry -/

/-- **How an entry that has not run out can go**: all are cleared, another answer is stored under its key, or it is the
oldest one when an answer is stored and the cache is full. -/
inductive Displaced (s : ProxyServer) (e : ProxyEvent) (key : JsString) : Prop
  | cleared (h : e = .clear)
  | overwritten (st : CacheStore) (h : st.At s e key)
  | evicted (st : CacheStore) (key' : JsString) (h : st.At s e key') (full : MAX_PROFILE_CACHE_ENTRIES ≤ s.cache.size)
      (oldest : s.cache.oldest? = some key)

theorem get?_evictOldest_of_ne {cache : ProfileCache} {key : JsString} {entry : ProfileCacheEntry}
    (h : cache.get? key = some entry) :
    (evictOldest cache).get? key = some entry ∨
      (MAX_PROFILE_CACHE_ENTRIES ≤ cache.size ∧ cache.oldest? = some key) := by
  unfold evictOldest
  split_ifs with hfull
  · split
    · rename_i c k holdest
      by_cases hkey : key = c :: k
      · exact .inr ⟨hfull, hkey ▸ holdest⟩
      · exact .inl ((OrdMap.get?_delete_ne cache hkey).trans h)
    · exact .inl h
  · exact .inl h

theorem kept_or_displaced (s : ProxyServer) (e : ProxyEvent) {key : JsString} {entry : ProfileCacheEntry}
    (hentry : s.cache.get? key = some entry) (hfresh : ∀ t, e.time? = some t → t < entry.expiresAt) :
    (s.step p e).cache.get? key = some entry ∨ Displaced s e key := by
  obtain hsame | ⟨key', ⟨t, entry', ht, hentry', hexpired⟩, hdeleted⟩ | ⟨st, key', hst, hstored⟩ | ⟨hclear, -⟩ :=
    cache_cases (p := p) s e
  · exact .inl (hsame ▸ hentry)
  · have hne : key ≠ key' := by
      rintro rfl
      rw [hentry] at hentry'
      cases hentry'
      exact absurd hexpired (not_le.mpr (hfresh t ht))
    rw [hdeleted, OrdMap.get?_delete_ne _ hne]
    exact .inl hentry
  · by_cases hkey : key = key'
    · exact .inr (.overwritten st (hkey ▸ hst))
    · rw [hstored, storeProfileResult, OrdMap.get?_set_ne _ _ hkey]
      exact (get?_evictOldest_of_ne hentry).imp_right fun h => .evicted st key' hst h.1 h.2
  · exact .inr (.cleared hclear)

/-- **The response cache** is bounded and never stale, in every run. -/
theorem response_cache (p : Platform) (hp : p.CollisionFree) (ha : p.AsciiCase) (events : List ProxyEvent) :
    (serverAfter p events).cache.size ≤ MAX_PROFILE_CACHE_ENTRIES ∧
    Steps (ProxyServer.step p) (fun past s e =>
      (∀ id result, result.cached = true → (s.step p e).history = s.history ++ [.answered id result] →
        ∃ r t plan f key st, FreshAnswer p past e id result r t plan f key st) ∧
      ∀ key entry, s.cache.get? key = some entry → (∀ t, e.time? = some t → t < entry.expiresAt) →
        (s.step p e).cache.get? key = some entry ∨ Displaced s e key) {} events := by
  refine ⟨(cacheInv_run p events).bounded.size, fun past e post _ => ⟨fun id result hcached h => ?_, ?_⟩⟩
  · exact fresh_cachedAnswer hp ha hcached h
  · exact fun key entry hentry hfresh => kept_or_displaced _ e hentry hfresh

namespace Sample

/-- A call that fetches, and the same call again within the time. -/
theorem hitRun_fresh : (serverAfter hitPlatform hitRun).cache.size ≤ MAX_PROFILE_CACHE_ENTRIES ∧
    Steps (ProxyServer.step hitPlatform) (fun past s e =>
      (∀ id result, result.cached = true →
        (s.step hitPlatform e).history = s.history ++ [.answered id result] →
        ∃ r t plan f key st, FreshAnswer hitPlatform past e id result r t plan f key st) ∧
      ∀ key entry, s.cache.get? key = some entry → (∀ t, e.time? = some t → t < entry.expiresAt) →
        (s.step hitPlatform e).cache.get? key = some entry ∨ Displaced s e key) {} hitRun :=
  response_cache hitPlatform hitPlatform_collisionFree ⟨fun _ _ => rfl, fun _ _ => rfl⟩ hitRun

/-- A call that fetches, and the same call again after the clock was set back. -/
def setBackRun : List ProxyEvent :=
  [.call 0 hitRequest 0, .checked 0 (some ⟨js "93.184.216.34", 4, js "api.example.com", false⟩),
    .responded 0 (some ⟨200, js "OK", [(js "etag", js "a")], [104, 105]⟩) 5000, .call 1 hitRequest 10]

/-- The second call is answered from the cache, and nothing was stored up to its time. -/
theorem setBack_stored_later : ¬ ∀ p : Platform, p.CollisionFree → p.AsciiCase → ∀ events,
    Steps (ProxyServer.step p) (fun past s e => ∀ id result t, e.time? = some t → result.cached = true →
      (s.step p e).history = s.history ++ [.answered id result] →
        ∃ pre e₁ post, past = pre ++ e₁ :: post ∧ ∃ st key, CacheStore.At st (serverAfter p pre) e₁ key ∧
          result = { st.value with cached := true } ∧ st.time ≤ t) {} events := by
  intro h
  obtain ⟨pre, e₁, post, hpast, st, key, hst, -, hle⟩ :=
    h hitPlatform hitPlatform_collisionFree ⟨fun _ _ => rfl, fun _ _ => rfl⟩ setBackRun
      (setBackRun.take 3) (.call 1 hitRequest 10) [] rfl 1 hitResult 10 rfl rfl (by decide +kernel)
  have hlate : ∀ e ∈ setBackRun.take 3, ∀ id resp now, e = .responded id resp now → now = 5000 := by
    rintro e he id resp now rfl
    simp only [setBackRun, List.take_succ_cons, List.take_zero, List.mem_cons, reduceCtorEq, List.not_mem_nil,
      or_false, false_or] at he
    cases he
    rfl
  have htime := hlate e₁ (hpast ▸ List.mem_append_right _ List.mem_cons_self) _ _ _ hst.event
  rw [htime] at hle
  exact absurd hle (by decide)

end Sample

end ConsensusNode.Runtime
