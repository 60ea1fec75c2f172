import ConsensusNode.Runtime.SsrfGuard

/-! # Verdicts on host names

Lookups of one name overlap, and the last one to end decides what the cache says. `answers` lists the
lookups of a run in the order in which they end; `DnsAnswer.entry` is what one of them leaves in the cache,
by its verdict (`verdict`) and not by the loop of the code.

* `resolveAnswer_records`: the loop finds the verdict.
* `cache_eq_lastEntry`: after every run the cache holds for a name what its last answer left.
* `dns_verdicts`: when a lookup succeeds, which address comes from the cache, and for how long. -/

namespace ConsensusNode.Runtime

open Js Lib Lib.Run

variable (p : Platform)

/-- At least one address, and no private record. -/
def AllSafe (rs : List DnsRecord) : Prop :=
  (∃ r ∈ rs, r.isAddress = true) ∧ ∀ r ∈ rs, Scan.flags p r = false

instance (rs : List DnsRecord) : Decidable (AllSafe p rs) := inferInstanceAs (Decidable (_ ∧ _))

/-- **The verdict on an answer**: its first address if it is safe altogether. -/
def verdict (rs : List DnsRecord) : Option DnsRecord :=
  if AllSafe p rs then rs.find? DnsRecord.isAddress else none

/-- The addresses of `dns.lookup` are texts that are not empty. -/
def AddressTexts (rs : List DnsRecord) : Prop := ∀ r ∈ rs, r.isAddress = true → r.address ≠ []

/-- A lookup that has ended. -/
structure DnsAnswer where
  hostname : JsString
  result : LookupResult
  time : ℕ

/-- What the answer leaves in the cache; an error of the language leaves nothing. -/
def DnsAnswer.entry (a : DnsAnswer) : Option DnsCacheEntry :=
  match a.result with
  | .records rs =>
    match verdict p rs with
    | some r => some ⟨false, some r.address, some r.family, a.time + DNS_TTL_MS⟩
    | none => some ⟨true, none, none, a.time + DNS_TTL_MS⟩
  | .failed => some ⟨true, none, none, a.time + DNS_NEG_TTL⟩
  | .typeError => none

/-- The lookup that an event ends. -/
def Guard.answerOf (s : Guard) : GuardEvent → Option DnsAnswer
  | .answer id result now => (s.pending.get? id).map fun h => ⟨h, result, now⟩
  | .call _ _ _ => none

/-- The lookups that end in a run from `s`. -/
def answers (s : Guard) : List GuardEvent → List DnsAnswer
  | [] => []
  | e :: es => (s.answerOf e).toList ++ answers (Guard.step p s e) es

/-- What the last answer for a name left. -/
def lastEntry (hostname : JsString) (log : List DnsAnswer) : Option DnsCacheEntry :=
  ((log.filter fun a => decide (a.hostname = hostname)).filterMap (DnsAnswer.entry p)).getLast?

/-- The URL is for a host name that is looked up. -/
def IsHostName (url hostname : JsString) : Prop := resolveStart p ∅ url 0 = .ok (.lookup hostname)

variable {p}

/-! ### One answer -/

theorem verdict_eq_some {rs : List DnsRecord} {r : DnsRecord} :
    verdict p rs = some r ↔ AllSafe p rs ∧ rs.find? DnsRecord.isAddress = some r := by
  unfold verdict
  split_ifs with h
  · simp [h]
  · simp [h]

theorem verdict_isSome {rs : List DnsRecord} : (∃ r, verdict p rs = some r) ↔ AllSafe p rs := by
  simp only [verdict_eq_some]
  constructor
  · rintro ⟨_, h, -⟩
    exact h
  · intro h
    obtain ⟨r, hr⟩ := Option.isSome_iff_exists.mp (List.find?_isSome.mpr h.1)
    exact ⟨r, h, hr⟩

/-- **The loop finds the verdict.** -/
theorem resolveAnswer_records {rs : List DnsRecord} (hne : AddressTexts rs) (cache : DnsCache)
    (hostname : JsString) (now : ℕ) :
    resolveAnswer p cache hostname (.records rs) now =
      match verdict p rs with
      | some r => (.ok ⟨r.address, r.family, hostname, false⟩,
          cache.set hostname ⟨false, some r.address, some r.family, now + DNS_TTL_MS⟩)
      | none => (.error FORBIDDEN, cache.set hostname ⟨true, none, none, now + DNS_TTL_MS⟩) := by
  unfold resolveAnswer
  dsimp only
  by_cases hall : ∀ r ∈ rs, Scan.flags p r = false
  · rw [(anyPrivate_foldl rs {}).mpr ⟨rfl, hall⟩, safe_foldl rs {} hall hne]
    cases hfind : rs.find? DnsRecord.isAddress with
    | none =>
      have hv : verdict p rs = none := by
        unfold verdict
        rw [hfind, ite_self]
      rw [hv]
      rfl
    | some r =>
      have hmem := List.mem_of_find?_eq_some hfind
      have hadd := List.find?_some hfind
      have hv : verdict p rs = some r := verdict_eq_some.mpr ⟨⟨⟨r, hmem, hadd⟩, hall⟩, hfind⟩
      obtain ⟨c, t, hct⟩ := List.exists_cons_of_ne_nil (hne r hmem hadd)
      rw [hv]
      simp [Scan.isUnset, hct]
  · have hpriv : (rs.foldl (Scan.record p) {}).anyPrivate = true := by
      rw [← Bool.not_eq_false, anyPrivate_foldl]
      exact fun h => hall h.2
    have hv : verdict p rs = none := by
      unfold verdict
      rw [if_neg fun h => hall h.2]
    rw [hpriv, hv]

/-- The cache after an answer. -/
theorem resolveAnswer_snd (cache : DnsCache) {a : DnsAnswer}
    (hne : ∀ rs, a.result = .records rs → AddressTexts rs) :
    (resolveAnswer p cache a.hostname a.result a.time).2 =
      match a.entry p with
      | some e => cache.set a.hostname e
      | none => cache := by
  unfold DnsAnswer.entry
  cases h : a.result with
  | typeError => rfl
  | failed => rfl
  | records rs =>
    rw [resolveAnswer_records (hne rs h)]
    dsimp only
    cases verdict p rs <;> rfl

/-! ### The cache is what the answers say -/

theorem answers_concat : ∀ (s : Guard) (es : List GuardEvent) (e : GuardEvent),
    answers p s (es ++ [e]) = answers p s es ++ ((run (Guard.step p) s es).answerOf e).toList
  | s, [], e => by simp [answers]
  | s, e' :: es, e => by
    rw [List.cons_append, answers, answers, answers_concat, List.append_assoc, run_cons]

theorem lastEntry_concat (hostname : JsString) (log : List DnsAnswer) (a : DnsAnswer) :
    lastEntry p hostname (log ++ [a]) =
      if a.hostname = hostname then (a.entry p).or (lastEntry p hostname log)
      else lastEntry p hostname log := by
  unfold lastEntry
  rw [List.filter_append, List.filterMap_append, List.getLast?_append]
  by_cases hh : a.hostname = hostname
  · rw [if_pos hh]
    cases he : a.entry p <;> simp [hh, he]
  · simp [hh]

/-- A call leaves the cache as it is; what it returns comes before any lookup. -/
theorem step_call {s : Guard} {id : ℕ} {url : JsString} {now : ℕ} (hid : s.pending.has id = false) :
    Guard.step p s (.call id url now) = match resolveStart p s.cache url now with
      | .ok (.done r) => { s with returned := s.returned ++ [(id, r)] }
      | .ok (.lookup hostname) => { s with pending := s.pending.set id hostname }
      | .error _ => s := by
  unfold Guard.step
  dsimp only
  exact if_neg (by simp [hid])

/-- The number of a call is used once. -/
theorem step_call_again {s : Guard} {id : ℕ} (hid : s.pending.has id = true) (url : JsString) (now : ℕ) :
    Guard.step p s (.call id url now) = s := by
  unfold Guard.step
  dsimp only
  rw [if_pos hid]

theorem step_call_cache (s : Guard) (id : ℕ) (url : JsString) (now : ℕ) :
    (Guard.step p s (.call id url now)).cache = s.cache := by
  unfold Guard.step
  dsimp only
  split
  · rfl
  · split <;> rfl

theorem step_answer_idle {s : Guard} {id : ℕ} (hid : s.pending.get? id = none) (result : LookupResult) (now : ℕ) :
    Guard.step p s (.answer id result now) = s := by
  unfold Guard.step
  dsimp only
  rw [hid]

/-- The step at the end of a lookup. -/
theorem step_answer {s : Guard} {id : ℕ} {hostname : JsString} (hid : s.pending.get? id = some hostname)
    (result : LookupResult) (now : ℕ) :
    Guard.step p s (.answer id result now) = {
      cache := (resolveAnswer p s.cache hostname result now).2
      pending := s.pending.delete id
      returned := match (resolveAnswer p s.cache hostname result now).1 with
        | .ok r => s.returned ++ [(id, r)]
        | .error _ => s.returned } := by
  unfold Guard.step
  dsimp only
  rw [hid]
  dsimp only
  split
  · rename_i r cache h
    rw [h]
  · rename_i e cache h
    rw [h]

/-- **The cache holds for a name what its last answer left.** -/
theorem cache_eq_lastEntry {events : List GuardEvent}
    (hanswers : ∀ id rs now, GuardEvent.answer id (.records rs) now ∈ events → AddressTexts rs)
    (hostname : JsString) :
    (run (Guard.step p) {} events).cache.get? hostname = lastEntry p hostname (answers p {} events) := by
  have hsteps : Steps (Guard.step p) (fun _ _ e => ∀ id rs now, e = .answer id (.records rs) now →
      AddressTexts rs) {} events := by
    intro pre e post heq id rs now he
    exact hanswers id rs now (by rw [heq, he]; simp)
  refine run_induct (J := fun pre s => s.cache.get? hostname = lastEntry p hostname (answers p {} pre)) rfl
    (fun pre e ih hne => ?_) hsteps
  rw [answers_concat]
  cases e with
  | call id url now =>
    rw [step_call_cache, ih]
    simp [Guard.answerOf]
  | answer id result now =>
    cases hid : (run (Guard.step p) {} pre).pending.get? id with
    | none =>
      rw [step_answer_idle hid, ih]
      simp [Guard.answerOf, hid]
    | some h =>
      have hcache := resolveAnswer_snd (p := p) (run (Guard.step p) {} pre).cache
        (a := ⟨h, result, now⟩) fun rs hrs => hne id rs now (by rw [show result = .records rs from hrs])
      rw [step_answer hid]
      simp only [Guard.answerOf, hid, Option.map_some, Option.toList_some]
      rw [lastEntry_concat, hcache]
      cases he : DnsAnswer.entry p ⟨h, result, now⟩ with
      | none =>
        dsimp only
        rw [ih, Option.none_or, ite_self]
      | some x =>
        dsimp only
        rw [OrdMap.get?_set, ih]
        by_cases hh : h = hostname
        · rw [if_pos hh.symm, if_pos hh, Option.some_or]
        · rw [if_neg (Ne.symm hh), if_neg hh]

/-! ### Calls for a host name -/

/-- A URL that is for a host name goes to the cache. -/
theorem resolveStart_hostName {url hostname : JsString} (h : IsHostName p url hostname) (cache : DnsCache)
    (now : ℕ) : resolveStart p cache url now = resolveCached cache hostname now := by
  unfold IsHostName at h
  unfold resolveStart at h ⊢
  cases hparse : p.parseUrl url with
  | none => rw [hparse] at h; cases h
  | some u =>
    rw [hparse] at h
    dsimp only at h ⊢
    by_cases hhttp : (!isHttp u.protocol) = true
    · rw [if_pos hhttp] at h
      cases h
    · rw [if_neg hhttp] at h ⊢
      cases hdec : p.decodeURIComponent u.hostname with
      | none => rw [hdec] at h; cases h
      | some decoded =>
        rw [hdec] at h
        dsimp only at h ⊢
        by_cases hsame : u.hostname ≠ decoded
        · rw [if_pos hsame] at h
          cases h
        · rw [if_neg hsame] at h ⊢
          by_cases hpriv : isPrivateIPv6Bare p (stripBrackets (p.toLowerCase u.hostname)) = true
          · rw [if_pos hpriv] at h
            cases h
          · rw [if_neg hpriv] at h ⊢
            cases hn : normalizeToIPv4 p (stripBrackets (p.toLowerCase u.hostname)) with
            | none =>
              rw [hn] at h
              cases h
              rfl
            | some t =>
              rw [hn] at h
              dsimp only at h
              split_ifs at h
              cases h

/-- An entry that a name has comes from one of its answers. -/
theorem mem_of_lastEntry {hostname : JsString} {log : List DnsAnswer} {e : DnsCacheEntry}
    (h : lastEntry p hostname log = some e) :
    ∃ a ∈ log, a.hostname = hostname ∧ a.entry p = some e := by
  obtain ⟨a, ha, he⟩ := List.mem_filterMap.mp (List.mem_of_getLast? h)
  obtain ⟨hmem, hh⟩ := List.mem_filter.mp ha
  exact ⟨a, hmem, of_decide_eq_true hh, he⟩

/-- An entry with an address comes from a safe answer. -/
theorem entry_address {a : DnsAnswer} {e : DnsCacheEntry} (h : a.entry p = some e) (hp : e.isPrivate = false) :
    ∃ rs r, a.result = .records rs ∧ verdict p rs = some r ∧
      e = ⟨false, some r.address, some r.family, a.time + DNS_TTL_MS⟩ := by
  unfold DnsAnswer.entry at h
  split at h
  · rename_i rs hrs
    split at h
    · rename_i r hr
      cases h
      exact ⟨rs, r, hrs, hr, rfl⟩
    · cases h
      cases hp
  · cases h
    cases hp
  · cases h

/-- What a call returns is a fresh entry with an address. -/
theorem resolveCached_done {cache : DnsCache} {hostname : JsString} {now : ℕ} {r : SafeResolution}
    (h : resolveCached cache hostname now = .ok (.done r)) : ∃ e ip, cache.get? hostname = some e ∧
      e.isPrivate = false ∧ e.ip = some ip ∧ r = ⟨ip, e.family.getD 0, hostname, false⟩ ∧ now < e.expiresAt := by
  unfold resolveCached at h
  split at h
  · cases h
  · rename_i e he
    split_ifs at h with hfresh
    · split at h
      · rename_i c ip hpriv hip
        cases h
        exact ⟨e, _, he, hpriv, hip, rfl, hfresh⟩
      · cases h
    · cases h

/-- **Verdicts on host names and their cache.** -/
theorem dns_verdicts (p : Platform) (events : List GuardEvent)
    (hanswers : ∀ id rs now, GuardEvent.answer id (.records rs) now ∈ events → AddressTexts rs)
    (before : List GuardEvent) (event : GuardEvent) (after : List GuardEvent)
    (hsplit : events = before ++ event :: after) (s s' : Guard) (hs : s = run (Guard.step p) {} before)
    (hs' : s' = run (Guard.step p) {} (before ++ [event])) :
    (∀ id rs now hostname, event = .answer id (.records rs) now → s.pending.get? id = some hostname →
      ((∃ r, s'.returned = s.returned ++ [(id, r)]) ↔ AllSafe p rs) ∧ s'.pending.get? id = none) ∧
    (∀ id result now, event = .answer id result now → result = .failed ∨ result = .typeError →
      s'.returned = s.returned ∧ s'.pending.get? id = none) ∧
    (∀ id url now hostname r, event = .call id url now → IsHostName p url hostname →
      s'.returned = s.returned ++ [(id, r)] →
      ∃ a ∈ answers p {} before, ∃ rs rec, a.hostname = hostname ∧ a.result = .records rs ∧ AllSafe p rs ∧
        rs.find? DnsRecord.isAddress = some rec ∧ r = ⟨rec.address, rec.family, hostname, false⟩ ∧
        now < a.time + 30000) ∧
    (∀ id url now hostname e, event = .call id url now → IsHostName p url hostname →
      lastEntry p hostname (answers p {} before) = some e → e.isPrivate = true → now < e.expiresAt →
      s' = s) := by
  subst hs hs'
  rw [run_concat]
  have hbefore : ∀ id rs now, GuardEvent.answer id (.records rs) now ∈ before → AddressTexts rs :=
    fun id rs now h => hanswers id rs now (by rw [hsplit]; exact List.mem_append_left _ h)
  have hcache := cache_eq_lastEntry (p := p) hbefore
  refine ⟨?_, ?_, ?_, ?_⟩
  · rintro id rs now hostname rfl hid
    have hne : AddressTexts rs := hanswers id rs now (by rw [hsplit]; simp)
    rw [step_answer hid, resolveAnswer_records hne]
    refine ⟨?_, by simp⟩
    rw [← verdict_isSome]
    cases verdict p rs with
    | none => simp
    | some r => simp
  · rintro id result now rfl hresult
    cases hid : (run (Guard.step p) {} before).pending.get? id with
    | none =>
      rw [step_answer_idle hid]
      exact ⟨rfl, hid⟩
    | some hostname =>
      rw [step_answer hid]
      refine ⟨?_, by simp⟩
      rcases hresult with rfl | rfl <;> rfl
  · rintro id url now hostname r rfl hurl hret
    cases hid : (run (Guard.step p) {} before).pending.has id with
    | true =>
      rw [step_call_again hid] at hret
      simp at hret
    | false =>
      rw [step_call hid, resolveStart_hostName hurl] at hret
      cases hres : resolveCached (run (Guard.step p) {} before).cache hostname now with
      | error e => simp [hres] at hret
      | ok st =>
        cases st with
        | lookup h => simp [hres] at hret
        | done r' =>
          obtain rfl : r' = r := by simpa [hres] using hret
          obtain ⟨e, ip, he, hpriv, hip, hr, hfresh⟩ := resolveCached_done hres
          rw [hcache] at he
          obtain ⟨a, ha, hhost, hentry⟩ := mem_of_lastEntry he
          obtain ⟨rs, rec, hrs, hv, rfl⟩ := entry_address hentry hpriv
          obtain ⟨hsafe, hfind⟩ := verdict_eq_some.mp hv
          cases hip
          exact ⟨a, ha, rs, rec, hhost, hrs, hsafe, hfind, hr, hfresh⟩
  · rintro id url now hostname e rfl hurl he hpriv hfresh
    cases hid : (run (Guard.step p) {} before).pending.has id with
    | true => exact step_call_again hid url now
    | false =>
      have hres : resolveCached (run (Guard.step p) {} before).cache hostname now = .error FORBIDDEN := by
        unfold resolveCached
        rw [hcache, he]
        dsimp only
        rw [if_pos hfresh, hpriv]
      rw [step_call hid, resolveStart_hostName hurl, hres]

namespace Sample

/-- A lookup, its answer, and a call that is served from the cache. -/
def cachedRun : List GuardEvent :=
  lookupRun [⟨js "93.184.216.34", 4⟩, ⟨js "93.184.216.35", 4⟩] ++ [.call 1 (js "http://rebind.example/") 29000]

theorem cachedRun_fresh :
    (run (Guard.step guardTables.platform) {} cachedRun).returned =
      [(0, ⟨js "93.184.216.34", 4, js "rebind.example", false⟩),
        (1, ⟨js "93.184.216.34", 4, js "rebind.example", false⟩)] ∧
    ∃ a ∈ answers guardTables.platform {} (lookupRun [⟨js "93.184.216.34", 4⟩, ⟨js "93.184.216.35", 4⟩]),
      a.hostname = js "rebind.example" ∧ 29000 < a.time + 30000 := by
  have hanswers : ∀ id rs now, GuardEvent.answer id (.records rs) now ∈ cachedRun → AddressTexts rs := by
    intro id rs now hmem
    simp only [cachedRun, lookupRun, List.cons_append, List.nil_append, List.mem_cons, reduceCtorEq,
      GuardEvent.answer.injEq, LookupResult.records.injEq, List.not_mem_nil, or_false, false_or] at hmem
    obtain ⟨-, rfl, -⟩ := hmem
    unfold AddressTexts
    decide
  obtain ⟨-, -, hcached, -⟩ := dns_verdicts guardTables.platform cachedRun hanswers
    (lookupRun [⟨js "93.184.216.34", 4⟩, ⟨js "93.184.216.35", 4⟩]) (.call 1 (js "http://rebind.example/") 29000)
    [] rfl _ _ rfl rfl
  obtain ⟨a, ha, _, _, hhost, -, -, -, -, hfresh⟩ := hcached 1 _ _ (js "rebind.example")
    ⟨js "93.184.216.34", 4, js "rebind.example", false⟩ rfl (by unfold IsHostName; decide)
    (by decide +kernel)
  exact ⟨by decide +kernel, a, ha, hhost, hfresh⟩

end Sample

end ConsensusNode.Runtime
