import ConsensusNode.Lib.Run
import ConsensusNode.Runtime.SsrfText

/-! # Runs of the guard

Any number of calls of `resolveAndCheckTarget` in one process, their lookups answered in any order. The
cache is shared, so an address that one call takes from an answer is handed out by later calls.

* `handed_out_external`: if no answer makes the guard hand out one of the addresses its IPv6 test misses
  (`HandsOutMissed`), every address that any call returns lies outside all blocks. -/

namespace ConsensusNode.Runtime

open Js Lib Lib.Run

variable (p : Platform)

/-- The process: the cache, the calls that wait for a lookup, and what calls have returned. -/
structure Guard where
  cache : DnsCache := ∅
  pending : OrdMap ℕ JsString := ∅
  returned : List (ℕ × SafeResolution) := []

inductive GuardEvent where
  /-- A new call. -/
  | call (id : ℕ) (url : JsString) (now : ℕ)
  /-- The lookup of a call ends. -/
  | answer (id : ℕ) (result : LookupResult) (now : ℕ)

namespace Guard

def step (s : Guard) : GuardEvent → Guard
  | .call id url now =>
    if s.pending.has id then s
    else match resolveStart p s.cache url now with
      | .ok (.done r) => { s with returned := s.returned ++ [(id, r)] }
      | .ok (.lookup hostname) => { s with pending := s.pending.set id hostname }
      | .error _ => s
  | .answer id result now =>
    match s.pending.get? id with
    | none => s
    | some hostname =>
      match resolveAnswer p s.cache hostname result now with
      | (.ok r, cache) =>
        { cache, pending := s.pending.delete id, returned := s.returned ++ [(id, r)] }
      | (.error _, cache) => { s with cache, pending := s.pending.delete id }

end Guard

/-! ### What is asked of an address -/

/-- Host names as the URL parser writes them: ASCII, in lower case, and never with both a colon (an IPv6
literal) and a dot (a name or an IPv4 literal). -/
structure HostLaws (p : Platform) : Prop where
  ascii : ∀ {s u}, p.parseUrl s = some u → isHttp u.protocol = true → isAscii u.hostname = true
  lower : ∀ {s u}, p.parseUrl s = some u → isHttp u.protocol = true →
    asciiLower u.hostname = u.hostname
  noMix : ∀ {s u}, p.parseUrl s = some u → isHttp u.protocol = true →
    unit ':' ∈ u.hostname → unit '.' ∉ u.hostname

/-- The records have the canonical text of an address of their family. -/
def CanonicalRecords (rs : List DnsRecord) : Prop :=
  ∀ r ∈ rs, (r.family = 4 → ∃ n < 2 ^ 32, r.address = ipv4Text n) ∧
    (r.family = 6 → ∃ n < 2 ^ 128, IsIpv6Text n r.address)

/-- The address is written canonically, and its value is in no block. -/
def External (ip : JsString) (family : ℕ) : Prop :=
  (family = 4 ∧ (∃ n < 2 ^ 32, ip = ipv4Text n) ∧ ∀ n < 2 ^ 32, ip = ipv4Text n → ¬ Blocked4 n) ∨
  (family = 6 ∧ (∃ n < 2 ^ 128, IsIpv6Text n ip) ∧ ∀ n < 2 ^ 128, IsIpv6Text n ip → ¬ Blocked6 n)

/-- A record the loop looks at. -/
def DnsRecord.isAddress (r : DnsRecord) : Bool := r.family == 4 || r.family == 6

/-- No record of the answer is found private, and the first address is `::` or from `fe81::` to
`febf::`. -/
def HandsOutMissed (rs : List DnsRecord) : Prop :=
  (∀ r ∈ rs, Scan.flags p r = false) ∧
    ∃ r n, rs.find? DnsRecord.isAddress = some r ∧ r.family = 6 ∧ n < 2 ^ 128 ∧
      IsIpv6Text n r.address ∧ Missed n

variable {p}

/-! ### The loop over an answer -/

theorem flags_of_not_address {r : DnsRecord} (h : r.isAddress = false) : Scan.flags p r = false := by
  simp only [DnsRecord.isAddress, Bool.or_eq_false_iff, beq_eq_false_iff_ne] at h
  unfold Scan.flags
  rw [if_neg h.1, if_neg h.2]

theorem anyPrivate_record (s : Scan) (r : DnsRecord) :
    (Scan.record p s r).anyPrivate = false ↔ s.anyPrivate = false ∧ Scan.flags p r = false := by
  unfold Scan.record
  by_cases ha : r.family = 4 ∨ r.family = 6
  · rw [if_pos ha]
    cases Scan.flags p r with
    | true => simp
    | false => by_cases hu : s.isUnset = true <;> simp [hu]
  · rw [if_neg ha, flags_of_not_address (by simpa [DnsRecord.isAddress] using ha)]
    simp

/-- One private record is enough. -/
theorem anyPrivate_foldl : ∀ (rs : List DnsRecord) (s : Scan),
    (rs.foldl (Scan.record p) s).anyPrivate = false ↔
      s.anyPrivate = false ∧ ∀ r ∈ rs, Scan.flags p r = false
  | [], s => by simp
  | r :: rs, s => by
    rw [List.foldl_cons, anyPrivate_foldl rs, anyPrivate_record, and_assoc, List.forall_mem_cons]

/-- Without private records the first address is taken. -/
theorem safe_foldl : ∀ (rs : List DnsRecord) (s : Scan), (∀ r ∈ rs, Scan.flags p r = false) →
    (∀ r ∈ rs, r.isAddress = true → r.address ≠ []) →
    (rs.foldl (Scan.record p) s).safe =
      if s.isUnset then ((rs.find? DnsRecord.isAddress).map fun r => (r.address, r.family)).or s.safe
      else s.safe
  | [], s, _, _ => by simp
  | r :: rs, s, hf, hne => by
    have hrest := fun s' => safe_foldl rs s' (fun x hx => hf x (by simp [hx]))
      fun x hx => hne x (by simp [hx])
    have hfr := hf r (by simp)
    rw [List.foldl_cons, hrest]
    by_cases ha : r.isAddress = true
    · have ha' : r.family = 4 ∨ r.family = 6 := by simpa [DnsRecord.isAddress] using ha
      obtain ⟨c, t, hct⟩ := List.exists_cons_of_ne_nil (hne r (by simp) ha)
      have hrec : Scan.record p s r =
          if s.isUnset then { s with safe := some (r.address, r.family) } else s := by
        unfold Scan.record
        rw [if_pos ha', if_neg (by simp [hfr])]
      rw [hrec, List.find?_cons_of_pos ha]
      by_cases hu : s.isUnset = true
      · rw [if_pos hu, if_pos hu]
        simp [Scan.isUnset, hct]
      · rw [if_neg hu, if_neg hu]
        simp [hu]
    · have ha' : ¬ (r.family = 4 ∨ r.family = 6) := by simpa [DnsRecord.isAddress] using ha
      have hrec : Scan.record p s r = s := by
        unfold Scan.record
        rw [if_neg ha']
      rw [hrec, List.find?_cons_of_neg (by simpa using ha)]

theorem address_ne_nil {rs : List DnsRecord} (h : CanonicalRecords rs) :
    ∀ r ∈ rs, r.isAddress = true → r.address ≠ [] := by
  intro r hr ha hnil
  have ha' : r.family = 4 ∨ r.family = 6 := by simpa [DnsRecord.isAddress] using ha
  rcases ha' with h4 | h6
  · obtain ⟨n, -, hn⟩ := (h r hr).1 h4
    have := splitOn_ipv4Text n
    rw [← hn, hnil] at this
    simp [octets] at this
  · obtain ⟨n, -, hn⟩ := (h r hr).2 h6
    have hcolon : ∀ t, IsIpv6Text n t → t ≠ [] := by
      rintro t (rfl | rfl)
      · exact ipv6Hex_ne_nil n
      · unfold ipv6Mixed
        split_ifs
        · exact List.append_ne_nil_of_left_ne_nil (by decide) _
        · exact List.append_ne_nil_of_left_ne_nil (by decide) _
        · exact ipv6Hex_ne_nil n
    exact hcolon _ hn hnil

/-- A record that the code does not find private, and whose address is not missed, is external. -/
theorem external_of_record (hp : p.AsciiCase) {r : DnsRecord} (ha : r.isAddress = true)
    (hcanon : (r.family = 4 → ∃ n < 2 ^ 32, r.address = ipv4Text n) ∧
      (r.family = 6 → ∃ n < 2 ^ 128, IsIpv6Text n r.address))
    (hflag : Scan.flags p r = false)
    (hmiss : ∀ n < 2 ^ 128, r.family = 6 → IsIpv6Text n r.address → ¬ Missed n) :
    External r.address r.family := by
  have ha' : r.family = 4 ∨ r.family = 6 := by simpa [DnsRecord.isAddress] using ha
  rcases ha' with h4 | h6
  · left
    refine ⟨h4, hcanon.1 h4, fun n hn hr hb => ?_⟩
    unfold Scan.flags at hflag
    rw [if_pos h4, hr, (isPrivateIPv4_iff hn).mpr hb] at hflag
    cases hflag
  · right
    refine ⟨h6, hcanon.2 h6, fun n hn hr hb => ?_⟩
    unfold Scan.flags at hflag
    rw [if_neg (by omega), if_pos h6, lower_address hp fun c hc => hr.isAddressUnit hc] at hflag
    rcases blocked6_flagged hp hn hr hb with hx | hx
    · rw [hx] at hflag
      cases hflag
    · exact hmiss n hn h6 hr hx

/-- What an answer hands out. -/
theorem resolveAnswer_external (hp : p.AsciiCase) {cache cache' : DnsCache} {hostname : JsString}
    {rs : List DnsRecord} {now : ℕ} {r : SafeResolution} (hcanon : CanonicalRecords rs)
    (hcond : ¬ HandsOutMissed p rs)
    (h : resolveAnswer p cache hostname (.records rs) now = (.ok r, cache')) :
    External r.ip r.family := by
  unfold resolveAnswer at h
  dsimp only at h
  split at h
  · rename_i c ip family hpriv hsafe
    cases h
    obtain ⟨-, hall⟩ := (anyPrivate_foldl rs _).mp hpriv
    rw [safe_foldl rs _ hall (address_ne_nil hcanon)] at hsafe
    have hsafe' : (rs.find? DnsRecord.isAddress).map (fun r => (r.address, r.family)) =
        some (c :: ip, family) := by simpa [Scan.isUnset] using hsafe
    obtain ⟨rec, hfind, hrec⟩ := Option.map_eq_some_iff.mp hsafe'
    have hmem := List.mem_of_find?_eq_some hfind
    have hadd : rec.isAddress = true := by simpa using List.find?_some hfind
    have hext := external_of_record hp hadd (hcanon rec hmem) (hall rec hmem)
      fun n hn h6 ht hm => hcond ⟨hall, rec, n, hfind, h6, hn, ht, hm⟩
    simp only [Prod.mk.injEq] at hrec
    rw [← hrec.1, ← hrec.2]
    exact hext
  · cases h

/-! ### Literals and the cache -/

theorem mem_stripBrackets {s : JsString} {c : UInt16} (h : c ∈ stripBrackets s) : c ∈ s := by
  unfold stripBrackets at h
  dsimp only at h
  have htail : ∀ t : JsString, c ∈ (if t.getLast? = some (unit ']') then t.dropLast else t) → c ∈ t := by
    intro t ht
    split_ifs at ht
    · exact List.mem_of_mem_dropLast ht
    · exact ht
  have h' := htail _ h
  split_ifs at h'
  · exact List.mem_of_mem_tail h'
  · exact h'

theorem not_upper_of_asciiLower {s : JsString} (h : asciiLower s = s) {c : UInt16} (hc : c ∈ s) :
    ¬ (65 ≤ c ∧ c ≤ 90) := by
  intro hup
  have hmap : s.map (fun c => if 65 ≤ c ∧ c ≤ 90 then c + 32 else c) = s.map id := by
    rw [List.map_id]; exact h
  have hfix := List.map_inj_left.mp hmap c hc
  rw [if_pos hup, id] at hfix
  have hnat := congrArg UInt16.toNat hfix
  rw [UInt16.toNat_add] at hnat
  have hlt := c.toNat_lt
  have h32 : (32 : UInt16).toNat = 32 := rfl
  omega

theorem lower_stripped (hp : p.AsciiCase) {h t : JsString} (ha : isAscii h = true)
    (hl : asciiLower h = h) (hsub : ∀ c ∈ t, c ∈ h) : p.toLowerCase t = t := by
  refine lower_of_lower hp ?_ (asciiLower_eq_self fun c hc => not_upper_of_asciiLower hl (hsub c hc))
  unfold isAscii at ha ⊢
  rw [List.all_eq_true] at ha ⊢
  exact fun c hc => ha c (hsub c hc)

/-- The entries of the cache that let a call through. -/
def CacheExternal (cache : DnsCache) : Prop :=
  ∀ k e c ip, cache.get? k = some e → e.isPrivate = false → e.ip = some (c :: ip) →
    External (c :: ip) (e.family.getD 0)

theorem resolveCached_external {cache : DnsCache} (hc : CacheExternal cache) {hostname : JsString}
    {now : ℕ} {r : SafeResolution} (h : resolveCached cache hostname now = .ok (.done r)) :
    External r.ip r.family := by
  unfold resolveCached at h
  split at h
  · cases h
  · rename_i e he
    split_ifs at h
    · split at h
      · rename_i c ip hpriv hip
        cases h
        exact hc hostname e c ip he hpriv hip
      · cases h
    · cases h

theorem resolveStart_external (hp : p.AsciiCase) (hh : HostLaws p) {cache : DnsCache}
    (hc : CacheExternal cache) {url : JsString} {now : ℕ} {r : SafeResolution}
    (h : resolveStart p cache url now = .ok (.done r)) : External r.ip r.family := by
  unfold resolveStart at h
  cases hparse : p.parseUrl url with
  | none => rw [hparse] at h; cases h
  | some u =>
    rw [hparse] at h
    dsimp only at h
    by_cases hhttp : isHttp u.protocol = true
    · rw [if_neg (by simp [hhttp])] at h
      cases hdec : p.decodeURIComponent u.hostname with
      | none => rw [hdec] at h; cases h
      | some decoded =>
        rw [hdec] at h
        dsimp only at h
        have ha := hh.ascii hparse hhttp
        have hl := hh.lower hparse hhttp
        rw [lower_of_lower hp ha hl] at h
        split_ifs at h with h1 h2
        cases hn : normalizeToIPv4 p (stripBrackets u.hostname) with
        | none => rw [hn] at h; exact resolveCached_external hc h
        | some t =>
          rw [hn] at h
          dsimp only at h
          split_ifs at h with h3
          cases h
          have hform := normalizeToIPv4_form hn
          rw [lower_stripped hp ha hl fun c hc => mem_stripBrackets (mem_stripBrackets hc)] at hform
          rcases hform with hq | ⟨n, hlt, rfl⟩
          · obtain ⟨hcolon, hdot⟩ := mappedQuad_eq_some hq
            exact absurd (mem_stripBrackets (mem_stripBrackets hdot))
              (hh.noMix hparse hhttp (mem_stripBrackets (mem_stripBrackets hcolon)))
          · refine .inl ⟨rfl, ⟨n, hlt, rfl⟩, fun m hm he hb => h3 ?_⟩
            have he' : ipv4Text n = ipv4Text m := he
            rw [he']
            exact (isPrivateIPv4_iff hm).mpr hb
    · rw [if_pos (by simpa using hhttp)] at h
      cases h

theorem CacheExternal.set {cache : DnsCache} (h : CacheExternal cache) (k : JsString)
    {e : DnsCacheEntry} (he : ∀ c ip, e.isPrivate = false → e.ip = some (c :: ip) →
      External (c :: ip) (e.family.getD 0)) : CacheExternal (cache.set k e) := by
  intro k' e' c ip hget hpriv hip
  rw [OrdMap.get?_set] at hget
  split_ifs at hget
  · cases hget
    exact he c ip hpriv hip
  · exact h k' e' c ip hget hpriv hip

/-- After an answer the cache still holds only external addresses. -/
theorem resolveAnswer_cache (hp : p.AsciiCase) {cache : DnsCache} (hc : CacheExternal cache)
    {hostname : JsString} {result : LookupResult} {now : ℕ}
    (hres : ∀ rs, result = .records rs → CanonicalRecords rs ∧ ¬ HandsOutMissed p rs) :
    CacheExternal (resolveAnswer p cache hostname result now).2 := by
  cases result with
  | typeError => exact hc
  | failed => exact hc.set _ fun c ip hpriv => by cases hpriv
  | records rs =>
    obtain ⟨hcanon, hcond⟩ := hres rs rfl
    cases hout : resolveAnswer p cache hostname (.records rs) now with
    | mk out cache' =>
      have hout' := hout
      unfold resolveAnswer at hout
      dsimp only at hout
      split at hout
      · cases hout
        refine hc.set _ fun c' ip' _ hip => ?_
        cases hip
        exact resolveAnswer_external hp hcanon hcond hout'
      · cases hout
        exact hc.set _ fun c ip hpriv => by cases hpriv

/-! ### Runs -/

/-- The answer of an event is canonical and does not reach the gap. -/
def AnswerOk (p : Platform) (e : GuardEvent) : Prop :=
  ∀ id rs now, e = .answer id (.records rs) now → CanonicalRecords rs ∧ ¬ HandsOutMissed p rs

/-- What holds in every state. -/
structure GuardInv (s : Guard) : Prop where
  cache : CacheExternal s.cache
  returned : ∀ x ∈ s.returned, External x.2.ip x.2.family

theorem forall_mem_concat {α : Type} {P : α → Prop} {l : List α} {a : α} (hl : ∀ x ∈ l, P x) (ha : P a) :
    ∀ x ∈ l ++ [a], P x := by
  intro x hx
  rcases List.mem_append.mp hx with hx | hx
  · exact hl x hx
  · rw [List.mem_singleton.mp hx]; exact ha

theorem GuardInv.step (hp : p.AsciiCase) (hh : HostLaws p) {s : Guard} {e : GuardEvent}
    (h : GuardInv s) (he : AnswerOk p e) : GuardInv (Guard.step p s e) := by
  cases e with
  | call id url now =>
    unfold Guard.step
    dsimp only
    split_ifs
    · exact h
    · split
      · rename_i r hr
        exact ⟨h.cache, forall_mem_concat h.returned (resolveStart_external hp hh h.cache hr)⟩
      · exact ⟨h.cache, h.returned⟩
      · exact h
  | answer id result now =>
    have hres : ∀ rs, result = .records rs → CanonicalRecords rs ∧ ¬ HandsOutMissed p rs :=
      fun rs hrs => he id rs now (by rw [hrs])
    unfold Guard.step
    dsimp only
    split
    · exact h
    · rename_i hostname _
      have hcache : CacheExternal (resolveAnswer p s.cache hostname result now).2 :=
        resolveAnswer_cache hp h.cache hres
      split
      · rename_i r cache' hr
        rw [hr] at hcache
        refine ⟨hcache, forall_mem_concat h.returned ?_⟩
        cases result with
        | typeError => cases hr
        | failed => cases hr
        | records rs =>
          obtain ⟨hcanon, hcond⟩ := hres rs rfl
          exact resolveAnswer_external hp hcanon hcond hr
      · rename_i cache' hr
        rw [hr] at hcache
        exact ⟨hcache, h.returned⟩

/-- **No internal address is handed out**, in a run whose answers are canonical and do not make the guard
hand out an address that its IPv6 test misses. -/
theorem handed_out_external (p : Platform) (hp : p.AsciiCase) (hh : HostLaws p)
    (events : List GuardEvent)
    (hanswers : ∀ id rs now, GuardEvent.answer id (.records rs) now ∈ events →
      CanonicalRecords rs ∧ ¬ HandsOutMissed p rs) :
    ∀ x ∈ (run (Guard.step p) {} events).returned, External x.2.ip x.2.family := by
  have hsteps : Steps (Guard.step p) (fun _ _ e => AnswerOk p e) {} events := by
    intro pre e post heq id rs now he
    exact hanswers id rs now (by rw [heq, he]; simp)
  have hinit : GuardInv {} := by
    refine ⟨?_, ?_⟩
    · intro k e c ip hget
      cases hget
    · intro x hx
      cases hx
  exact (run_induct (J := fun _ s => GuardInv s) hinit
    (fun pre e hi hc => hi.step hp hh hc) hsteps).returned

/-! ### Answers on both sides of the condition -/

/-- A platform that knows the URL of one host name. -/
def guardTables : Tables where
  urls := [(js "http://rebind.example/", .plain (js "http:") (js "rebind.example") (js "/"))]

theorem guardTables_host : HostLaws guardTables.platform := by
  have hurl : ∀ {s u}, guardTables.platform.parseUrl s = some u →
      u = .plain (js "http:") (js "rebind.example") (js "/") := by
    intro s u h
    obtain ⟨s', hs'⟩ := OrdMap.mem_of_lookup h
    simp only [guardTables, List.mem_singleton, Prod.mk.injEq] at hs'
    exact hs'.2
  refine ⟨fun h _ => ?_, fun h _ => ?_, fun h _ => ?_⟩
  · rw [hurl h]; decide
  · rw [hurl h]; decide
  · rw [hurl h]; decide

/-- A call for the host name, and the answer of its lookup. -/
def lookupRun (rs : List DnsRecord) : List GuardEvent :=
  [.call 0 (js "http://rebind.example/") 0, .answer 0 (.records rs) 5]

theorem lookupRun_external :
    (run (Guard.step guardTables.platform) {} (lookupRun [⟨js "93.184.216.34", 4⟩])).returned =
      [(0, ⟨js "93.184.216.34", 4, js "rebind.example", false⟩)] ∧
    External (js "93.184.216.34") 4 := by
  have hret : (run (Guard.step guardTables.platform) {}
      (lookupRun [⟨js "93.184.216.34", 4⟩])).returned =
        [(0, ⟨js "93.184.216.34", 4, js "rebind.example", false⟩)] := by decide +kernel
  refine ⟨hret, handed_out_external guardTables.platform guardTables.asciiCase guardTables_host
    (lookupRun [⟨js "93.184.216.34", 4⟩]) ?_ (0, ⟨js "93.184.216.34", 4, js "rebind.example", false⟩)
    (by rw [hret]; simp)⟩
  intro id rs now hmem
  simp only [lookupRun, List.mem_cons, reduceCtorEq, GuardEvent.answer.injEq, LookupResult.records.injEq,
    List.not_mem_nil, or_false, false_or] at hmem
  obtain ⟨-, rfl, -⟩ := hmem
  refine ⟨fun r hr => ?_, ?_⟩
  · rw [List.mem_singleton.mp hr]
    exact ⟨fun _ => ⟨((93 * 256 + 184) * 256 + 216) * 256 + 34, by norm_num, by decide⟩,
      fun h => absurd h (by decide)⟩
  · rintro ⟨-, r, n, hfind, h6, -⟩
    simp only [List.find?_cons, DnsRecord.isAddress] at hfind
    cases hfind
    exact absurd h6 (by decide)

theorem unspecified_and_linkLocal_handed_out :
    CanonicalRecords [⟨js "::", 6⟩] ∧ CanonicalRecords [⟨js "fe90::1", 6⟩] ∧
    (run (Guard.step guardTables.platform) {} (lookupRun [⟨js "::", 6⟩])).returned =
      [(0, ⟨js "::", 6, js "rebind.example", false⟩)] ∧ ¬ External (js "::") 6 ∧
    (run (Guard.step guardTables.platform) {} (lookupRun [⟨js "fe90::1", 6⟩])).returned =
      [(0, ⟨js "fe90::1", 6, js "rebind.example", false⟩)] ∧ ¬ External (js "fe90::1") 6 := by
  have h0 : IsIpv6Text 0 (js "::") := .inl (by decide)
  have h1 : IsIpv6Text (0xfe90 * 2 ^ 112 + 1) (js "fe90::1") := .inl (by decide)
  have hb1 : Blocked6 (0xfe90 * 2 ^ 112 + 1) := .inr (.inr (.inl (by norm_num)))
  refine ⟨?_, ?_, by decide, ?_, by decide, ?_⟩
  · intro r hr
    rw [List.mem_singleton.mp hr]
    exact ⟨fun h => absurd h (by decide), fun _ => ⟨0, by norm_num, h0⟩⟩
  · intro r hr
    rw [List.mem_singleton.mp hr]
    exact ⟨fun h => absurd h (by decide), fun _ => ⟨_, by norm_num, h1⟩⟩
  · rintro (⟨h, -⟩ | ⟨-, -, h⟩)
    · exact absurd h (by decide)
    · exact h 0 (by norm_num) h0 (.inl rfl)
  · rintro (⟨h, -⟩ | ⟨-, -, h⟩)
    · exact absurd h (by decide)
    · exact h _ (by norm_num) h1 hb1

end ConsensusNode.Runtime
