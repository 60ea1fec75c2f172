import ConsensusNode.Runtime.CacheIsolation
import ConsensusNode.Runtime.DedupeVariants
import ConsensusNode.Runtime.ProfileIdem

/-! # Which headers go upstream

`runtime/proxy-serve.ts` and `runtime/dedupe.ts` read the same headers, and both resolve names that differ
in case only. `serveProxyRequest` filters the entries, sorts them by name and sets them one by one in a
`Headers` object; `canonicalizeSemanticHeaders` overwrites while it goes through them in their own order.

* `planRequest_forwarded`: with or without a profile, the entries that are forwarded are those of the
  request without the names of three lists.
* `get_buildHeaders`: under every name the object has the last value that the request gives for it.
* `semantic_headers_agree`: over a plain map the ticket binds the value the upstream gets;
  `semantic_headers_fetch`: over the class of the platform, which strips white space.
* `forwarding_exact`: the headers of the upstream request, under every name. -/

namespace ConsensusNode.Runtime

open Js

/-! ### `Headers` -/

/-- The class `Headers` over its values `H`. -/
structure HeadersApi (H : Type) where
  empty : H
  /-- `headers.set(name, value)`; the error is the exception. -/
  set : H → JsString → JsString → Except JsError H
  /-- `headers.get(name)`. -/
  get : H → JsString → Option JsString

theorem asciiLower_asciiLower (s : JsString) : asciiLower (asciiLower s) = asciiLower s := by
  unfold asciiLower
  rw [List.map_map]
  refine List.map_congr_left fun c _ => ?_
  have hrange : ¬ (65 ≤ (if 65 ≤ c ∧ c ≤ 90 then c + 32 else c) ∧
      (if 65 ≤ c ∧ c ≤ 90 then c + 32 else c) ≤ 90) := by
    split_ifs with h
    · rintro ⟨-, hle⟩
      have h1 := UInt16.le_iff_toNat_le.mp h.1
      have h2 := UInt16.le_iff_toNat_le.mp h.2
      have h3 := UInt16.le_iff_toNat_le.mp hle
      rw [UInt16.toNat_add] at h3
      simp only [UInt16.reduceToNat] at h1 h2 h3
      omega
    · exact h
  exact if_neg hrange

/-- **A map without regard to case in which `set` overwrites**; it keeps `store v` for a value `v`. -/
structure HeadersApi.IsMap {H : Type} (api : HeadersApi H) (store : JsString → JsString) : Prop where
  get_empty : ∀ n, api.get api.empty n = none
  get_set : ∀ {hs hs' : H} {n v : JsString}, api.set hs n v = .ok hs' → ∀ m,
    api.get hs' m = if asciiLower m = asciiLower n then some (store v) else api.get hs m

def DEFAULT_USER_AGENT : JsString := js "Consensus-Node/0.1"

/-- The headers of the call of `fetch`. -/
def buildHeaders {H : Type} (api : HeadersApi H) (forwarded : List (JsString × Json)) (originalHost : JsString) :
    Except JsError H := do
  let headers ← forwarded.foldlM (fun hs e => do
    let value ← toStr e.2
    api.set hs e.1 value) api.empty
  let headers ← api.set headers (js "host") originalHost
  if (api.get headers (js "user-agent")).isSome then .ok headers
  else api.set headers (js "user-agent") DEFAULT_USER_AGENT

/-- The class as the platform has it: `set` takes tokens as names and byte strings on one line as values,
and strips the white space around a value. -/
def fetchHeaders : HeadersApi (OrdMap JsString JsString) where
  empty := ∅
  set hs name value := headersSet hs name (.str value)
  get hs name := hs.get? (asciiLower name)

theorem setHeaders_fetch (l : List (JsString × Json)) (hs : OrdMap JsString JsString) :
    l.foldlM (fun hs e => headersSet hs e.1 e.2) hs = l.foldlM (fun hs e => do
      let value ← toStr e.2
      fetchHeaders.set hs e.1 value) hs := by
  congr 1

/-- The headers of the call of `fetch` are those that are built. -/
theorem upstreamRequest_eq_ok {p : Platform} {r : ProxyServeRequest} {plan : ProxyPlan} {res : SafeResolution}
    {up : UpstreamRequest} : upstreamRequest p r plan res = .ok up ↔ ∃ u hs,
      p.parseUrl r.target_url = some u ∧ buildHeaders fetchHeaders plan.forwarded u.host = .ok hs ∧
      up = { url := (pinHost p u res).href, method := plan.method, headers := hs,
             body := if CACHEABLE_METHODS.contains plan.method then none else r.body,
             serverName := if u.protocol = js "https:" then some u.hostname else none } := by
  have hua : ∀ hs : OrdMap JsString JsString, (fetchHeaders.get hs (js "user-agent")).isSome =
      hs.has (js "user-agent") := fun _ => rfl
  unfold upstreamRequest buildHeaders
  cases hu : p.parseUrl r.target_url with
  | none => simp [bind, Except.bind]
  | some u =>
    simp only [← setHeaders_fetch, bind_eq_ok, hua, pure, Except.pure, Except.ok.injEq, Option.some.injEq]
    constructor
    · rintro ⟨_, rfl, hs₁, h1, hs₂, h2, h3⟩
      by_cases hd : hs₂.has (js "user-agent") = true
      · rw [if_pos hd] at h3
        cases h3
        exact ⟨u, hs₂, rfl, ⟨hs₁, h1, hs₂, h2, by rw [if_pos hd]⟩, rfl⟩
      · rw [if_neg hd] at h3
        obtain ⟨hs₃, h4, h5⟩ := bind_eq_ok.mp h3
        cases h5
        exact ⟨u, hs₃, rfl, ⟨hs₁, h1, hs₂, h2, by rw [if_neg hd]; exact h4⟩, rfl⟩
    · rintro ⟨_, hs₃, rfl, ⟨hs₁, h1, hs₂, h2, h3⟩, rfl⟩
      refine ⟨u, rfl, hs₁, h1, hs₂, h2, ?_⟩
      by_cases hd : hs₂.has (js "user-agent") = true
      · rw [if_pos hd] at h3 ⊢
        cases h3
        rfl
      · rw [if_neg hd] at h3 ⊢
        exact bind_eq_ok.mpr ⟨hs₃, h3, rfl⟩

variable {p : Platform}

/-! ### Which entries are forwarded -/

/-- A record of headers: an object with string values. -/
structure HeaderRecord where
  entries : List (JsString × JsString)
  nodup : (entries.map Prod.fst).Nodup
  ordered : Ordered entries

def HeaderRecord.json (h : HeaderRecord) : Json := headersJson h.entries

section Names

variable (p)

/-- The last value that the entries give for a name in lower case. -/
def lastValue (n : JsString) (es : List (JsString × JsString)) : Option JsString :=
  (es.filter fun e => decide (p.toLowerCase e.1 = n)).getLast?.map Prod.snd

/-- A token of a `Connection` header is the name. -/
def NamedByConnection (es : List (JsString × JsString)) (n : JsString) : Prop :=
  n ≠ [] ∧ ∃ e ∈ es, p.toLowerCase e.1 = js "connection" ∧
    ∃ token ∈ e.2.splitOn (unit ','), p.toLowerCase (trim token) = n

instance (es : List (JsString × JsString)) (n : JsString) : Decidable (NamedByConnection p es n) :=
  inferInstanceAs (Decidable (_ ∧ _))

/-- Headers with the name are for the upstream. -/
def Passes (es : List (JsString × JsString)) (n : JsString) : Prop :=
  n ∉ HOP_BY_HOP ∧ ¬NamedByConnection p es n ∧ n ∉ CONSENSUS_CONTROL_HEADERS

instance (es : List (JsString × JsString)) (n : JsString) : Decidable (Passes p es n) :=
  inferInstanceAs (Decidable (_ ∧ _))

/-- The names that are stripped. -/
def denySet (es : List (JsString × JsString)) : List JsString :=
  HOP_BY_HOP ++ es.flatMap fun e => if p.toLowerCase e.1 = js "connection" then connectionTokens p e.2 else []

/-- The entries that are forwarded. -/
def forwardedStrings (es : List (JsString × JsString)) : List (JsString × JsString) :=
  sortEntries ((es.map fun e => (p.toLowerCase e.1, e.2)).filter fun e => isForwarded (denySet p es) e.1)

end Names

theorem mem_connectionTokens {v n : JsString} : n ∈ connectionTokens p v ↔
    n ≠ [] ∧ ∃ token ∈ v.splitOn (unit ','), p.toLowerCase (trim token) = n := by
  unfold connectionTokens
  rw [List.mem_filter, List.mem_map, and_comm]
  refine and_congr ?_ Iff.rfl
  cases n <;> simp

theorem isForwarded_denySet {es : List (JsString × JsString)} {n : JsString} :
    isForwarded (denySet p es) n = true ↔ Passes p es n := by
  have hnamed : n ∈ es.flatMap (fun e => if p.toLowerCase e.1 = js "connection" then connectionTokens p e.2
      else []) ↔ NamedByConnection p es n := by
    rw [List.mem_flatMap]
    constructor
    · rintro ⟨e, he, hn⟩
      split_ifs at hn with hc
      · obtain ⟨hne, htok⟩ := mem_connectionTokens.mp hn
        exact ⟨hne, e, he, hc, htok⟩
      · cases hn
    · rintro ⟨hne, e, he, hc, htok⟩
      refine ⟨e, he, ?_⟩
      rw [if_pos hc]
      exact mem_connectionTokens.mpr ⟨hne, htok⟩
  unfold isForwarded denySet Passes
  rw [← hnamed]
  simp only [Bool.not_eq_true', Bool.or_eq_false_iff, List.contains_eq_mem, decide_eq_false_iff_not,
    List.mem_append, not_or, and_assoc]

theorem buildHopByHopDenySet_strings (es : List (JsString × JsString)) :
    buildHopByHopDenySet p (es.map fun e => (e.1, Json.str e.2)) = .ok (denySet p es) := by
  unfold buildHopByHopDenySet denySet
  generalize HOP_BY_HOP = deny
  induction es generalizing deny with
  | nil =>
    rw [List.flatMap_nil, List.append_nil]
    rfl
  | cons e es ih =>
    rw [List.map_cons, List.foldlM_cons, List.flatMap_cons]
    by_cases hc : p.toLowerCase e.1 = js "connection"
    · rw [if_neg (not_not.mpr hc), if_pos hc, ← List.append_assoc]
      exact ih _
    · rw [if_pos hc, if_neg hc, List.nil_append]
      exact ih _

theorem forwardedHeaderEntries_strings (es : List (JsString × JsString)) :
    forwardedHeaderEntries p (headersJson es) =
      .ok ((forwardedStrings p es).map fun e => (e.1, Json.str e.2)) := by
  have hsort : (forwardedStrings p es).map (fun e => (e.1, Json.str e.2)) =
      sortEntries (((es.map fun e => (p.toLowerCase e.1, e.2)).filter
        fun e => isForwarded (denySet p es) e.1).map fun e => (e.1, Json.str e.2)) :=
    List.map_insertionSort _ _ _ _ fun _ _ _ _ => Iff.rfl
  refine bind_eq_ok.mpr ⟨_, rfl, bind_eq_ok.mpr ⟨_, buildHopByHopDenySet_strings es, ?_⟩⟩
  rw [hsort, List.map_map]
  show Except.ok (sortEntries _) = _
  congr 2
  simp only [List.filter_map, List.map_map]
  rfl

/-! ### A profile changes nothing -/

theorem control_not_forwarded : ∀ n ∈ PROFILE_CONTROL_HEADERS, n ∈ CONSENSUS_CONTROL_HEADERS ∧
    n ≠ js "connection" := by decide

theorem not_isRequestHeader {k : JsString} (h : isRequestHeader p k = false) :
    p.toLowerCase k ∈ PROFILE_CONTROL_HEADERS := by
  unfold isRequestHeader at h
  simpa using h

/-- Entries with control names are not forwarded, and name nothing. -/
theorem forwardedStrings_append_control {es ctl : List (JsString × JsString)}
    (h : ∀ e ∈ ctl, p.toLowerCase e.1 ∈ PROFILE_CONTROL_HEADERS) :
    forwardedStrings p (es.filter (fun e => isRequestHeader p e.1) ++ ctl) = forwardedStrings p es := by
  have hdeny : denySet p (es.filter (fun e => isRequestHeader p e.1) ++ ctl) = denySet p es := by
    unfold denySet
    have hctl : (ctl.flatMap fun e => if p.toLowerCase e.1 = js "connection" then connectionTokens p e.2
        else []) = [] := by
      refine List.flatMap_eq_nil_iff.mpr fun e he => ?_
      rw [if_neg (control_not_forwarded _ (h e he)).2]
    rw [List.flatMap_append, hctl, List.append_nil]
    congr 1
    induction es with
    | nil => rfl
    | cons e es ih =>
      rw [List.filter_cons, List.flatMap_cons]
      cases he : isRequestHeader p e.1 with
      | true => rw [if_pos rfl, List.flatMap_cons, ih]
      | false =>
        rw [if_neg Bool.false_ne_true, ih, if_neg (control_not_forwarded _ (not_isRequestHeader he)).2,
          List.nil_append]
  have hskip : ∀ n ∈ PROFILE_CONTROL_HEADERS, isForwarded (denySet p es) n = false := by
    intro n hn
    unfold isForwarded
    simp [(control_not_forwarded n hn).1]
  have hctl : (ctl.map fun e => (p.toLowerCase e.1, e.2)).filter
      (fun e => isForwarded (denySet p es) e.1) = [] := by
    refine List.filter_eq_nil_iff.mpr fun e he => ?_
    obtain ⟨c, hc, rfl⟩ := List.mem_map.mp he
    simpa using hskip _ (h c hc)
  unfold forwardedStrings
  rw [hdeny, List.map_append, List.filter_append, hctl, List.append_nil]
  congr 1
  rw [List.filter_map, List.filter_map, List.filter_filter]
  congr 1
  refine List.filter_congr fun e _ => ?_
  cases he : isRequestHeader p e.1 with
  | true => simp
  | false => simpa using hskip _ (not_isRequestHeader he)

theorem planRequest_forwarded (hp : p.AsciiCase) {h : HeaderRecord} {r : ProxyServeRequest}
    (hr : r.headers = some h.json) {plan : ProxyPlan} (hplan : planRequest p r = .ok plan) :
    plan.forwarded = (forwardedStrings p h.entries).map fun e => (e.1, Json.str e.2) := by
  obtain ⟨prepared, hprepared, hplan⟩ := bind_eq_ok.mp hplan
  obtain ⟨forwarded, hforwarded, hplan⟩ := bind_eq_ok.mp hplan
  obtain ⟨key, -, hplan⟩ := bind_eq_ok.mp hplan
  cases hplan
  show forwarded = _
  cases prepared with
  | none =>
    have heff : effectiveHeaders r none = headersJson h.entries := by
      unfold effectiveHeaders
      rw [hr]
      rfl
    rw [heff, forwardedHeaderEntries_strings] at hforwarded
    exact (Except.ok.inj hforwarded).symm
  | some q =>
    obtain ⟨input, hq⟩ := prepareRequest_eq_some hprepared
    obtain ⟨-, -, own, hown, -, hheaders⟩ := prepare_eq_ok.mp hq
    rw [hr] at hown
    have heff : effectiveHeaders r (some q) = headersJson (own ++ controlHeadersForNormalizedProfile q.profile) := by
      rw [← preparedHeaders_eq hp hown, ← hheaders]
      rfl
    obtain rfl : own = h.entries.filter fun e => isRequestHeader p e.1 :=
      Except.ok.inj (hown.symm.trans (requestHeaders_strings rfl (h.ordered.sublist List.filter_sublist)
        (h.nodup.sublist (List.filter_sublist.map _))))
    have hctl : ∀ e ∈ controlHeadersForNormalizedProfile q.profile,
        p.toLowerCase e.1 ∈ PROFILE_CONTROL_HEADERS := fun e he =>
      not_isRequestHeader (isRequestHeader_control hp
        ((controlHeaders_keys q.profile).subset (List.mem_map_of_mem he)))
    rw [heff, forwardedHeaderEntries_strings, forwardedStrings_append_control hctl] at hforwarded
    exact (Except.ok.inj hforwarded).symm

/-! ### The last value of a name -/

/-- The last value of a name in a list of pairs. -/
def lastOf (n : JsString) (l : List (JsString × JsString)) : Option JsString :=
  (l.filter fun e => decide (e.1 = n)).getLast?.map Prod.snd

/-- **Sorting is stable**: the entries with one key keep their order. -/
theorem filter_sortEntries {α : Type} (l : List (JsString × α)) (n : JsString) :
    (sortEntries l).filter (fun e => decide (e.1 = n)) = l.filter fun e => decide (e.1 = n) := by
  have hsub : (l.filter fun e => decide (e.1 = n)).Sublist (sortEntries l) := by
    refine List.sublist_insertionSort ?_ List.filter_sublist
    refine List.pairwise_of_forall_mem_list fun a ha b hb => ?_
    have ha' : a.1 = n := by simpa using (List.mem_filter.mp ha).2
    have hb' : b.1 = n := by simpa using (List.mem_filter.mp hb).2
    rw [ha', hb']
    exact List.le_refl n
  have hsub' : (l.filter fun e => decide (e.1 = n)).Sublist
      ((sortEntries l).filter fun e => decide (e.1 = n)) := by
    have := hsub.filter fun e => decide (e.1 = n)
    rwa [List.filter_filter, List.filter_congr (q := fun e => decide (e.1 = n)) (by simp)] at this
  exact (hsub'.eq_of_length ((sortEntries_perm l).filter _).length_eq.symm).symm

theorem lastOf_cons (n : JsString) (e : JsString × JsString) (l : List (JsString × JsString)) :
    lastOf n (e :: l) = (lastOf n l).or (if e.1 = n then some e.2 else none) :=
  last_filter_cons (· = n) e l

theorem lastOf_forwardedStrings (es : List (JsString × JsString)) (n : JsString) :
    lastOf n (forwardedStrings p es) = if Passes p es n then lastValue p n es else none := by
  unfold lastOf forwardedStrings lastValue
  rw [filter_sortEntries, List.filter_filter, List.filter_map]
  split_ifs with hpass
  · have hfilter : es.filter ((fun e : JsString × JsString => decide (e.1 = n) && isForwarded (denySet p es) e.1) ∘
        fun e => (p.toLowerCase e.1, e.2)) = es.filter fun e => decide (p.toLowerCase e.1 = n) := by
      refine List.filter_congr fun e _ => ?_
      by_cases he : p.toLowerCase e.1 = n
      · simp [he, isForwarded_denySet.mpr hpass]
      · simp [he]
    rw [hfilter, List.getLast?_map, Option.map_map]
    rfl
  · rw [List.filter_eq_nil_iff.mpr]
    · rfl
    · intro e _
      simp only [Function.comp, Bool.and_eq_true, decide_eq_true_eq, isForwarded_denySet]
      rintro ⟨rfl, h⟩
      exact hpass h

/-! ### Building the object -/

section Build

variable {H : Type} {api : HeadersApi H} {store : JsString → JsString}

theorem get_setAll (ha : api.IsMap store) : ∀ {l : List (JsString × JsString)} {hs hs' : H},
    (∀ e ∈ l, asciiLower e.1 = e.1) →
    (l.map fun e => (e.1, Json.str e.2)).foldlM (fun hs e => do
      let value ← toStr e.2
      api.set hs e.1 value) hs = .ok hs' →
    ∀ n, asciiLower n = n → api.get hs' n = ((lastOf n l).map store).or (api.get hs n)
  | [], hs, hs', _, h, n, _ => by
    cases h
    rfl
  | e :: l, hs, hs', hlow, h, n, hn => by
    rw [List.map_cons, List.foldlM_cons, bind_eq_ok] at h
    obtain ⟨hs₁, h1, h2⟩ := h
    rw [get_setAll ha (fun x hx => hlow x (List.mem_cons_of_mem _ hx)) h2 n hn, ha.get_set h1 n, hn,
      hlow e List.mem_cons_self, lastOf_cons]
    cases lastOf n l with
    | some v => rfl
    | none =>
      by_cases he : e.1 = n
      · rw [if_pos he.symm, if_pos he]
        rfl
      · rw [if_neg (Ne.symm he), if_neg he]
        rfl

/-- **What is under a name**: the last value set, before it the host and behind it the default. -/
theorem get_buildHeaders (ha : api.IsMap store) {l : List (JsString × JsString)}
    (hlow : ∀ e ∈ l, asciiLower e.1 = e.1) {host : JsString} {hs : H}
    (h : buildHeaders api (l.map fun e => (e.1, Json.str e.2)) host = .ok hs) {n : JsString}
    (hn : asciiLower n = n) :
    api.get hs n = (if n = js "host" then some host
      else (lastOf n l).or (if n = js "user-agent" then some DEFAULT_USER_AGENT else none)).map store := by
  have hnames : asciiLower (js "host") = js "host" ∧ asciiLower (js "user-agent") = js "user-agent" ∧
      js "user-agent" ≠ js "host" := by decide
  simp only [buildHeaders, bind_eq_ok] at h
  obtain ⟨hs₁, h1, hs₂, h2, h3⟩ := h
  -- before the default
  have hset : ∀ {m : JsString}, asciiLower m = m →
      api.get hs₂ m = (if m = js "host" then some host else lastOf m l).map store := by
    intro m hm
    rw [ha.get_set h2 m, hm, hnames.1]
    split_ifs with hh
    · rfl
    · rw [get_setAll ha hlow h1 m hm, ha.get_empty, Option.or_none]
  by_cases hn' : n = js "host"
  · have hget : api.get hs n = api.get hs₂ n := by
      split_ifs at h3 with hua
      · cases h3
        rfl
      · rw [ha.get_set h3 n, hn, hnames.2.1, if_neg]
        rw [hn']
        exact hnames.2.2.symm
    rw [hget, hset hn, if_pos hn', if_pos hn']
  · split_ifs at h3 with hua
    · cases h3
      rw [hset hn, if_neg hn', if_neg hn']
      by_cases hnu : n = js "user-agent"
      · rw [← hnu, hset hn, if_neg hn', Option.isSome_map] at hua
        obtain ⟨v, hv⟩ := Option.isSome_iff_exists.mp hua
        rw [hv, Option.some_or]
      · rw [if_neg hnu, Option.or_none]
    · rw [ha.get_set h3 n, hn, hnames.2.1, if_neg hn']
      by_cases hnu : n = js "user-agent"
      · rw [← hnu, hset hn, if_neg hn', Option.isSome_map, Bool.not_eq_true, Option.isSome_eq_false_iff,
          Option.isNone_iff_eq_none] at hua
        rw [if_pos hnu, if_pos hnu, hua]
        rfl
      · rw [if_neg hnu, if_neg hnu, hset hn, if_neg hn', Option.or_none]

end Build

/-! ### The ticket binds what the upstream gets -/

/-- The case tables on ASCII text; and a text in lower case has no capital of ASCII. -/
structure LowerCase (p : Platform) : Prop extends Platform.AsciiCase p where
  lower_lower : ∀ s, asciiLower (p.toLowerCase s) = p.toLowerCase s

theorem mem_forwardedStrings {es : List (JsString × JsString)} {e : JsString × JsString} :
    e ∈ forwardedStrings p es ↔ Passes p es e.1 ∧ ∃ e' ∈ es, (p.toLowerCase e'.1, e'.2) = e := by
  unfold forwardedStrings
  rw [(sortEntries_perm _).mem_iff, List.mem_filter, List.mem_map, isForwarded_denySet, and_comm]

theorem forwardedStrings_lower (hp : LowerCase p) {es : List (JsString × JsString)} :
    ∀ e ∈ forwardedStrings p es, asciiLower e.1 = e.1 := by
  intro e he
  obtain ⟨-, e', -, rfl⟩ := mem_forwardedStrings.mp he
  exact hp.lower_lower e'.1

/-- **What a plan sends under a name.** -/
theorem get_planned (hp : LowerCase p) {H : Type} {api : HeadersApi H} {store : JsString → JsString}
    (ha : api.IsMap store) {h : HeaderRecord} {r : ProxyServeRequest} (hr : r.headers = some h.json)
    {plan : ProxyPlan} (hplan : planRequest p r = .ok plan) {host : JsString} {hs : H}
    (hbuild : buildHeaders api plan.forwarded host = .ok hs) {n : JsString} (hn : asciiLower n = n) :
    api.get hs n = (if n = js "host" then some host
      else (if Passes p h.entries n then lastValue p n h.entries else none).or
        (if n = js "user-agent" then some DEFAULT_USER_AGENT else none)).map store := by
  rw [planRequest_forwarded hp.toAsciiCase hr hplan] at hbuild
  rw [get_buildHeaders ha (forwardedStrings_lower hp) hbuild hn, lastOf_forwardedStrings]

theorem lookup_canonical (h : HeaderRecord) : ∃ sem, canonicalizeSemanticHeaders p h.json = .ok sem ∧
    ∀ n ∈ SEMANTIC_HEADERS, sem.lookup n =
      ((lastValue p n h.entries).map (semanticText p n)).filter fun v => decide (v ≠ []) := by
  obtain ⟨r, hr, hlook⟩ := canonicalizeSemanticHeaders_strings (p := p) h.entries
  refine ⟨orderedHeaders r, hr, fun n hn => ?_⟩
  rw [lookup_orderedHeaders hn, hlook n hn, semanticValues, List.getLast?_map, lastValue, Option.map_map]
  rfl

theorem semantic_names : ∀ n ∈ SEMANTIC_HEADERS,
    asciiLower n = n ∧ n ≠ js "host" ∧ n ≠ js "user-agent" := by decide

/-- The canonical form has, under a name that is sent, the text of the very value that is sent. -/
theorem canonical_of_sent (hp : LowerCase p) {H : Type} {api : HeadersApi H} {store : JsString → JsString}
    (ha : api.IsMap store) {h : HeaderRecord} {r : ProxyServeRequest} (hr : r.headers = some h.json)
    {plan : ProxyPlan} (hplan : planRequest p r = .ok plan) {host : JsString} {hs : H}
    (hbuild : buildHeaders api plan.forwarded host = .ok hs) :
    ∃ sem, canonicalizeSemanticHeaders p h.json = .ok sem ∧
      ∀ n ∈ SEMANTIC_HEADERS, ∀ v, api.get hs n = some v → ∃ w, v = store w ∧
        sem.lookup n = if semanticText p n w = [] then none else some (semanticText p n w) := by
  obtain ⟨sem, hsem, hlook⟩ := lookup_canonical (p := p) h
  refine ⟨sem, hsem, fun n hn v hv => ?_⟩
  obtain ⟨hlow, hhost, hua⟩ := semantic_names n hn
  rw [get_planned hp ha hr hplan hbuild hlow, if_neg hhost, if_neg hua, Option.or_none] at hv
  split_ifs at hv with hpass
  · obtain ⟨w, hw, rfl⟩ := Option.map_eq_some_iff.mp hv
    refine ⟨w, rfl, ?_⟩
    rw [hlook n hn, hw, Option.map_some, Option.filter_some]
    by_cases hc : semanticText p n w = []
    · simp [hc]
    · simp [hc]
  · cases hv

theorem hash_not_allowed : ∀ n ∈ HASH_HEADERS, n ∉ ALLOW_HEADERS := by decide

/-- **The ticket binds the header that the upstream gets.** -/
theorem semantic_headers_agree (p : Platform) (hp : LowerCase p) (hlen : ∀ b, p.sha256 b ≠ []) {H : Type}
    (api : HeadersApi H) (ha : api.IsMap id) (h : HeaderRecord) (r : ProxyServeRequest)
    (hr : r.headers = some h.json) (plan : ProxyPlan) (hplan : planRequest p r = .ok plan) (host : JsString)
    (hs : H) (hbuild : buildHeaders api plan.forwarded host = .ok hs) :
    ∃ sem, canonicalizeSemanticHeaders p h.json = .ok sem ∧
      ∀ n v, api.get hs n = some v →
        (n ∈ ALLOW_HEADERS → sem.lookup n = if cleaned v = [] then none else some (cleaned v)) ∧
        (n ∈ HASH_HEADERS → sem.lookup n = some (sha256HexText p v)) := by
  obtain ⟨sem, hsem, hsent⟩ := canonical_of_sent hp ha hr hplan hbuild
  refine ⟨sem, hsem, fun n v hv => ⟨fun hn => ?_, fun hn => ?_⟩⟩
  · obtain ⟨_, rfl, hw⟩ := hsent n (List.mem_append_left _ hn) v hv
    rw [hw, semanticText, if_pos hn]
  · obtain ⟨_, rfl, hw⟩ := hsent n (List.mem_append_right _ hn) v hv
    have hne : sha256HexText p v ≠ [] := hex_ne_nil (hlen _)
    rw [hw, semanticText, if_neg (hash_not_allowed n hn), if_neg hne]

namespace Sample

/-- A map by names in lower case. -/
def mapHeaders : HeadersApi (OrdMap JsString JsString) where
  empty := ∅
  set hs name value := .ok (hs.set (asciiLower name) value)
  get hs name := hs.get? (asciiLower name)

theorem mapHeaders_isMap : mapHeaders.IsMap id where
  get_empty _ := rfl
  get_set {hs hs' n v} h m := by
    cases h
    exact OrdMap.get?_set hs (asciiLower n) (asciiLower m) v

theorem dedupe_lowerCase : LowerCase dedupeTables.platform where
  upper _ _ := rfl
  lower _ _ := rfl
  lower_lower := asciiLower_asciiLower

/-- Two spellings of one name, and a credential. -/
def twiceRecord : HeaderRecord where
  entries := [(js "ACCEPT", js "text/html"), (js "Cookie", js "id=7"), (js "accept", js "a,  b")]
  nodup := by decide
  ordered := by unfold Ordered; decide

def twiceRequest : ProxyServeRequest where
  target_url := js "https://api.example.com/v1"
  headers := some twiceRecord.json

def twicePlan : ProxyPlan where
  method := js "GET"
  profile := none
  profileHash := none
  forwarded := [(js "accept", .str (js "text/html")), (js "accept", .str (js "a,  b")),
    (js "cookie", .str (js "id=7"))]
  cacheKey := none

def twiceHeaders : OrdMap JsString JsString :=
  (buildHeaders mapHeaders twicePlan.forwarded (js "api.example.com")).toOption.getD ∅

theorem twice_agree : ∃ sem, canonicalizeSemanticHeaders dedupeTables.platform twiceRecord.json = .ok sem ∧
    mapHeaders.get twiceHeaders (js "accept") = some (js "a,  b") ∧
    sem.lookup (js "accept") = some (js "a, b") := by
  obtain ⟨sem, hsem, hall⟩ := semantic_headers_agree dedupeTables.platform dedupe_lowerCase digest_ne_nil
    mapHeaders mapHeaders_isMap twiceRecord twiceRequest rfl twicePlan (by decide)
    (js "api.example.com") twiceHeaders (by decide)
  have hget : mapHeaders.get twiceHeaders (js "accept") = some (js "a,  b") := by decide
  exact ⟨sem, hsem, hget, ((hall _ _ hget).1 (by decide)).trans (by decide)⟩

end Sample

/-! ### Forwarding is exact -/

/-- `set` takes the name and the value. -/
def Accepted (n v : JsString) : Prop :=
  n ≠ [] ∧ (∀ c ∈ n, isTokenUnit c = true) ∧
    ∀ c ∈ trimHttpSpace v, ¬(255 < c ∨ c = 0 ∨ c = 10 ∨ c = 13)

theorem headersSet_eq_ok {hs hs' : OrdMap JsString JsString} {n v : JsString} :
    headersSet hs n (.str v) = .ok hs' ↔ Accepted n v ∧ hs' = hs.set (asciiLower n) (trimHttpSpace v) := by
  have hcond : (n = [] ∨ n.any (fun c => !isTokenUnit c) = true ∨
      (trimHttpSpace v).any (fun c => 255 < c || c = 0 || c = 10 || c = 13) = true) ↔ ¬Accepted n v := by
    unfold Accepted
    simp only [List.any_eq_true, Bool.not_eq_true', Bool.or_eq_true, decide_eq_true_eq, or_assoc, not_and_or,
      ne_eq, not_not, not_forall, exists_prop, Bool.not_eq_true]
  show (if _ then Except.error JsError.native else Except.ok _) = _ ↔ _
  split_ifs with h
  · simp [hcond.mp h]
  · rw [hcond, not_not] at h
    simp [h, eq_comm]

theorem fetchHeaders_isMap : fetchHeaders.IsMap trimHttpSpace where
  get_empty _ := rfl
  get_set {hs hs' n v} h m := by
    obtain ⟨-, rfl⟩ := headersSet_eq_ok.mp h
    exact OrdMap.get?_set hs (asciiLower n) (asciiLower m) (trimHttpSpace v)

/-- `trim` strips what `Headers` strips. -/
theorem trim_trimHttpSpace (v : JsString) : trim (trimHttpSpace v) = trim v := by
  have hspace : ∀ {s : JsString}, ∀ c ∈ s.takeWhile isHttpSpace, isSpace c = true := by
    intro s c hc
    have hhttp := List.mem_takeWhile_imp hc
    simp only [isHttpSpace, Bool.or_eq_true, decide_eq_true_eq, or_assoc] at hhttp
    rcases hhttp with rfl | rfl | rfl | rfl <;> decide
  have hsplit : v = v.takeWhile isHttpSpace ++ trimHttpSpace v ++
      ((v.dropWhile isHttpSpace).reverse.takeWhile isHttpSpace).reverse := by
    unfold trimHttpSpace
    rw [List.append_assoc, ← List.reverse_append, List.takeWhile_append_dropWhile, List.reverse_reverse,
      List.takeWhile_append_dropWhile]
  conv_rhs => rw [hsplit]
  exact (trim_surround hspace fun c hc => hspace c (List.mem_reverse.mp hc)).symm

/-- With the class as the platform has it `accept` and `content-type` agree as they are; a credential is
hashed with the white space around it, which the upstream does not get. -/
theorem semantic_headers_fetch (hp : LowerCase p) (hlen : ∀ b, p.sha256 b ≠ []) {h : HeaderRecord}
    {r : ProxyServeRequest} (hr : r.headers = some h.json) {plan : ProxyPlan}
    (hplan : planRequest p r = .ok plan) {res : SafeResolution} {up : UpstreamRequest}
    (hup : upstreamRequest p r plan res = .ok up) :
    ∃ sem, canonicalizeSemanticHeaders p h.json = .ok sem ∧
      ∀ n v, up.headers.get? n = some v →
        (n ∈ ALLOW_HEADERS → sem.lookup n = if cleaned v = [] then none else some (cleaned v)) ∧
        (n ∈ HASH_HEADERS → ∃ w, v = trimHttpSpace w ∧ sem.lookup n = some (sha256HexText p w)) := by
  obtain ⟨u, hs, -, hbuild, rfl⟩ := upstreamRequest_eq_ok.mp hup
  obtain ⟨sem, hsem, hsent⟩ := canonical_of_sent hp fetchHeaders_isMap hr hplan hbuild
  have hget : ∀ n ∈ SEMANTIC_HEADERS, fetchHeaders.get hs n = hs.get? n := by
    intro n hn
    show hs.get? (asciiLower n) = _
    rw [(semantic_names n hn).1]
  refine ⟨sem, hsem, fun n v hv => ⟨fun hn => ?_, fun hn => ?_⟩⟩
  · have hmem := List.mem_append_left HASH_HEADERS hn
    obtain ⟨w, rfl, hw⟩ := hsent n hmem v ((hget n hmem).trans hv)
    rw [hw, semanticText, if_pos hn, cleaned, cleaned, trim_trimHttpSpace]
  · have hmem := List.mem_append_right ALLOW_HEADERS hn
    obtain ⟨w, rfl, hw⟩ := hsent n hmem v ((hget n hmem).trans hv)
    have hne : sha256HexText p w ≠ [] := hex_ne_nil (hlen _)
    refine ⟨w, rfl, ?_⟩
    rw [hw, semanticText, if_neg (hash_not_allowed n hn), if_neg hne]

/-- Every name in the object is in lower case. -/
def LowerKeys (hs : OrdMap JsString JsString) : Prop := ∀ n, asciiLower n ≠ n → hs.get? n = none

theorem lowerKeys_set {hs hs' : OrdMap JsString JsString} {n : JsString} {v : JsString} (h : LowerKeys hs)
    (hset : fetchHeaders.set hs n v = .ok hs') : LowerKeys hs' := by
  obtain ⟨-, rfl⟩ := headersSet_eq_ok.mp hset
  intro m hm
  have hne : m ≠ asciiLower n := by
    rintro rfl
    exact hm (asciiLower_asciiLower n)
  rw [OrdMap.get?_set_ne _ _ hne]
  exact h m hm

theorem lowerKeys_buildHeaders {l : List (JsString × Json)} {host : JsString} {hs : OrdMap JsString JsString}
    (h : buildHeaders fetchHeaders l host = .ok hs) : LowerKeys hs := by
  have hall : ∀ {l : List (JsString × Json)} {hs hs' : OrdMap JsString JsString}, LowerKeys hs →
      l.foldlM (fun hs e => do
        let value ← toStr e.2
        fetchHeaders.set hs e.1 value) hs = .ok hs' → LowerKeys hs' := by
    intro l
    induction l with
    | nil =>
      rintro hs hs' hlow ⟨⟩
      exact hlow
    | cons e l ih =>
      intro hs hs' hlow h
      rw [List.foldlM_cons, bind_eq_ok] at h
      obtain ⟨hs₁, h1, h2⟩ := h
      obtain ⟨v, -, hset⟩ := bind_eq_ok.mp h1
      exact ih (lowerKeys_set hlow hset) h2
  simp only [buildHeaders, bind_eq_ok] at h
  obtain ⟨hs₁, h1, hs₂, h2, h3⟩ := h
  have hlow := lowerKeys_set (hall (fun _ _ => rfl) h1) h2
  split_ifs at h3
  · cases h3
    exact hlow
  · exact lowerKeys_set hlow h3

theorem setAll_ok_iff : ∀ {l : List (JsString × JsString)} (hs : OrdMap JsString JsString),
    (∃ hs', (l.map fun e => (e.1, Json.str e.2)).foldlM (fun hs e => do
      let value ← toStr e.2
      fetchHeaders.set hs e.1 value) hs = .ok hs') ↔ ∀ e ∈ l, Accepted e.1 e.2
  | [], hs => by simp [pure, Except.pure]
  | e :: l, hs => by
    rw [List.map_cons, List.foldlM_cons, List.forall_mem_cons]
    simp only [bind_eq_ok]
    constructor
    · rintro ⟨hs', hs₁, ⟨v, hv, hset⟩, h2⟩
      cases hv
      exact ⟨(headersSet_eq_ok.mp hset).1, (setAll_ok_iff _).mp ⟨hs', h2⟩⟩
    · rintro ⟨he, hl⟩
      obtain ⟨hs', h2⟩ := (setAll_ok_iff (hs.set (asciiLower e.1) (trimHttpSpace e.2))).mpr hl
      exact ⟨hs', _, ⟨e.2, rfl, headersSet_eq_ok.mpr ⟨he, rfl⟩⟩, h2⟩

theorem buildHeaders_ok_iff {l : List (JsString × JsString)} {host : JsString} :
    (∃ hs, buildHeaders fetchHeaders (l.map fun e => (e.1, Json.str e.2)) host = .ok hs) ↔
      Accepted (js "host") host ∧ ∀ e ∈ l, Accepted e.1 e.2 := by
  have hua : Accepted (js "user-agent") DEFAULT_USER_AGENT := by
    unfold Accepted
    decide
  simp only [buildHeaders, bind_eq_ok]
  constructor
  · rintro ⟨hs, hs₁, h1, hs₂, h2, -⟩
    exact ⟨(headersSet_eq_ok.mp h2).1, (setAll_ok_iff _).mp ⟨hs₁, h1⟩⟩
  · rintro ⟨hhost, hl⟩
    obtain ⟨hs₁, h1⟩ := (setAll_ok_iff _).mpr hl
    have h2 : fetchHeaders.set hs₁ (js "host") host =
        .ok (hs₁.set (asciiLower (js "host")) (trimHttpSpace host)) := headersSet_eq_ok.mpr ⟨hhost, rfl⟩
    by_cases hd : (fetchHeaders.get (hs₁.set (asciiLower (js "host")) (trimHttpSpace host))
        (js "user-agent")).isSome = true
    · exact ⟨_, hs₁, h1, _, h2, if_pos hd⟩
    · exact ⟨_, hs₁, h1, _, h2, (if_neg hd).trans (headersSet_eq_ok.mpr ⟨hua, rfl⟩)⟩

/-- What the upstream is to get under a name in lower case. -/
def upstreamHeader (p : Platform) (h : HeaderRecord) (originalHost n : JsString) : Option JsString :=
  if n = js "host" then some originalHost
  else (if Passes p h.entries n then lastValue p n h.entries else none).or
    (if n = js "user-agent" then some DEFAULT_USER_AGENT else none)

/-- **Header forwarding is exact**: the request is built exactly when `Headers` takes what is forwarded, and
then it has under every name what it should, as `Headers` stores it. -/
theorem forwarding_exact (p : Platform) (hp : LowerCase p) (h : HeaderRecord) (r : ProxyServeRequest)
    (hr : r.headers = some h.json) (plan : ProxyPlan) (hplan : planRequest p r = .ok plan)
    (res : SafeResolution) :
    ((∃ up, upstreamRequest p r plan res = .ok up) ↔ ∃ u, p.parseUrl r.target_url = some u ∧
      Accepted (js "host") u.host ∧
      ∀ e ∈ h.entries, Passes p h.entries (p.toLowerCase e.1) → Accepted (p.toLowerCase e.1) e.2) ∧
    ∀ up u, upstreamRequest p r plan res = .ok up → p.parseUrl r.target_url = some u →
      ∀ n, up.headers.get? n = (upstreamHeader p h u.host n).map trimHttpSpace := by
  have hforwarded := planRequest_forwarded hp.toAsciiCase hr hplan
  constructor
  · have hmem : (∀ e ∈ forwardedStrings p h.entries, Accepted e.1 e.2) ↔
        ∀ e ∈ h.entries, Passes p h.entries (p.toLowerCase e.1) → Accepted (p.toLowerCase e.1) e.2 := by
      simp only [mem_forwardedStrings]
      constructor
      · intro hall e he hpass
        exact hall (p.toLowerCase e.1, e.2) ⟨hpass, e, he, rfl⟩
      · rintro hall _ ⟨hpass, e, he, rfl⟩
        exact hall e he hpass
    rw [← hmem]
    constructor
    · rintro ⟨up, hup⟩
      obtain ⟨u, hs, hu, hbuild, -⟩ := upstreamRequest_eq_ok.mp hup
      rw [hforwarded] at hbuild
      exact ⟨u, hu, buildHeaders_ok_iff.mp ⟨hs, hbuild⟩⟩
    · rintro ⟨u, hu, haccepted⟩
      obtain ⟨hs, hbuild⟩ := buildHeaders_ok_iff.mpr haccepted
      rw [← hforwarded] at hbuild
      exact ⟨_, upstreamRequest_eq_ok.mpr ⟨u, hs, hu, hbuild, rfl⟩⟩
  · intro up u hup hu n
    obtain ⟨u', hs, hu', hbuild, rfl⟩ := upstreamRequest_eq_ok.mp hup
    cases hu.symm.trans hu'
    by_cases hn : asciiLower n = n
    · have hget := get_planned hp fetchHeaders_isMap hr hplan hbuild hn
      have hsame : fetchHeaders.get hs n = hs.get? n := by
        show hs.get? (asciiLower n) = _
        rw [hn]
      rw [← hsame, hget]
      rfl
    · -- no name in lower case is `n`
      have hnames : asciiLower (js "host") = js "host" ∧ asciiLower (js "user-agent") = js "user-agent" := by
        decide
      have hlast : lastValue p n h.entries = none := by
        unfold lastValue
        rw [List.filter_eq_nil_iff.mpr]
        · rfl
        · intro e _
          rw [decide_eq_true_eq]
          rintro rfl
          exact hn (hp.lower_lower e.1)
      have hhost : n ≠ js "host" := fun h => hn (h ▸ hnames.1)
      have hua : n ≠ js "user-agent" := fun h => hn (h ▸ hnames.2)
      rw [lowerKeys_buildHeaders hbuild n hn, upstreamHeader, if_neg hhost, if_neg hua, hlast, ite_self]
      rfl

namespace Sample

def paddedRecord : HeaderRecord where
  entries := [(js "Connection", js "close, X-Trace"), (js "X-Trace", js "1"), (js "X-A", js " b "),
    (js "X-Api-Key", js "k")]
  nodup := by decide
  ordered := by unfold Ordered; decide

def paddedRequest : ProxyServeRequest where
  target_url := js "https://api.example.com/v1"
  headers := some paddedRecord.json

def paddedPlan : ProxyPlan where
  method := js "GET"
  profile := none
  profileHash := none
  forwarded := [(js "x-a", .str (js " b "))]
  cacheKey := none

def checkedAddress : SafeResolution where
  hostname := js "api.example.com"
  ip := js "93.184.216.34"
  family := 4
  isLiteral := false

def siteTarget : Url := Url.plain (js "https:") (js "api.example.com") (js "/v1")

def paddedUpstream : UpstreamRequest where
  url := (pinHost dedupeTables.platform siteTarget checkedAddress).href
  method := js "GET"
  headers := (buildHeaders fetchHeaders paddedPlan.forwarded (js "api.example.com")).toOption.getD ∅
  body := none
  serverName := some (js "api.example.com")

theorem padded_sent : upstreamRequest dedupeTables.platform paddedRequest paddedPlan checkedAddress =
    .ok paddedUpstream := by decide

/-- The value is not the last value given, but that value without the white space around it. -/
theorem padded_value_stripped : planRequest dedupeTables.platform paddedRequest = .ok paddedPlan ∧
    upstreamRequest dedupeTables.platform paddedRequest paddedPlan checkedAddress = .ok paddedUpstream ∧
    upstreamHeader dedupeTables.platform paddedRecord (js "api.example.com") (js "x-a") = some (js " b ") ∧
    paddedUpstream.headers.get? (js "x-a") = some (js "b") := by
  refine ⟨by decide, padded_sent, by decide, by decide⟩

theorem padded_exact : paddedUpstream.headers.get? (js "x-a") =
    (upstreamHeader dedupeTables.platform paddedRecord (js "api.example.com") (js "x-a")).map trimHttpSpace :=
  (forwarding_exact dedupeTables.platform dedupe_lowerCase paddedRecord paddedRequest rfl paddedPlan
    (by decide) checkedAddress).2 paddedUpstream siteTarget padded_sent (by decide) (js "x-a")

end Sample

end ConsensusNode.Runtime
