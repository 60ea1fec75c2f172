import ConsensusNode.Runtime.Dedupe

/-! # The dedupe key binds the request

* `lookup_collect`: what the loop over the headers leaves under one of the four names: the value of the last
  header with this name up to case.
* `stableStringify_fields`: equal sorted texts of objects have fields with equal sorted texts.
* `dedupe_binds`: without collisions of SHA-256 two requests with the same key have the same upper-cased
  method, canonical URL, semantic header values, body bytes and profile hash. -/

namespace ConsensusNode.Runtime

open Js

variable (p : Platform)

/-! ### Semantic headers -/

/-- The value of the last header that has the name `n` in lower case. -/
def headerValue (n : JsString) (entries : List (JsString × Json)) : Option Json :=
  (entries.filter fun h => decide (p.toLowerCase h.1 = n)).getLast?.map Prod.snd

/-- The value of a header of the request, if it is a string. -/
def headerText (d : DedupeParams) (n : JsString) : Option JsString :=
  match objectEntries (d.headers.getD (.obj [])) with
  | .ok entries =>
    match headerValue p n entries with
    | some (.str v) => some v
    | _ => none
  | .error _ => none

/-- Trimmed and collapsed. -/
def cleaned (v : JsString) : JsString := collapseSpace (trim v)

/-- What the loop stores for a value under the name `n`. -/
def semanticText (n v : JsString) : JsString :=
  if n ∈ ALLOW_HEADERS then cleaned v else sha256HexText p v

/-- The bytes that `computeBodyHash` hashes. -/
def bodyBytes : RequestBody → Bytes
  | .text s => utf8 s
  | .buffer b => b
  | .value v => utf8 (stableStringify v)

variable {p}

/-- The value of the last entry that passes a test, after one more entry in front. -/
theorem last_filter_cons {κ ν : Type} (q : κ → Prop) [DecidablePred q] (e : κ × ν) (es : List (κ × ν)) :
    ((e :: es).filter fun e => decide (q e.1)).getLast?.map Prod.snd =
      ((es.filter fun e => decide (q e.1)).getLast?.map Prod.snd).or (if q e.1 then some e.2 else none) := by
  rw [List.filter_cons]
  split_ifs with h1 h2 h2
  · rw [List.getLast?_cons]
    cases (es.filter fun e => decide (q e.1)).getLast? <;> rfl
  · exact absurd (of_decide_eq_true h1) h2
  · exact absurd (decide_eq_true h2) h1
  · rw [Option.or_none]

theorem headerValue_cons (n : JsString) (h : JsString × Json) (es : List (JsString × Json)) :
    headerValue p n (h :: es) =
      (headerValue p n es).or (if p.toLowerCase h.1 = n then some h.2 else none) :=
  last_filter_cons (fun k => p.toLowerCase k = n) h es

theorem collectHeader_eq_ok {r r' : List (JsString × JsString)} {h : JsString × Json} {n : JsString}
    (hn : n ∈ ALLOW_HEADERS ++ HASH_HEADERS) (hc : collectHeader p r h = .ok r') :
    (p.toLowerCase h.1 = n → ∃ v, h.2 = .str v ∧ r'.lookup n = some (semanticText p n v)) ∧
      (p.toLowerCase h.1 ≠ n → r'.lookup n = r.lookup n) := by
  unfold collectHeader at hc
  dsimp only at hc
  split_ifs at hc with h1 h2
  · split at hc
    · rename_i v hv
      cases hc
      constructor
      · intro hl
        refine ⟨v, hv, ?_⟩
        rw [lookup_setField, if_pos hl.symm, semanticText, if_pos (hl ▸ h1)]
        rfl
      · intro hl
        rw [lookup_setField, if_neg (Ne.symm hl)]
    · cases hc
  · split at hc
    · rename_i v hv
      cases hc
      constructor
      · intro hl
        refine ⟨v, hv, ?_⟩
        rw [lookup_setField, if_pos hl.symm, semanticText, if_neg (hl ▸ h1)]
      · intro hl
        rw [lookup_setField, if_neg (Ne.symm hl)]
    · cases hc
  · cases hc
    refine ⟨fun hl => ?_, fun _ => rfl⟩
    rcases List.mem_append.mp hn with hn | hn
    · exact absurd (hl ▸ hn) h1
    · exact absurd (hl ▸ hn) h2

/-- **What the loop leaves under a name.** -/
theorem lookup_collect {n : JsString} (hn : n ∈ ALLOW_HEADERS ++ HASH_HEADERS) :
    ∀ {es : List (JsString × Json)} {r r' : List (JsString × JsString)},
      es.foldlM (collectHeader p) r = .ok r' →
      (∃ v, headerValue p n es = some (.str v) ∧ r'.lookup n = some (semanticText p n v)) ∨
        (headerValue p n es = none ∧ r'.lookup n = r.lookup n)
  | [], r, r', h => by
    cases h
    exact .inr ⟨rfl, rfl⟩
  | e :: es, r, r', h => by
    rw [List.foldlM_cons, bind_eq_ok] at h
    obtain ⟨r₁, h1, h2⟩ := h
    obtain ⟨hhit, hmiss⟩ := collectHeader_eq_ok hn h1
    rw [headerValue_cons]
    rcases lookup_collect hn h2 with ⟨v, hv, hr⟩ | ⟨hnone, hr⟩
    · exact .inl ⟨v, by rw [hv]; rfl, hr⟩
    · rw [hnone, Option.none_or]
      by_cases hl : p.toLowerCase e.1 = n
      · obtain ⟨v, hv, hr₁⟩ := hhit hl
        exact .inl ⟨v, by rw [if_pos hl, hv], hr.trans hr₁⟩
      · exact .inr ⟨by rw [if_neg hl], hr.trans (hmiss hl)⟩

theorem lookup_filterMap_self {α : Type} (f : JsString → Option α) : ∀ (ns : List JsString) (n : JsString),
    (ns.filterMap fun m => (f m).map fun v => (m, v)).lookup n = if n ∈ ns then f n else none
  | [], n => by simp
  | m :: ns, n => by
    have ih := lookup_filterMap_self f ns n
    rw [List.filterMap_cons]
    by_cases hm : n = m
    · subst hm
      cases hf : f n with
      | none =>
        rw [Option.map_none]
        dsimp only
        rw [ih, hf]
        simp
      | some v =>
        rw [Option.map_some]
        dsimp only
        rw [List.lookup_cons_self]
        simp
    · have hb : (n == m) = false := by simpa using hm
      cases hf : f m with
      | none =>
        rw [Option.map_none]
        dsimp only
        rw [ih]
        simp [hm]
      | some v =>
        rw [Option.map_some]
        dsimp only
        rw [List.lookup_cons, hb]
        dsimp only
        rw [ih]
        simp [hm]

/-- A name is emitted with its value unless this is empty. -/
theorem lookup_orderedHeaders {r : List (JsString × JsString)} {n : JsString}
    (hn : n ∈ ALLOW_HEADERS ++ HASH_HEADERS) :
    (orderedHeaders r).lookup n = (r.lookup n).filter fun v => decide (v ≠ []) := by
  have hmem : n ∈ [js "accept", js "authorization", js "content-type", js "cookie"] := by
    simp only [ALLOW_HEADERS, HASH_HEADERS, List.cons_append, List.nil_append, List.mem_cons,
      List.not_mem_nil, or_false] at hn ⊢
    tauto
  have hfun : orderedHeaders r = [js "accept", js "authorization", js "content-type", js "cookie"].filterMap
      fun m => ((r.lookup m).filter fun v => decide (v ≠ [])).map fun v => (m, v) := by
    unfold orderedHeaders
    refine List.filterMap_congr fun m _ => ?_
    cases r.lookup m with
    | none => rfl
    | some v =>
      cases v with
      | nil => rfl
      | cons c t => rfl
  rw [hfun, lookup_filterMap_self, if_pos hmem]

theorem hex_ne_nil {b : Bytes} (h : b ≠ []) : hex b ≠ [] := by
  obtain ⟨x, xs, rfl⟩ := List.exists_cons_of_ne_nil h
  unfold hex
  simp

/-- **The emitted value of a name.** -/
theorem lookup_semanticHeaders {d : DedupeParams} {hs : List (JsString × JsString)}
    (h : canonicalizeSemanticHeaders p (d.headers.getD (.obj [])) = .ok hs) {n : JsString}
    (hn : n ∈ ALLOW_HEADERS ++ HASH_HEADERS) :
    hs.lookup n = ((headerText p d n).map (semanticText p n)).filter fun v => decide (v ≠ []) := by
  simp only [canonicalizeSemanticHeaders, bind_eq_ok, pure, Except.pure, Except.ok.injEq] at h
  obtain ⟨entries, hentries, r, hr, rfl⟩ := h
  rw [lookup_orderedHeaders hn]
  unfold headerText
  rw [hentries]
  dsimp only
  rcases lookup_collect hn hr with ⟨v, hv, hl⟩ | ⟨hnone, hl⟩
  · rw [hv, hl]
    rfl
  · rw [hnone, hl]
    rfl

/-! ### Texts -/

/-- **Fields of equal sorted texts** have equal sorted texts. -/
theorem stableStringify_fields {fs gs : List (JsString × Json)} (hf : (fs.map Prod.fst).Nodup)
    (hg : (gs.map Prod.fst).Nodup) (h : stableStringify (.obj fs) = stableStringify (.obj gs))
    (k : JsString) : (fs.lookup k).map stableStringify = (gs.lookup k).map stableStringify := by
  have hfin := stringify_injective h
  have hk : ((fs.lookup k).map deepSort).map finitize = ((gs.lookup k).map deepSort).map finitize := by
    rw [← lookup_deepSort hf, ← lookup_deepSort hg, ← field?_finitize, ← field?_finitize, hfin]
  have hstr : ∀ o : Option Json, o.map stableStringify =
      ((o.map deepSort).map finitize).map stringify := by
    intro o
    cases o with
    | none => rfl
    | some v => exact congrArg some (stringify_finitize _).symm
  rw [hstr, hstr, hk]

theorem nodup_orderedHeaders (r : List (JsString × JsString)) :
    ((orderedHeaders r).map Prod.fst).Nodup := by
  have hsub : ((orderedHeaders r).map Prod.fst).Sublist
      [js "accept", js "authorization", js "content-type", js "cookie"] := by
    unfold orderedHeaders
    generalize [js "accept", js "authorization", js "content-type", js "cookie"] = ns
    induction ns with
    | nil => exact .slnil
    | cons n ns ih =>
      rw [List.filterMap_cons]
      split
      · exact ih.cons n
      · rename_i e he
        have hname : e.1 = n := by
          split at he
          · split_ifs at he
            cases he
            rfl
          · cases he
        rw [List.map_cons, hname]
        exact ih.cons_cons n
  exact List.Nodup.sublist hsub (by decide)

theorem no_body_ne_hex (b : Bytes) : js "no-body" ≠ hex b := by
  intro h
  have hmem : unit '-' ∈ hex b := by
    rw [← h]
    decide
  unfold hex at hmem
  obtain ⟨x, -, hx⟩ := List.mem_flatMap.mp hmem
  have hdigit : ∀ k < 16, unit '-' ≠ hexDigit k := by decide
  have hlt : x.toNat < 256 := x.toNat_lt
  rcases List.mem_cons.mp hx with hx | hx
  · exact hdigit _ (by omega) hx
  · exact hdigit _ (by omega) (List.mem_singleton.mp hx)

theorem computeBodyHash_some (b : RequestBody) : computeBodyHash p (some b) = sha256Hex p (bodyBytes b) := by
  cases b <;> rfl

theorem computeBodyHash_inj (hp : p.CollisionFree) {b c : Option RequestBody}
    (h : computeBodyHash p b = computeBodyHash p c) : b.map bodyBytes = c.map bodyBytes := by
  cases b with
  | none =>
    cases c with
    | none => rfl
    | some c =>
      rw [computeBodyHash_some] at h
      exact absurd h (no_body_ne_hex _)
  | some b =>
    cases c with
    | none =>
      rw [computeBodyHash_some] at h
      exact absurd h.symm (no_body_ne_hex _)
    | some c =>
      rw [computeBodyHash_some, computeBodyHash_some] at h
      rw [Option.map_some, Option.map_some, hp (hex_injective _ _ h)]

/-! ### The key -/

theorem filter_nonempty_getD (o : Option JsString) : (o.filter fun v => decide (v ≠ [])).getD [] = o.getD [] := by
  cases o with
  | none => rfl
  | some v =>
    cases v with
    | nil => rfl
    | cons c t => rfl

/-- A digest is never empty: SHA-256 has 32 bytes. -/
theorem filter_semantic_hash (hlen : ∀ b, p.sha256 b ≠ []) {n : JsString} (hn : n ∉ ALLOW_HEADERS)
    (o : Option JsString) : ((o.map (semanticText p n)).filter fun v => decide (v ≠ [])) =
      o.map fun v => hex (p.sha256 (utf8 v)) := by
  cases o with
  | none => rfl
  | some v =>
    have hne : sha256HexText p v ≠ [] := hex_ne_nil (hlen (utf8 v))
    have hsem : semanticText p n v = sha256HexText p v := if_neg hn
    rw [Option.map_some, Option.map_some, hsem, Option.filter_some, if_pos (decide_eq_true hne)]
    rfl

theorem profileHash_lookup (m u : JsString) (hs : List (JsString × JsString)) (b : JsString)
    (ph : Option JsString) : ((canonicalRequest m u hs b ph).lookup (js "profile_hash")) =
      (ph.filter fun v => decide (v ≠ [])).map Json.str := by
  unfold canonicalRequest
  split
  · rfl
  · rename_i hne
    cases ph with
    | none => rfl
    | some v =>
      cases v with
      | nil => rfl
      | cons c s => exact absurd rfl (hne c s)

theorem stableStringify_str_inj {s t : JsString}
    (h : stableStringify (.str s) = stableStringify (.str t)) : s = t := by
  have hfin : finitize (.str s) = finitize (.str t) := stringify_injective h
  exact Json.str.inj hfin

theorem map_str_inj {o o' : Option JsString}
    (h : (o.map Json.str).map stableStringify = (o'.map Json.str).map stableStringify) : o = o' := by
  cases o with
  | none =>
    cases o' with
    | none => rfl
    | some t => cases h
  | some s =>
    cases o' with
    | none => cases h
    | some t => rw [stableStringify_str_inj (Option.some.inj h)]

/-- **The dedupe key binds the request.** Empty and absent count as the same for `accept`, `content-type` and
the profile hash. -/
theorem dedupe_binds (hp : p.CollisionFree) (hlen : ∀ b, p.sha256 b ≠ []) {d e : DedupeParams}
    {key : JsString} (hd : generateDedupeKey p d = .ok key) (he : generateDedupeKey p e = .ok key) :
    p.toUpperCase d.method = p.toUpperCase e.method ∧
    canonicalizeUrl p d.target_url = canonicalizeUrl p e.target_url ∧
    (∀ n ∈ ALLOW_HEADERS, ((headerText p d n).map cleaned).getD [] =
      ((headerText p e n).map cleaned).getD []) ∧
    (∀ n ∈ HASH_HEADERS, (headerText p d n).map utf8 = (headerText p e n).map utf8) ∧
    d.body.map bodyBytes = e.body.map bodyBytes ∧
    d.profile_hash.getD [] = e.profile_hash.getD [] := by
  obtain ⟨hs, u, hhs, hu, hk⟩ := generateDedupeKey_eq_ok hd
  obtain ⟨hs', u', hhs', hu', hk'⟩ := generateDedupeKey_eq_ok he
  have htext := sha256HexText_inj hp (wellFormed_stringify _) (wellFormed_stringify _) (hk.symm.trans hk')
  have field := stableStringify_fields (nodup_canonicalRequest _ _ _ _ _)
    (nodup_canonicalRequest _ _ _ _ _) htext
  have hmethod : p.toUpperCase d.method = p.toUpperCase e.method :=
    stableStringify_str_inj (Option.some.inj (field (js "method")))
  have hurl : u = u' := stableStringify_str_inj (Option.some.inj (field (js "url")))
  have hbody : computeBodyHash p d.body = computeBodyHash p e.body :=
    stableStringify_str_inj (Option.some.inj (field (js "body_hash")))
  have hobj : stableStringify (.obj (hs.map fun h => (h.1, .str h.2))) =
      stableStringify (.obj (hs'.map fun h => (h.1, .str h.2))) :=
    Option.some.inj (field (js "headers"))
  have hprofile := field (js "profile_hash")
  rw [profileHash_lookup, profileHash_lookup] at hprofile
  have nodup : ∀ {d : DedupeParams} {hs : List (JsString × JsString)},
      canonicalizeSemanticHeaders p (d.headers.getD (.obj [])) = .ok hs →
      ((hs.map fun h => (h.1, Json.str h.2)).map Prod.fst).Nodup := by
    intro d hs h
    simp only [canonicalizeSemanticHeaders, bind_eq_ok, pure, Except.pure, Except.ok.injEq] at h
    obtain ⟨entries, -, r, -, rfl⟩ := h
    rw [List.map_map]
    exact nodup_orderedHeaders r
  have hheader : ∀ n, hs.lookup n = hs'.lookup n := by
    intro n
    have hn := stableStringify_fields (nodup hhs) (nodup hhs') hobj n
    have hmap : ∀ l : List (JsString × JsString),
        (l.map fun h => (h.1, Json.str h.2)).lookup n = (l.lookup n).map Json.str := by
      intro l
      induction l with
      | nil => rfl
      | cons h l ih =>
        rw [List.map_cons, List.lookup_cons, List.lookup_cons, ih]
        cases (n == h.1) <;> rfl
    rw [hmap, hmap] at hn
    exact map_str_inj hn
  refine ⟨hmethod, by rw [hu, hu', hurl], ?_, ?_, computeBodyHash_inj hp hbody, ?_⟩
  · intro n hn
    have hmem : n ∈ ALLOW_HEADERS ++ HASH_HEADERS := List.mem_append_left _ hn
    have heq := hheader n
    rw [lookup_semanticHeaders hhs hmem, lookup_semanticHeaders hhs' hmem] at heq
    have hclean : semanticText p n = cleaned := by
      funext v
      exact if_pos hn
    rw [hclean] at heq
    rw [← filter_nonempty_getD, heq, filter_nonempty_getD]
  · intro n hn
    have hmem : n ∈ ALLOW_HEADERS ++ HASH_HEADERS := List.mem_append_right _ hn
    have hnot : n ∉ ALLOW_HEADERS := by
      have hdisj : ∀ m ∈ HASH_HEADERS, m ∉ ALLOW_HEADERS := by decide
      exact hdisj n hn
    have heq := hheader n
    rw [lookup_semanticHeaders hhs hmem, lookup_semanticHeaders hhs' hmem,
      filter_semantic_hash hlen hnot, filter_semantic_hash hlen hnot] at heq
    cases hx : headerText p d n with
    | none =>
      cases hy : headerText p e n with
      | none => rfl
      | some w =>
        rw [hx, hy] at heq
        cases heq
    | some v =>
      cases hy : headerText p e n with
      | none =>
        rw [hx, hy] at heq
        cases heq
      | some w =>
        rw [hx, hy] at heq
        exact congrArg some (hp (hex_injective _ _ (Option.some.inj heq)))
  · rw [← filter_nonempty_getD, map_str_inj hprofile, filter_nonempty_getD]

/-! ### Two ways of writing a request -/

namespace Sample

def dedupeTables : Tables where
  urls := [(js "https://api.example.com/v1",
    Url.plain (js "https:") (js "api.example.com") (js "/v1"))]

def getRequest : DedupeParams where
  target_url := js "https://api.example.com/v1"
  method := js "get"
  headers := some (.obj [(js "Accept", .str (js " text/html,  */* ")), (js "Cookie", .str (js "id=7"))])
  body := some (.text (js "hi"))
  profile_hash := none

def getRequestClean : DedupeParams where
  target_url := js "https://api.example.com/v1"
  method := js "GET"
  headers := some (.obj [(js "cookie", .str (js "id=7")), (js "accept", .str (js "text/html, */*")),
    (js "x-trace", .str (js "1"))])
  body := some (.buffer (utf8 (js "hi")))
  profile_hash := some []

def dedupeKey : JsString := (generateDedupeKey dedupeTables.platform getRequest).toOption.getD []

theorem digest_ne_nil (b : Bytes) : dedupeTables.digest b ≠ [] := by
  unfold Tables.digest
  simp [dedupeTables]

theorem dedupe_collisionFree : dedupeTables.platform.CollisionFree :=
  dedupeTables.digest_injective (by decide) (by decide)

theorem getRequests_bound :
    (headerText dedupeTables.platform getRequest (js "cookie")).map utf8 =
      (headerText dedupeTables.platform getRequestClean (js "cookie")).map utf8 :=
  (dedupe_binds dedupe_collisionFree digest_ne_nil
    (show generateDedupeKey dedupeTables.platform getRequest = .ok dedupeKey by decide +kernel)
    (show generateDedupeKey dedupeTables.platform getRequestClean = .ok dedupeKey by decide +kernel)).2.2.2.1
    _ (by decide)

end Sample

end ConsensusNode.Runtime
