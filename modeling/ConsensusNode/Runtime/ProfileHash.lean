import ConsensusNode.Runtime.CacheIsolation
import ConsensusNode.Runtime.ProfileScope

/-! # The hash of a profile

Two spellings of one profile have the same normal form, field by field, with one exception: the base URL is
written back as text, and a URL keeps a question mark or a number sign with nothing behind it, which the
checks do not see.

* `hash_canonical_iff`: when two spellings have the same hash, and what the hash determines. -/

namespace ConsensusNode.Runtime

open Js

variable {p : Platform}

/-! ### The text of a URL -/

/-- What the text of a URL has behind its path, if query and fragment are empty: nothing, or the sign of
the empty part. -/
def EMPTY_PARTS : List JsString := [[], js "?", js "#", js "?#"]

/-- What the text of a URL has behind its path. -/
def emptyParts (u : Url) : JsString := u.href.drop (u.origin ++ u.pathname).length

/-- The URL has no credentials, and its query and fragment are empty or absent. -/
def IsBare (u : Url) : Prop := u.username = [] ∧ u.password = [] ∧ u.search = [] ∧ u.hash = []

/-- How the URL standard writes a URL without credentials, query and fragment. -/
structure HrefLaws (p : Platform) : Prop where
  href : ∀ {u}, HttpUrl p u → IsBare u → ∃ e ∈ EMPTY_PARTS, u.href = u.origin ++ u.pathname ++ e
  setPathname_href : ∀ {u e} s, HttpUrl p u → IsBare u → u.href = u.origin ++ u.pathname ++ e →
    (p.setPathname u s).href = u.origin ++ (p.setPathname u s).pathname ++ e

theorem emptyParts_of_href {u : Url} {e : JsString} (h : u.href = u.origin ++ u.pathname ++ e) :
    emptyParts u = e := by
  unfold emptyParts
  rw [h, List.drop_left]

/-- The path that a base URL is given: without slashes at its end, and not empty. -/
def basePath (pathname : JsString) : JsString :=
  if stripSlashes pathname = [] then [unit '/'] else stripSlashes pathname

theorem pathname_setPathname (hu : UrlLaws p) {u : Url} (h : HttpUrl p u) :
    (p.setPathname u (if u.pathname = [unit '/'] then [unit '/'] else stripSlashes u.pathname)).pathname =
      basePath u.pathname := by
  unfold basePath
  by_cases hroot : u.pathname = [unit '/']
  · have hnil : stripSlashes u.pathname = [] := by
      rw [hroot]
      decide
    rw [if_pos hroot, if_pos hnil]
    exact hu.setPathname_normal h (by decide)
  · rw [if_neg hroot]
    split_ifs with hnil
    · rw [hnil]
      exact hu.setPathname_nil h
    · exact hu.setPathname_normal h (normalPath_stripSlashes (hu.normal h) hnil)

/-- **The base URL of a normalized profile**: origin, path and the signs of empty parts. -/
theorem normalizeBase_text (hu : UrlLaws p) (hh : HrefLaws p) {v : Option Json} {b s : JsString} {u : Url}
    (h : normalizeBase p v = .ok b) (hs : textOrEmpty v = .ok s) (hparse : p.parseUrl s = some u) :
    b = u.origin ++ basePath u.pathname ++ emptyParts u := by
  unfold normalizeBase at h
  rw [hs] at h
  dsimp only at h
  rw [hparse] at h
  dsimp only at h
  have hc : ¬ (!isHttp u.protocol || !u.username.isEmpty || !u.password.isEmpty || !u.search.isEmpty ||
      !u.hash.isEmpty) = true := by
    intro hc
    rw [if_pos hc] at h
    cases h
  rw [if_neg hc] at h
  cases h
  simp only [Bool.or_eq_true, not_or, Bool.not_eq_true', Bool.not_eq_false, List.isEmpty_iff] at hc
  obtain ⟨⟨⟨⟨hhttp, huser⟩, hpass⟩, hsearch⟩, hhash⟩ := hc
  have hurl : HttpUrl p u := .parsed hparse hhttp
  have hbare : IsBare u := ⟨huser, hpass, hsearch, hhash⟩
  obtain ⟨e, -, hhref⟩ := hh.href hurl hbare
  rw [hh.setPathname_href _ hurl hbare hhref, pathname_setPathname hu hurl, emptyParts_of_href hhref]

/-! ### Spellings of one profile -/

/-- The two base URLs have the same origin, and the same path up to slashes at its end. -/
def SameBase (p : Platform) (v w : Option Json) : Prop :=
  ∃ s t u u', textOrEmpty v = .ok s ∧ textOrEmpty w = .ok t ∧ p.parseUrl s = some u ∧ p.parseUrl t = some u' ∧
    u.origin = u'.origin ∧ stripSlashes u.pathname = stripSlashes u'.pathname

/-- The same methods, up to case, order and repetition. -/
def SameMethods (p : Platform) (v w : Option Json) : Prop :=
  ∃ xs ys ms ns, v = some (.arr xs) ∧ w = some (.arr ys) ∧
    xs.mapM (fun m => (toStr m).map p.toUpperCase) = .ok ms ∧
    ys.mapM (fun m => (toStr m).map p.toUpperCase) = .ok ns ∧ ∀ m, m ∈ ms ↔ m ∈ ns

/-- The entries normalize to the same set of paths. -/
def SamePaths (p : Platform) (v w : Option Json) : Prop :=
  ∃ xs ys qs rs, v = some (.arr xs) ∧ w = some (.arr ys) ∧
    xs.mapM (fun x => normalizePath p x (js "proxy profile allowed_paths entry")) = .ok qs ∧
    ys.mapM (fun x => normalizePath p x (js "proxy profile allowed_paths entry")) = .ok rs ∧
    ∀ s, s ∈ qs ↔ s ∈ rs

/-- No preference, or the same items. -/
def SamePreference (v w : Option Json) : Prop :=
  v = none ∧ w = none ∨
    ∃ s t, v = some (.str s) ∧ w = some (.str t) ∧ preferenceItems s = preferenceItems t

/-- The fields of two inputs that spell one profile. -/
structure SameProfile (p : Platform) (v w : List (JsString × Json)) : Prop where
  base : SameBase p (v.lookup (js "base_url")) (w.lookup (js "base_url"))
  methods : SameMethods p (v.lookup (js "allowed_methods")) (w.lookup (js "allowed_methods"))
  paths : SamePaths p (v.lookup (js "allowed_paths")) (w.lookup (js "allowed_paths"))
  cacheTtl : normalizeCacheTtl (v.lookup (js "cache_ttl")) = normalizeCacheTtl (w.lookup (js "cache_ttl"))
  verbose : (v.lookup (js "verbose")).getD (.bool false) = (w.lookup (js "verbose")).getD (.bool false)
  region : SamePreference (v.lookup (js "node_region")) (w.lookup (js "node_region"))
  domain : SamePreference (v.lookup (js "node_domain")) (w.lookup (js "node_domain"))
  exclude : SamePreference (v.lookup (js "node_exclude")) (w.lookup (js "node_exclude"))
  direct : (v.lookup (js "direct")).getD (.bool true) = (w.lookup (js "direct")).getD (.bool true)

/-- The same signs of an empty query and an empty fragment. -/
def SameEmptyParts (p : Platform) (v w : Option Json) : Prop :=
  ∃ s t u u', textOrEmpty v = .ok s ∧ textOrEmpty w = .ok t ∧ p.parseUrl s = some u ∧ p.parseUrl t = some u' ∧
    emptyParts u = emptyParts u'

/-! ### Field by field -/

theorem base_eq_iff (hu : UrlLaws p) (hh : HrefLaws p) {v w : Option Json} {b c : JsString}
    (hb : normalizeBase p v = .ok b) (hc : normalizeBase p w = .ok c) (h : SameBase p v w) :
    b = c ↔ SameEmptyParts p v w := by
  obtain ⟨s, t, u, u', hs, ht, hu₁, hu₂, horigin, hstrip⟩ := h
  have hpath : basePath u.pathname = basePath u'.pathname := by
    unfold basePath
    rw [hstrip]
  rw [normalizeBase_text hu hh hb hs hu₁, normalizeBase_text hu hh hc ht hu₂, horigin, hpath,
    List.append_cancel_left_eq]
  constructor
  · intro hparts
    exact ⟨s, t, u, u', hs, ht, hu₁, hu₂, hparts⟩
  · rintro ⟨s', t', x, x', hs', ht', hx, hx', hparts⟩
    cases hs.symm.trans hs'
    cases ht.symm.trans ht'
    cases hu₁.symm.trans hx
    cases hu₂.symm.trans hx'
    exact hparts

theorem methods_eq {v w : Option Json} {ms ns : List JsString} (hm : normalizeMethods p v = .ok ms)
    (hn : normalizeMethods p w = .ok ns) (h : SameMethods p v w) : ms = ns := by
  obtain ⟨xs, ys, set, set', rfl, rfl, hset, hset', hsame⟩ := h
  have hof : ∀ {zs : List Json} {l r : List JsString}, normalizeMethods p (some (.arr zs)) = .ok r →
      zs.mapM (fun m => (toStr m).map p.toUpperCase) = .ok l → r = METHOD_ORDER.filter l.contains := by
    intro zs l r hr hl
    unfold normalizeMethods at hr
    cases zs with
    | nil => cases hr
    | cons z zs =>
      obtain ⟨l', hl', hr⟩ := bind_eq_ok.mp hr
      cases hl.symm.trans hl'
      split_ifs at hr
      cases hr
      rfl
  rw [hof hm hset, hof hn hset']
  refine List.filter_congr fun m _ => ?_
  rw [Bool.eq_iff_iff]
  simpa using hsame m

/-- Equal sets have equal sorted lists. -/
theorem sortText_dedup_congr {qs rs : List JsString} (h : ∀ s, s ∈ qs ↔ s ∈ rs) :
    sortText qs.dedup = sortText rs.dedup := by
  have hperm : qs.dedup.Perm rs.dedup := by
    refine (List.perm_ext_iff_of_nodup (List.nodup_dedup qs) (List.nodup_dedup rs)).mpr fun s => ?_
    rw [List.mem_dedup, List.mem_dedup]
    exact h s
  exact ((sortText_perm _).trans (hperm.trans (sortText_perm _).symm)).eq_of_pairwise'
    (sortText_sorted _) (sortText_sorted _)

theorem paths_eq {v w : Option Json} {ps rs : List JsString} (hp : normalizePaths p v = .ok ps)
    (hr : normalizePaths p w = .ok rs) (h : SamePaths p v w) : ps = rs := by
  obtain ⟨xs, ys, qs, qs', rfl, rfl, hqs, hqs', hsame⟩ := h
  obtain ⟨xs', l, hxs, -, -, rfl, hl⟩ := normalizePaths_eq_ok hp
  obtain ⟨ys', l', hys, -, -, rfl, hl'⟩ := normalizePaths_eq_ok hr
  cases hxs
  cases hys
  cases hqs.symm.trans (mapM_eq_ok.mpr hl)
  cases hqs'.symm.trans (mapM_eq_ok.mpr hl')
  exact sortText_dedup_congr hsame

theorem preference_eq {v w : Option Json} {field : JsString} {a b : Option JsString}
    (ha : optionalPreference v field = .ok a) (hb : optionalPreference w field = .ok b)
    (h : SamePreference v w) : a = b := by
  rcases h with ⟨rfl, rfl⟩ | ⟨s, t, rfl, rfl, hitems⟩
  · cases ha
    cases hb
    rfl
  · unfold optionalPreference at ha hb
    dsimp only at ha hb
    rw [hitems] at ha
    exact Except.ok.inj (ha.symm.trans hb)

theorem boolean_eq {v w : Option Json} {field : JsString} {d a b : Bool}
    (ha : optionalBoolean v field d = .ok a) (hb : optionalBoolean w field d = .ok b)
    (h : v.getD (.bool d) = w.getD (.bool d)) : a = b := by
  have hof : ∀ {x : Option Json} {r : Bool}, optionalBoolean x field d = .ok r →
      x.getD (.bool d) = .bool r := by
    intro x r hx
    unfold optionalBoolean at hx
    split at hx
    · cases hx
      rfl
    · cases hx
      rfl
    · cases hx
  exact Json.bool.inj ((hof ha).symm.trans (h.trans (hof hb)))

/-- **Two spellings of one profile** have the same normal form exactly if their base URLs have the same signs
of empty parts. -/
theorem normal_form_iff (hu : UrlLaws p) (hh : HrefLaws p) {v w : List (JsString × Json)}
    {f g : ProxyExecutionProfileV1} (hf : normalizeProxyProfileV1 p (.obj v) = .ok f)
    (hg : normalizeProxyProfileV1 p (.obj w) = .ok g) (h : SameProfile p v w) :
    f = g ↔ SameEmptyParts p (v.lookup (js "base_url")) (w.lookup (js "base_url")) := by
  obtain ⟨v', hv', -, hb, hms, hps, ht, hverbose, hr, hd, he, hdirect⟩ := normalize_eq_ok.mp hf
  obtain ⟨w', hw', -, hb', hms', hps', ht', hverbose', hr', hd', he', hdirect'⟩ := normalize_eq_ok.mp hg
  cases hv'
  cases hw'
  rw [← base_eq_iff hu hh hb hb' h.base]
  refine ⟨fun hfg => congrArg _ hfg, fun hbase => ?_⟩
  have hmethods := methods_eq hms hms' h.methods
  have hpaths := paths_eq hps hps' h.paths
  have httl := Except.ok.inj (ht.symm.trans (h.cacheTtl.trans ht'))
  have hregion := preference_eq hr hr' h.region
  have hdomain := preference_eq hd hd' h.domain
  have hexclude := preference_eq he he' h.exclude
  have hv := boolean_eq hverbose hverbose' h.verbose
  have hdir := boolean_eq hdirect hdirect' h.direct
  cases f
  cases g
  simp only [ProxyExecutionProfileV1.mk.injEq]
  exact ⟨hbase, hmethods, hpaths, httl, hv, hregion, hdomain, hexclude, hdir⟩

/-- **How canonical the hash is.** Two accepted spellings of one profile have the same hash if and only if
their base URLs agree on the signs of an empty query and an empty fragment. Equal hashes are hashes of equal
normal forms. -/
theorem hash_canonical_iff (p : Platform) (hp : p.CollisionFree) (hu : UrlLaws p) (hh : HrefLaws p) :
    (∀ v w f g, normalizeProxyProfileV1 p (.obj v) = .ok f → normalizeProxyProfileV1 p (.obj w) = .ok g →
      SameProfile p v w →
      (hashProxyProfileV1 p (.obj v) = hashProxyProfileV1 p (.obj w) ↔
        SameEmptyParts p (v.lookup (js "base_url")) (w.lookup (js "base_url")))) ∧
    (∀ v w f g, normalizeProxyProfileV1 p v = .ok f → normalizeProxyProfileV1 p w = .ok g →
      hashProxyProfileV1 p v = hashProxyProfileV1 p w → f = g) := by
  have hinj : ∀ v w f g, normalizeProxyProfileV1 p v = .ok f → normalizeProxyProfileV1 p w = .ok g →
      hashProxyProfileV1 p v = hashProxyProfileV1 p w → f = g := by
    intro v w f g hf hg h
    unfold hashProxyProfileV1 at h
    rw [hf, hg] at h
    exact hashNormalizedProfile_inj hp hf hg (Except.ok.inj h)
  refine ⟨fun v w f g hf hg hsame => ?_, hinj⟩
  rw [← normal_form_iff hu hh hf hg hsame]
  constructor
  · exact hinj _ _ f g hf hg
  · rintro rfl
    unfold hashProxyProfileV1
    rw [hf, hg]

/-! ### A catalog

A platform that knows the URLs of one site with or without the signs of empty parts, and the digests of the
two normal forms of a catalog. -/

namespace Sample

def markedUrl (path e : JsString) : Url := { siteUrl path with href := siteOrigin ++ path ++ e }

def catalogProfile (base_url : JsString) : ProxyExecutionProfileV1 where
  base_url := base_url
  allowed_methods := [js "GET", js "HEAD"]
  allowed_paths := [js "/products", js "/search"]
  cache_ttl := JsNumber.ofNat 120
  verbose := false
  node_region := some (js "us-east")
  node_domain := none
  node_exclude := none
  direct := false

def catalogHash : Bytes := beBytes 32 0x3ad74b9c2800b3ef39132e89f440a3e8847988351e2daa316ad527770ed52c12

def queryHash : Bytes := beBytes 32 0x3fdb6f7414518aad28b9e3b4ff21c543940da06136198e6e2cd4947a15cd7290

def catalogTables : Tables where
  digests := [
    (utf8 (stringify (stableValue (profileJson (catalogProfile (js "https://api.example.com/v1"))))), catalogHash),
    (utf8 (stringify (stableValue (profileJson (catalogProfile (js "https://api.example.com/v1?"))))), queryHash)]

def catalogPlatform : Platform where
  __ := catalogTables.platform
  parseUrl s :=
    if startsWith s siteOrigin then
      let path := (s.drop siteOrigin.length).takeWhile isPathUnit
      let e := (s.drop siteOrigin.length).dropWhile isPathUnit
      if NormalPath path = true ∧ e ∈ EMPTY_PARTS then some (markedUrl path e) else none
    else none
  parseUrlBase := sitePlatform.parseUrlBase
  setPathname u s :=
    if s = [] then markedUrl [unit '/'] (emptyParts u)
    else if NormalPath s then markedUrl s (emptyParts u)
    else u

theorem origin_markedUrl (r e : JsString) : (markedUrl r e).origin = siteOrigin := by
  show js "https:" ++ js "//" ++ js "api.example.com" = siteOrigin
  decide

theorem href_markedUrl (r e : JsString) :
    (markedUrl r e).href = (markedUrl r e).origin ++ (markedUrl r e).pathname ++ e := by
  rw [origin_markedUrl]
  rfl

theorem emptyParts_markedUrl (r e : JsString) : emptyParts (markedUrl r e) = e :=
  emptyParts_of_href (href_markedUrl r e)

theorem marked_of_httpUrl {u : Url} (h : HttpUrl catalogPlatform u) :
    ∃ r e, NormalPath r = true ∧ e ∈ EMPTY_PARTS ∧ u = markedUrl r e := by
  induction h with
  | @parsed s u h _ =>
    have h' : (if startsWith s siteOrigin then
        if NormalPath ((s.drop siteOrigin.length).takeWhile isPathUnit) = true ∧
            (s.drop siteOrigin.length).dropWhile isPathUnit ∈ EMPTY_PARTS then
          some (markedUrl ((s.drop siteOrigin.length).takeWhile isPathUnit)
            ((s.drop siteOrigin.length).dropWhile isPathUnit))
        else none
      else none) = some u := h
    split_ifs at h' with hs hc
    cases h'
    exact ⟨_, _, hc.1, hc.2, rfl⟩
  | @setPathname u s _ ih =>
    obtain ⟨r, e, hr, he, rfl⟩ := ih
    show ∃ r' e', _ ∧ _ ∧ (if s = [] then _ else if NormalPath s then _ else _) = _
    rw [emptyParts_markedUrl]
    split_ifs with h1 h2
    · exact ⟨[unit '/'], e, by decide, he, rfl⟩
    · exact ⟨s, e, h2, he, rfl⟩
    · exact ⟨r, e, hr, he, rfl⟩

theorem isPathUnit_of_normal {r : JsString} (hr : NormalPath r = true) : ∀ c ∈ r, isPathUnit c = true := by
  intro c hc
  cases r with
  | nil => cases hc
  | cons d r =>
    obtain ⟨rfl, hunits, -⟩ := normalPath_cons.mp hr
    rcases List.mem_cons.mp hc with rfl | hc
    · decide
    · exact hunits c hc

theorem marked_reparse {r e : JsString} (hr : NormalPath r = true) (he : e ∈ EMPTY_PARTS) :
    catalogPlatform.parseUrl (markedUrl r e).href = some (markedUrl r e) := by
  have hunits := isPathUnit_of_normal hr
  have hhead : ∀ e ∈ EMPTY_PARTS, e.takeWhile isPathUnit = [] ∧ e.dropWhile isPathUnit = e := by decide
  have htake : (r ++ e).takeWhile isPathUnit = r := by
    rw [List.takeWhile_append_of_pos hunits, (hhead e he).1, List.append_nil]
  have hdrop : (r ++ e).dropWhile isPathUnit = e := by
    rw [List.dropWhile_append_of_pos hunits, (hhead e he).2]
  have hstart : startsWith (siteOrigin ++ (r ++ e)) siteOrigin = true := startsWith_eq_true.mpr ⟨_, rfl⟩
  have hparse : catalogPlatform.parseUrl (siteOrigin ++ (r ++ e)) =
      if NormalPath r = true ∧ e ∈ EMPTY_PARTS then some (markedUrl r e) else none := by
    simp only [catalogPlatform, hstart, if_true, List.drop_left, htake, hdrop]
  rw [if_pos ⟨hr, he⟩, ← List.append_assoc] at hparse
  exact hparse

theorem catalogPlatform_laws : UrlLaws catalogPlatform where
  normal h := by
    obtain ⟨r, e, hr, -, rfl⟩ := marked_of_httpUrl h
    exact hr
  reparse h := by
    obtain ⟨r, e, hr, he, rfl⟩ := marked_of_httpUrl h
    exact marked_reparse hr he
  setPathname_normal {u s} h hs := by
    have hne : s ≠ [] := by
      rintro rfl
      cases hs
    show (if s = [] then _ else if NormalPath s then _ else _ : Url).pathname = s
    rw [if_neg hne, if_pos hs]
    rfl
  setPathname_nil h := rfl
  setPathname_self h := by
    obtain ⟨r, e, hr, he, rfl⟩ := marked_of_httpUrl h
    have hne : r ≠ [] := by
      rintro rfl
      cases hr
    show (if r = [] then _ else if NormalPath r then markedUrl r (emptyParts (markedUrl r e)) else _ : Url) = _
    rw [if_neg hne, if_pos hr, emptyParts_markedUrl]
  setPathname_frame {u} s h := by
    obtain ⟨r, e, hr, he, rfl⟩ := marked_of_httpUrl h
    show (if s = [] then _ else if NormalPath s then _ else _ : Url).protocol = _ ∧ _
    simp only [catalogPlatform]
    split_ifs <;> exact ⟨rfl, rfl, rfl, rfl, rfl⟩
  base_normal h h' := sitePlatform_laws.base_normal h h'
  base_fixed h h' := sitePlatform_laws.base_fixed h h'

theorem catalogPlatform_href : HrefLaws catalogPlatform where
  href {u} h _ := by
    obtain ⟨r, e, -, he, rfl⟩ := marked_of_httpUrl h
    exact ⟨e, he, href_markedUrl r e⟩
  setPathname_href {u e} s h _ hhref := by
    have hparts := emptyParts_of_href hhref
    obtain ⟨r, e', hr, -, rfl⟩ := marked_of_httpUrl h
    rw [emptyParts_markedUrl] at hparts
    rw [hparts, origin_markedUrl, ← origin_markedUrl [unit '/'] e]
    simp only [catalogPlatform, emptyParts_markedUrl]
    split_ifs
    · exact href_markedUrl _ _
    · exact href_markedUrl _ _
    · exact href_markedUrl _ _

theorem catalogPlatform_collisionFree : catalogPlatform.CollisionFree :=
  catalogTables.digest_injective (by decide) (by decide)

/-- One spelling of the catalog. -/
def catalog : List (JsString × Json) :=
  [(js "protocol", .str PROXY_PROFILE_PROTOCOL), (js "version", .num (JsNumber.ofNat 1)),
    (js "base_url", .str (js "https://api.example.com/v1/")),
    (js "allowed_methods", .arr [.str (js "get"), .str (js "HEAD"), .str (js "GET")]),
    (js "allowed_paths", .arr [.str (js "/search"), .str (js "/products"), .str (js "/products")]),
    (js "cache_ttl", .num (JsNumber.ofNat 120)), (js "node_region", .str (js "us-east")),
    (js "direct", .bool false)]

/-- Another one, with any base URL. -/
def respelled (base_url : JsString) : List (JsString × Json) :=
  [(js "direct", .bool false), (js "verbose", .bool false), (js "node_region", .str (js " us-east ,")),
    (js "cache_ttl", .num (JsNumber.ofNat 120)),
    (js "allowed_paths", .arr [.str (js "/products"), .str (js "/search")]),
    (js "allowed_methods", .arr [.str (js "head"), .str (js "get")]),
    (js "base_url", .str base_url),
    (js "version", .num (JsNumber.ofNat 1)), (js "protocol", .str PROXY_PROFILE_PROTOCOL)]

theorem same_respelled {base_url e : JsString}
    (h : catalogPlatform.parseUrl base_url = some (markedUrl (js "/v1") e)) :
    SameProfile catalogPlatform catalog (respelled base_url) where
  base := ⟨_, _, markedUrl (js "/v1/") [], markedUrl (js "/v1") e, rfl, rfl, by decide, h,
    by rw [origin_markedUrl, origin_markedUrl], show stripSlashes (js "/v1/") = stripSlashes (js "/v1") by decide⟩
  methods := ⟨_, _, [js "GET", js "HEAD", js "GET"], [js "HEAD", js "GET"], rfl, rfl, by decide,
    by decide, fun m => by simp [or_comm]⟩
  paths := ⟨_, _, [js "/search", js "/products", js "/products"], [js "/products", js "/search"], rfl, rfl,
    by decide, by decide, fun s => by simp [or_comm]⟩
  cacheTtl := rfl
  verbose := rfl
  region := .inr ⟨_, _, rfl, rfl, by decide⟩
  domain := .inl ⟨rfl, rfl⟩
  exclude := .inl ⟨rfl, rfl⟩
  direct := rfl

theorem respelled_same_hash :
    hashProxyProfileV1 catalogPlatform (.obj catalog) =
      hashProxyProfileV1 catalogPlatform (.obj (respelled (js "https://api.example.com/v1"))) := by
  have hf : normalizeProxyProfileV1 catalogPlatform (.obj catalog) =
      .ok (catalogProfile (js "https://api.example.com/v1")) := by decide
  have hg : normalizeProxyProfileV1 catalogPlatform (.obj (respelled (js "https://api.example.com/v1"))) =
      .ok (catalogProfile (js "https://api.example.com/v1")) := by decide
  have hparse : catalogPlatform.parseUrl (js "https://api.example.com/v1") = some (markedUrl (js "/v1") []) := by
    decide
  refine ((hash_canonical_iff catalogPlatform catalogPlatform_collisionFree catalogPlatform_laws
    catalogPlatform_href).1 _ _ _ _ hf hg (same_respelled hparse)).mpr ?_
  exact ⟨_, _, markedUrl (js "/v1/") [], _, rfl, rfl, by decide, hparse, by decide⟩

/-- A question mark behind the base URL changes the hash. -/
theorem question_mark_changes_hash :
    SameProfile catalogPlatform catalog (respelled (js "https://api.example.com/v1?")) ∧
    hashProxyProfileV1 catalogPlatform (.obj catalog) = .ok (hex catalogHash) ∧
    hashProxyProfileV1 catalogPlatform (.obj (respelled (js "https://api.example.com/v1?"))) =
      .ok (hex queryHash) ∧ hex catalogHash ≠ hex queryHash := by
  refine ⟨same_respelled (e := js "?") (by decide), ?_, ?_, ?_⟩
  · decide +kernel
  · decide +kernel
  · decide

end Sample

end ConsensusNode.Runtime
