import ConsensusNode.Runtime.ProfileV1

/-! # Preparing a profile twice

The data plane prepares a profile before it spends the ticket, and the proxy prepares the result again.
Field by field, a normalizer leaves its own output as it is. The one exception is an allowed path: the
URL parser may turn `/.//x` into `//x`, and a path with two slashes in front is refused.

* `prepare_again_iff`: preparing a prepared profile again succeeds with the same result if and only if no
  entry of `allowed_paths` has a URL path that starts with two slashes (`PathsReusable`). -/

namespace ConsensusNode.Runtime

open Js

variable {p : Platform}

/-! ### Preferences -/

theorem preferenceItems_mem {s x : JsString} (h : x ∈ preferenceItems s) :
    x ≠ [] ∧ trim x = x ∧ unit ',' ∉ x := by
  unfold preferenceItems at h
  simp only [List.mem_filter, List.mem_map, Bool.not_eq_true', List.isEmpty_eq_false_iff] at h
  obtain ⟨⟨y, hy, rfl⟩, hne⟩ := h
  exact ⟨hne, trim_trim y, fun hc => not_mem_of_mem_splitOn hy (mem_of_mem_trim hc)⟩

theorem preferenceItems_join {l : List JsString} (hl : l ≠ [])
    (h : ∀ x ∈ l, x ≠ [] ∧ trim x = x ∧ unit ',' ∉ x) : preferenceItems (join (unit ',') l) = l := by
  have hmap : l.map trim = l := by
    conv_rhs => rw [← List.map_id l]
    exact List.map_congr_left fun x hx => (h x hx).2.1
  unfold preferenceItems join
  rw [List.splitOn_intercalate _ (fun x hx => (h x hx).2.2) hl, hmap, List.filter_eq_self]
  intro x hx
  simpa using (h x hx).1

theorem optionalPreference_again {v : Option Json} {field : JsString} {r : Option JsString}
    (h : optionalPreference v field = .ok r) : optionalPreference (r.map .str) field = .ok r := by
  unfold optionalPreference at h
  split at h
  · cases h; rfl
  · rename_i s
    dsimp only at h
    split_ifs at h with hc
    cases h
    have hl : preferenceItems s ≠ [] := by
      intro hnil
      rw [hnil] at hc
      exact hc (.inl rfl)
    have hitems := preferenceItems_join hl fun x hx => preferenceItems_mem hx
    show (if join (unit ',') (preferenceItems _) = [] ∨ _ then _ else _) = _
    rw [hitems, if_neg hc]
  · cases h

/-! ### Booleans and the cache time -/

theorem normalizeCacheTtl_again {v : Option Json} {x : JsNumber} (h : normalizeCacheTtl v = .ok x) :
    normalizeCacheTtl (some (.num x)) = .ok x := by
  unfold normalizeCacheTtl at h
  split at h
  · cases h
    decide
  · obtain ⟨y, -, hx⟩ := bind_eq_ok.mp h
    cases y with
    | none => cases hx
    | some y =>
      dsimp only at hx
      split_ifs at hx with hc
      cases hx
      show (if _ then _ else _) = _
      rw [if_pos hc]

/-! ### Methods -/

theorem asciiUpper_methods (hp : p.AsciiCase) {m : JsString} (h : m ∈ METHOD_ORDER) :
    p.toUpperCase m = m := by
  have hall : ∀ x ∈ METHOD_ORDER, isAscii x = true ∧ asciiUpper x = x := by decide
  rw [hp.upper m (hall m h).1, (hall m h).2]

theorem normalizeMethods_eq_ok {v : Option Json} {ms : List JsString}
    (h : normalizeMethods p v = .ok ms) :
    ∃ set, set ≠ [] ∧ (∀ m ∈ set, m ∈ METHOD_ORDER) ∧ ms = METHOD_ORDER.filter set.contains := by
  unfold normalizeMethods at h
  split at h
  · rename_i x xs
    obtain ⟨set, hset, h⟩ := bind_eq_ok.mp h
    split_ifs at h with hc
    cases h
    refine ⟨set, ?_, ?_, rfl⟩
    · rintro rfl
      cases mapM_eq_ok.mp hset
    · intro m hm
      by_contra hne
      exact hc (List.any_eq_true.mpr ⟨m, hm, by simpa using hne⟩)
  · cases h

theorem mapM_toStr_upper (hp : p.AsciiCase) {ms : List JsString} (h : ∀ m ∈ ms, m ∈ METHOD_ORDER) :
    (ms.map Json.str).mapM (fun m => (toStr m).map p.toUpperCase) = .ok ms := by
  rw [mapM_eq_ok, List.forall₂_map_left_iff, List.forall₂_same]
  intro m hm
  show Except.ok (p.toUpperCase m) = _
  rw [asciiUpper_methods hp (h m hm)]

theorem normalizeMethods_again (hp : p.AsciiCase) {v : Option Json} {ms : List JsString}
    (h : normalizeMethods p v = .ok ms) :
    normalizeMethods p (some (.arr (ms.map .str))) = .ok ms := by
  obtain ⟨set, hne, hset, rfl⟩ := normalizeMethods_eq_ok h
  have hsub : ∀ m ∈ METHOD_ORDER.filter set.contains, m ∈ METHOD_ORDER := fun m hm =>
    (List.mem_filter.mp hm).1
  obtain ⟨x, hx⟩ := List.exists_mem_of_ne_nil set hne
  have hnil : METHOD_ORDER.filter set.contains ≠ [] :=
    List.ne_nil_of_mem (List.mem_filter.mpr ⟨hset x hx, by simpa using hx⟩)
  have hmap := mapM_toStr_upper hp hsub
  obtain ⟨y, ys, hy⟩ := List.exists_cons_of_ne_nil hnil
  rw [hy] at hmap hsub ⊢
  show ((Json.str y :: ys.map Json.str).mapM _ >>= _) = _
  rw [List.map_cons] at hmap
  rw [hmap]
  show (if _ then _ else _) = _
  rw [if_neg]
  · rw [← hy]
    refine congrArg Except.ok (List.filter_congr fun m hm => ?_)
    rw [Bool.eq_iff_iff]
    simp [hm]
  · simp only [List.any_eq_true, not_exists, not_and]
    intro m hm
    simpa using hsub m hm

/-! ### Paths -/

/-- The result of an accepted path. -/
theorem normalizePath_eq_ok {v : Json} {field s : JsString} (h : normalizePath p v field = .ok s) :
    ∃ t u, v = .str t ∧ startsWith t [unit '/'] = true ∧ p.parseUrlBase t PROFILE_BASE = some u ∧
      s = u.pathname := by
  unfold normalizePath at h
  split at h
  · rename_i t
    split_ifs at h with hc
    split at h
    · cases h
    · rename_i u hu
      split_ifs at h
      cases h
      refine ⟨t, u, rfl, ?_, hu, rfl⟩
      simp only [Bool.or_eq_true, not_or, Bool.not_eq_true', Bool.not_eq_false] at hc
      exact hc.1.1
  · cases h

theorem normalizePath_front {s t field : JsString} (h : normalizePath p (.str s) field = .ok t) :
    startsWith s (js "//") = false := by
  unfold normalizePath at h
  dsimp only at h
  split_ifs at h with hc
  simp only [Bool.or_eq_true, not_or, Bool.not_eq_true] at hc
  exact hc.1.2

theorem normalizePath_again (hu : UrlLaws p) {s : JsString} (hn : NormalPath s = true)
    (field : JsString) :
    normalizePath p (.str s) field = .ok s ↔ startsWith s (js "//") = false := by
  refine ⟨normalizePath_front, fun hs => ?_⟩
  obtain ⟨u, hparse, horigin, hsearch, hhash, hpath⟩ := hu.base_fixed hn hs
  have hb : s.contains (unit '\\') = false := by
    simpa using normalPath_backslash hn
  unfold normalizePath
  dsimp only
  rw [normalPath_head hn, hs, hb, hparse]
  simp only [horigin, hsearch, hhash, hpath, ne_eq, not_true_eq_false, or_self, if_false]
  rfl

theorem nodup_sortText {l : List JsString} (h : l.Nodup) : (sortText l).Nodup :=
  (sortText_perm l).nodup_iff.mpr h

theorem normalizePaths_eq_ok {v : Option Json} {ps : List JsString}
    (h : normalizePaths p v = .ok ps) :
    ∃ xs qs, v = some (.arr xs) ∧ xs.length ≠ 0 ∧ xs.length ≤ MAX_PATHS ∧ ps = sortText qs.dedup ∧
      List.Forall₂ (fun x y => normalizePath p x (js "proxy profile allowed_paths entry") = .ok y)
        xs qs := by
  unfold normalizePaths at h
  dsimp only at h
  split at h
  · rename_i xs
    split_ifs at h with hc
    obtain ⟨qs, hqs, h⟩ := bind_eq_ok.mp h
    cases h
    exact ⟨xs, qs, rfl, fun h0 => hc (.inl h0), not_lt.mp fun hlt => hc (.inr hlt), rfl,
      mapM_eq_ok.mp hqs⟩
  · cases h

/-- The paths are accepted again exactly if none of them starts with two slashes. -/
theorem normalizePaths_again (hu : UrlLaws p) {v : Option Json} {ps : List JsString}
    (h : normalizePaths p v = .ok ps) :
    normalizePaths p (some (.arr (ps.map .str))) = .ok ps ↔
      ∀ s ∈ ps, startsWith s (js "//") = false := by
  obtain ⟨xs, qs, -, h0, hmax, rfl, hall⟩ := normalizePaths_eq_ok h
  have hmem : ∀ s, s ∈ sortText qs.dedup ↔ s ∈ qs := fun s => by
    rw [(sortText_perm _).mem_iff, List.mem_dedup]
  have hnormal : ∀ s ∈ qs, NormalPath s = true := by
    intro s hs
    obtain ⟨x, -, hx⟩ := forall₂_mem_right hall s hs
    obtain ⟨t, u, -, ht, hparse, rfl⟩ := normalizePath_eq_ok hx
    exact hu.base_normal ht hparse
  have hlen : (sortText qs.dedup).length ≤ xs.length := by
    rw [(sortText_perm _).length_eq, hall.length_eq]
    exact (List.dedup_sublist qs).length_le
  have hpos : (sortText qs.dedup).length ≠ 0 := by
    intro hz
    have hnil := List.length_eq_zero_iff.mp hz
    obtain ⟨x, hx⟩ := List.exists_mem_of_ne_nil qs (by
      rintro rfl
      exact h0 hall.length_eq)
    have := (hmem x).mpr hx
    rw [hnil] at this
    cases this
  have hunfold : normalizePaths p (some (.arr ((sortText qs.dedup).map .str))) =
      (((sortText qs.dedup).map Json.str).mapM fun x =>
        normalizePath p x (js "proxy profile allowed_paths entry")) >>= fun paths =>
          .ok (sortText paths.dedup) := by
    unfold normalizePaths
    dsimp only
    rw [if_neg (by rw [List.length_map]; omega)]
    rfl
  rw [hunfold]
  constructor
  · intro hagain s hs
    obtain ⟨rs, hrs, -⟩ := bind_eq_ok.mp hagain
    have hall' := (List.forall₂_map_left_iff.mp (mapM_eq_ok.mp hrs))
    obtain ⟨y, -, hy⟩ := forall₂_mem_left hall' s hs
    exact normalizePath_front hy
  · intro hs
    have hmap : ((sortText qs.dedup).map Json.str).mapM
        (fun x => normalizePath p x (js "proxy profile allowed_paths entry")) =
          .ok (sortText qs.dedup) := by
      rw [mapM_eq_ok, List.forall₂_map_left_iff, List.forall₂_same]
      intro s hmems
      exact (normalizePath_again hu (hnormal s ((hmem s).mp hmems)) _).mpr (hs s hmems)
    rw [hmap]
    show Except.ok (sortText (sortText qs.dedup).dedup) = _
    rw [(nodup_sortText (List.nodup_dedup qs)).dedup, sortText_of_sorted (sortText_sorted _)]

/-! ### The base URL -/

theorem normalizeBase_eq_ok {v : Option Json} {b : JsString} (h : normalizeBase p v = .ok b) :
    ∃ u, HttpUrl p u ∧ isHttp u.protocol = true ∧ u.username = [] ∧ u.password = [] ∧ u.search = [] ∧
      u.hash = [] ∧ b = (p.setPathname u
        (if u.pathname = [unit '/'] then [unit '/'] else stripSlashes u.pathname)).href := by
  unfold normalizeBase at h
  dsimp only at h
  split at h
  · cases h
  · split at h
    · cases h
    · rename_i u hu
      by_cases hc : (!isHttp u.protocol || !u.username.isEmpty || !u.password.isEmpty ||
          !u.search.isEmpty || !u.hash.isEmpty) = true
      · rw [if_pos hc] at h
        cases h
      · rw [if_neg hc] at h
        cases h
        simp only [Bool.or_eq_true, not_or, Bool.not_eq_true', Bool.not_eq_false,
          List.isEmpty_iff] at hc
        obtain ⟨⟨⟨⟨h1, h2⟩, h3⟩, h4⟩, h5⟩ := hc
        exact ⟨u, .parsed hu h1, h1, h2, h3, h4, h5, rfl⟩

/-- The path that a base URL keeps is the one that is set again. -/
theorem basePath_fixed (hu : UrlLaws p) {u : Url} (h : HttpUrl p u) {q : JsString}
    (hq : q = if u.pathname = [unit '/'] then [unit '/'] else stripSlashes u.pathname) :
    (if (p.setPathname u q).pathname = [unit '/'] then [unit '/']
      else stripSlashes (p.setPathname u q).pathname) = (p.setPathname u q).pathname := by
  by_cases h1 : u.pathname = [unit '/']
  · rw [if_pos h1] at hq
    rw [hq, ← h1, hu.setPathname_self h, if_pos rfl]
  · rw [if_neg h1] at hq
    by_cases h2 : stripSlashes u.pathname = []
    · rw [hq, h2, hu.setPathname_nil h, if_pos rfl]
    · have hn := normalPath_stripSlashes (hu.normal h) h2
      rw [hq, hu.setPathname_normal h hn, if_neg (stripSlashes_ne_slash _), stripSlashes_idem]

theorem normalizeBase_again (hu : UrlLaws p) {v : Option Json} {b : JsString}
    (h : normalizeBase p v = .ok b) : normalizeBase p (some (.str b)) = .ok b := by
  obtain ⟨u, hh, h1, h2, h3, h4, h5, rfl⟩ := normalizeBase_eq_ok h
  generalize hq : (if u.pathname = [unit '/'] then [unit '/'] else stripSlashes u.pathname) = q
  have hh' : HttpUrl p (p.setPathname u q) := .setPathname q hh
  obtain ⟨f1, f2, f3, f4, f5⟩ := hu.setPathname_frame q hh
  have hfix := basePath_fixed hu hh hq.symm
  unfold normalizeBase
  show (match p.parseUrl (p.setPathname u q).href with | _ => _) = _
  rw [hu.reparse hh']
  dsimp only
  rw [f1, f2, f3, f4, f5, h1, h2, h3, h4, h5, hfix, hu.setPathname_self hh']
  rfl

/-! ### Headers -/

theorem optionalHeader_keys (k : JsString) (v : Option JsString) :
    ((optionalHeader k v).map Prod.fst).Sublist [k] := by
  cases v with
  | none => exact List.nil_sublist _
  | some v => exact List.Sublist.refl _

theorem flagHeader_keys (k v : JsString) (b : Bool) :
    ((if b then [(k, v)] else []).map Prod.fst).Sublist [k] := by
  cases b with
  | false => exact List.nil_sublist _
  | true => exact List.Sublist.refl _

theorem controlHeaders_keys (f : ProxyExecutionProfileV1) :
    ((controlHeadersForNormalizedProfile f).map Prod.fst).Sublist PROFILE_CONTROL_HEADERS := by
  unfold controlHeadersForNormalizedProfile
  simp only [List.map_append]
  exact (((((List.Sublist.refl [js "x-cache-ttl"]).append (flagHeader_keys _ _ _)).append
    (optionalHeader_keys _ _)).append (optionalHeader_keys _ _)).append
    (optionalHeader_keys _ _)).append (flagHeader_keys _ _ _)

theorem rank_control {k : JsString} (h : k ∈ PROFILE_CONTROL_HEADERS) : rank k = ⊤ := by
  have hall : ∀ x ∈ PROFILE_CONTROL_HEADERS, arrayIndex x = none := by decide
  unfold rank
  rw [hall k h]

theorem isRequestHeader_control (hp : p.AsciiCase) {k : JsString} (h : k ∈ PROFILE_CONTROL_HEADERS) :
    isRequestHeader p k = false := by
  have hall : ∀ x ∈ PROFILE_CONTROL_HEADERS, isAscii x = true ∧ asciiLower x = x := by decide
  unfold isRequestHeader
  rw [hp.lower k (hall k h).1, (hall k h).2]
  simpa using h

/-- What is left of the request's own headers. -/
theorem requestHeaders_eq_ok {v : Json} {own : List (JsString × JsString)}
    (h : requestHeaders p v = .ok own) :
    (∀ e ∈ own, isRequestHeader p e.1 = true) ∧ Ordered own ∧ (own.map Prod.fst).Nodup := by
  obtain ⟨entries, -, h⟩ := bind_eq_ok.mp h
  obtain ⟨kept, hkept, h⟩ := bind_eq_ok.mp h
  cases h
  refine ⟨fun e he => ?_, ordered_fromEntries kept, nodup_fromEntries kept⟩
  have hkey := mem_keys_fromEntries (List.mem_map_of_mem (f := Prod.fst) he)
  obtain ⟨e', he', hee⟩ := List.mem_map.mp hkey
  obtain ⟨x, hx, hxe⟩ := forall₂_mem_right (mapM_eq_ok.mp hkept) e' he'
  cases hs : toStr x.2 with
  | error err => rw [hs] at hxe; cases hxe
  | ok s =>
    rw [hs] at hxe
    cases hxe
    rw [← hee]
    exact (List.mem_filter.mp hx).2

/-- The control headers are appended to the request's own. -/
theorem preparedHeaders_eq (hp : p.AsciiCase) {v : Json} {own : List (JsString × JsString)}
    (h : requestHeaders p v = .ok own) (f : ProxyExecutionProfileV1) :
    (controlHeadersForNormalizedProfile f).foldl (fun hs e => setField hs e.1 e.2) own =
      own ++ controlHeadersForNormalizedProfile f := by
  obtain ⟨hown, hord, hnd⟩ := requestHeaders_eq_ok h
  have hctl : ∀ e ∈ controlHeadersForNormalizedProfile f, e.1 ∈ PROFILE_CONTROL_HEADERS := fun e he =>
    (controlHeaders_keys f).subset (List.mem_map_of_mem he)
  refine foldl_setField_append ?_ ?_
  · refine List.pairwise_append.mpr ⟨hord, ?_, fun a _ b hb => ?_⟩
    · refine List.Pairwise.imp_of_mem (fun {a b} ha hb _ => ?_)
        (List.pairwise_of_forall (R := fun _ _ => True) fun _ _ => trivial)
      rw [rank_control (hctl b hb)]
      exact le_top
    · rw [rank_control (hctl b hb)]
      exact le_top
  · rw [List.map_append, List.nodup_append]
    refine ⟨hnd, (controlHeaders_keys f).nodup (by decide), ?_⟩
    rintro a ha b hb rfl
    obtain ⟨e, he, rfl⟩ := List.mem_map.mp ha
    have h1 := hown e he
    rw [isRequestHeader_control hp ((controlHeaders_keys f).subset hb)] at h1
    cases h1

/-- Of headers with string values those are left that have no control name. -/
theorem requestHeaders_strings {es own : List (JsString × JsString)}
    (hown : es.filter (fun e => isRequestHeader p e.1) = own) (hord : Ordered own)
    (hnd : (own.map Prod.fst).Nodup) : requestHeaders p (headersJson es) = .ok own := by
  have hfilter : (es.map fun e => (e.1, Json.str e.2)).filter (fun e => isRequestHeader p e.1) =
      own.map fun e => (e.1, Json.str e.2) := by
    rw [List.filter_map, ← hown]
    rfl
  have hmap : (own.map fun e => (e.1, Json.str e.2)).mapM
      (fun e => (toStr e.2).map fun s => (e.1, s)) = .ok own := by
    rw [mapM_eq_ok, List.forall₂_map_left_iff, List.forall₂_same]
    intro e _
    rfl
  refine bind_eq_ok.mpr ⟨_, rfl, bind_eq_ok.mpr ⟨own, ?_, ?_⟩⟩
  · rw [hfilter, hmap]
  · show Except.ok (fromEntries own) = _
    rw [fromEntries_of_ordered hord hnd]

/-- The request's own headers are found again in the prepared ones. -/
theorem requestHeaders_again (hp : p.AsciiCase) {v : Json} {own : List (JsString × JsString)}
    (h : requestHeaders p v = .ok own) (f : ProxyExecutionProfileV1) :
    requestHeaders p (headersJson (own ++ controlHeadersForNormalizedProfile f)) = .ok own := by
  obtain ⟨hown, hord, hnd⟩ := requestHeaders_eq_ok h
  refine requestHeaders_strings ?_ hord hnd
  rw [List.filter_append, List.filter_eq_self.mpr hown, List.filter_eq_nil_iff.mpr, List.append_nil]
  intro e he
  rw [isRequestHeader_control hp ((controlHeaders_keys f).subset (List.mem_map_of_mem he))]
  simp

/-! ### The whole profile -/

theorem optionalField_keys (k : JsString) (v : Option JsString) :
    ((optionalField k v).map Prod.fst).Sublist [k] := by
  cases v with
  | none => exact List.nil_sublist _
  | some v => exact List.Sublist.refl _

theorem profileFields_keys (f : ProxyExecutionProfileV1) :
    ((profileFields f).map Prod.fst).Sublist PROFILE_KEYS := by
  unfold profileFields
  simp only [List.map_append]
  exact ((((List.Sublist.refl [js "protocol", js "version", js "base_url", js "allowed_methods",
    js "allowed_paths", js "cache_ttl", js "verbose"]).append (optionalField_keys _ _)).append
    (optionalField_keys _ _)).append (optionalField_keys _ _)).append
    (List.Sublist.refl [js "direct"])

theorem checkShape_eq_ok {value : List (JsString × Json)} : checkShape value = .ok () ↔
    (∀ k ∈ value.map Prod.fst, k ∈ PROFILE_KEYS) ∧
    value.lookup (js "protocol") = some (.str PROXY_PROFILE_PROTOCOL) ∧
    value.lookup (js "version") = some (.num (JsNumber.ofNat PROXY_PROFILE_VERSION)) := by
  unfold checkShape
  rcases hfind : (value.map Prod.fst).find? fun k => !PROFILE_KEYS.contains k with _ | k
  · rw [List.find?_eq_none] at hfind
    have hkeys : ∀ k ∈ value.map Prod.fst, k ∈ PROFILE_KEYS := by simpa using hfind
    dsimp only
    rw [require_eq_ok, decide_eq_true_eq]
    exact ⟨fun h => ⟨hkeys, h⟩, And.right⟩
  · have hmem := List.mem_of_find?_eq_some hfind
    have hk := List.find?_some hfind
    refine ⟨fun h => (by cases h), fun h => ?_⟩
    exact absurd (h.1 k hmem) (by simpa using hk)

theorem checkShape_profile (f : ProxyExecutionProfileV1) : checkShape (profileFields f) = .ok () :=
  checkShape_eq_ok.mpr ⟨fun _ hk => (profileFields_keys f).subset hk, rfl, rfl⟩

theorem lookup_profile (f : ProxyExecutionProfileV1) :
    (profileFields f).lookup (js "node_region") = f.node_region.map .str ∧
    (profileFields f).lookup (js "node_domain") = f.node_domain.map .str ∧
    (profileFields f).lookup (js "node_exclude") = f.node_exclude.map .str ∧
    (profileFields f).lookup (js "direct") = some (.bool f.direct) := by
  obtain ⟨_, _, _, _, _, region, domain, exclude, direct⟩ := f
  cases region <;> cases domain <;> cases exclude <;> exact ⟨rfl, rfl, rfl, rfl⟩

/-- The fields of a normalized profile, each from its normalizer. -/
theorem normalize_eq_ok {input : Json} {f : ProxyExecutionProfileV1} :
    normalizeProxyProfileV1 p input = .ok f ↔ ∃ value, input = .obj value ∧
      checkShape value = .ok () ∧
      normalizeBase p (value.lookup (js "base_url")) = .ok f.base_url ∧
      normalizeMethods p (value.lookup (js "allowed_methods")) = .ok f.allowed_methods ∧
      normalizePaths p (value.lookup (js "allowed_paths")) = .ok f.allowed_paths ∧
      normalizeCacheTtl (value.lookup (js "cache_ttl")) = .ok f.cache_ttl ∧
      optionalBoolean (value.lookup (js "verbose")) (js "proxy profile verbose") false = .ok f.verbose ∧
      optionalPreference (value.lookup (js "node_region")) (js "proxy profile node_region") =
        .ok f.node_region ∧
      optionalPreference (value.lookup (js "node_domain")) (js "proxy profile node_domain") =
        .ok f.node_domain ∧
      optionalPreference (value.lookup (js "node_exclude")) (js "proxy profile node_exclude") =
        .ok f.node_exclude ∧
      optionalBoolean (value.lookup (js "direct")) (js "proxy profile direct") true = .ok f.direct := by
  cases input with
  | obj value =>
    simp only [normalizeProxyProfileV1, bind_eq_ok, pure, Except.pure, Except.ok.injEq, Json.obj.injEq,
      exists_eq_left']
    constructor
    · rintro ⟨_, hs, b, hb, ms, hms, ps, hps, t, ht, v, hv, r, hr, d, hd, e, he, dir, hdir, rfl⟩
      exact ⟨hs, hb, hms, hps, ht, hv, hr, hd, he, hdir⟩
    · rintro ⟨hs, hb, hms, hps, ht, hv, hr, hd, he, hdir⟩
      exact ⟨(), hs, _, hb, _, hms, _, hps, _, ht, _, hv, _, hr, _, hd, _, he, _, hdir, rfl⟩
  | _ => simp [normalizeProxyProfileV1]

/-- **Normalizing a normalized profile** succeeds, and changes nothing, exactly if no path starts with
two slashes. -/
theorem normalize_again (hp : p.AsciiCase) (hu : UrlLaws p) {input : Json}
    {f : ProxyExecutionProfileV1} (h : normalizeProxyProfileV1 p input = .ok f) :
    normalizeProxyProfileV1 p (profileJson f) = .ok f ↔
      ∀ s ∈ f.allowed_paths, startsWith s (js "//") = false := by
  obtain ⟨value, -, -, hb, hms, hps, ht, -, hr, hd, he, -⟩ := normalize_eq_ok.mp h
  obtain ⟨lr, ld, le, ldir⟩ := lookup_profile f
  rw [← normalizePaths_again hu hps, normalize_eq_ok]
  constructor
  · rintro ⟨value', hv', -, -, -, hps', -⟩
    cases hv'
    exact hps'
  · intro hps'
    refine ⟨profileFields f, rfl, checkShape_profile f, normalizeBase_again hu hb,
      normalizeMethods_again hp hms, hps', normalizeCacheTtl_again ht, rfl, ?_, ?_, ?_, ?_⟩
    · rw [lr]; exact optionalPreference_again hr
    · rw [ld]; exact optionalPreference_again hd
    · rw [le]; exact optionalPreference_again he
    · rw [ldir]; rfl

/-! ### Preparing again -/

/-- No entry of `allowed_paths` has a URL path with two slashes in front. -/
def PathsReusable (p : Platform) (input : Json) : Prop :=
  ∀ xs s u, input.field? (js "allowed_paths") = some (.arr xs) → .str s ∈ xs →
    p.parseUrlBase s PROFILE_BASE = some u → startsWith u.pathname (js "//") = false

theorem pathsReusable_iff {input : Json} {f : ProxyExecutionProfileV1}
    (h : normalizeProxyProfileV1 p input = .ok f) :
    PathsReusable p input ↔ ∀ s ∈ f.allowed_paths, startsWith s (js "//") = false := by
  obtain ⟨value, rfl, -, -, -, hps, -⟩ := normalize_eq_ok.mp h
  obtain ⟨xs, qs, hxs, -, -, hf, hall⟩ := normalizePaths_eq_ok hps
  have hmem : ∀ s, s ∈ f.allowed_paths ↔ s ∈ qs := fun s => by
    rw [hf, (sortText_perm _).mem_iff, List.mem_dedup]
  constructor
  · intro hr s hs
    obtain ⟨x, hx, hxs'⟩ := forall₂_mem_right hall s ((hmem s).mp hs)
    obtain ⟨t, u, rfl, -, hparse, rfl⟩ := normalizePath_eq_ok hxs'
    exact hr xs t u hxs hx hparse
  · intro hs ys t u hys ht hparse
    have hy : some (Json.arr ys) = some (Json.arr xs) := hys.symm.trans hxs
    simp only [Option.some.injEq, Json.arr.injEq] at hy
    subst hy
    obtain ⟨y, hy, hty⟩ := forall₂_mem_left hall _ ht
    obtain ⟨t', u', ht', -, hparse', rfl⟩ := normalizePath_eq_ok hty
    cases ht'
    rw [hparse] at hparse'
    cases hparse'
    exact hs _ ((hmem _).mpr hy)

theorem prepare_eq_ok {input : Json} {url method : JsString} {headers : Option Json}
    {P : PreparedProxyProfileV1} : prepareProxyProfileRequestV1 p input url method headers = .ok P ↔
      normalizeProxyProfileV1 p input = .ok P.profile ∧ checkTarget p P.profile url method = .ok () ∧
      ∃ own, requestHeaders p (headers.getD (.obj [])) = .ok own ∧
        P.profile_hash = hashNormalizedProfile p P.profile ∧
        P.headers = (controlHeadersForNormalizedProfile P.profile).foldl
          (fun hs e => setField hs e.1 e.2) own := by
  simp only [prepareProxyProfileRequestV1, assertProxyProfileRequestV1, bind_eq_ok, pure, Except.pure,
    Except.ok.injEq]
  constructor
  · rintro ⟨f, ⟨f', hf, _, hc, rfl⟩, own, hown, rfl⟩
    exact ⟨hf, hc, own, hown, rfl, rfl⟩
  · rintro ⟨hf, hc, own, hown, h1, h2⟩
    refine ⟨P.profile, ⟨P.profile, hf, (), hc, rfl⟩, own, hown, ?_⟩
    cases P
    simp_all

/-- **Preparing twice.** -/
theorem prepare_again_iff (p : Platform) (hp : p.AsciiCase) (hu : UrlLaws p) :
    (∀ input f, normalizeProxyProfileV1 p input = .ok f →
      (normalizeProxyProfileV1 p (profileJson f) = .ok f ↔ PathsReusable p input)) ∧
    (∀ input url method headers P, prepareProxyProfileRequestV1 p input url method headers = .ok P →
      (prepareProxyProfileRequestV1 p (profileJson P.profile) url method (some (headersJson P.headers)) =
        .ok P ↔ PathsReusable p input)) := by
  refine ⟨fun input f h => ?_, fun input url method headers P h => ?_⟩
  · rw [normalize_again hp hu h, pathsReusable_iff h]
  · obtain ⟨hf, hc, own, hown, hh, hhs⟩ := prepare_eq_ok.mp h
    rw [pathsReusable_iff hf, ← normalize_again hp hu hf, prepare_eq_ok]
    refine ⟨fun h' => h'.1, fun hf' => ⟨hf', hc, own, ?_, hh, hhs⟩⟩
    rw [hhs, preparedHeaders_eq hp hown]
    exact requestHeaders_again hp hown P.profile

/-! ### A path that is accepted once

A platform whose URL parser knows one site, `https://api.example.com`, with paths that are already
normal; relative to the base of the allowed paths it also knows `/.//x`, whose path is `//x`. -/

def siteUrl (path : JsString) : Url := .plain (js "https:") (js "api.example.com") path

def siteOrigin : JsString := js "https://api.example.com"

def sampleProfile (path : JsString) : ProxyExecutionProfileV1 where
  base_url := js "https://api.example.com/"
  allowed_methods := [js "GET"]
  allowed_paths := [path]
  cache_ttl := JsNumber.ofNat 300
  verbose := false
  node_region := none
  node_domain := none
  node_exclude := none
  direct := true

/-- The digests of the two profiles below. -/
def siteTables : Tables where
  digests := [
    (utf8 (stringify (stableValue (profileJson (sampleProfile (js "/x"))))),
      beBytes 32 0x875469f8fb25190ed439bc0f981e195a21200c820cf079d04419647b7b88dbb8),
    (utf8 (stringify (stableValue (profileJson (sampleProfile (js "//x"))))),
      beBytes 32 0xb35d0f03436630f62ed1257c321bdb495f4b4cda6f2c716ae3351ecf7e745a77)]

def sitePlatform : Platform where
  __ := siteTables.platform
  parseUrl s :=
    if startsWith s siteOrigin then
      match s.drop siteOrigin.length with
      | [] => some (siteUrl [unit '/'])
      | c :: r => if NormalPath (c :: r) then some (siteUrl (c :: r)) else none
    else none
  parseUrlBase s _ :=
    if NormalPath s && !startsWith s (js "//") then some (.plain (js "http:") (js "profile.local") s)
    else if s = js "/.//x" then some (.plain (js "http:") (js "profile.local") (js "//x"))
    else none
  setPathname u s :=
    if s = [] then Url.refresh { u with pathname := [unit '/'] }
    else if NormalPath s then Url.refresh { u with pathname := s }
    else u

theorem sitePlatform_asciiCase : sitePlatform.AsciiCase := ⟨fun _ _ => rfl, fun _ _ => rfl⟩

theorem site_of_httpUrl {u : Url} (h : HttpUrl sitePlatform u) :
    ∃ r, NormalPath r = true ∧ u = siteUrl r := by
  induction h with
  | @parsed s u h _ =>
    have h' : (if startsWith s siteOrigin then
      match s.drop siteOrigin.length with
      | [] => some (siteUrl [unit '/'])
      | c :: r => if NormalPath (c :: r) then some (siteUrl (c :: r)) else none
      else none) = some u := h
    split_ifs at h' with hs
    split at h'
    · cases h'
      exact ⟨_, by decide, rfl⟩
    · split_ifs at h' with hn
      cases h'
      exact ⟨_, hn, rfl⟩
  | @setPathname u s _ ih =>
    obtain ⟨r, hr, rfl⟩ := ih
    show ∃ r', _ ∧ (if s = [] then _ else if NormalPath s then _ else _) = _
    split_ifs with h1 h2
    · exact ⟨[unit '/'], by decide, rfl⟩
    · exact ⟨s, h2, rfl⟩
    · exact ⟨r, hr, rfl⟩

theorem siteUrl_href (r : JsString) : (siteUrl r).href = siteOrigin ++ r := by
  show js "https:" ++ js "//" ++ [] ++ js "api.example.com" ++ r ++ [] ++ [] = _
  have : js "https:" ++ js "//" ++ [] ++ js "api.example.com" = siteOrigin := by decide
  rw [this, List.append_nil, List.append_nil]

theorem site_reparse {r : JsString} (hr : NormalPath r = true) :
    sitePlatform.parseUrl (siteUrl r).href = some (siteUrl r) := by
  obtain ⟨c, t, rfl⟩ : ∃ c t, r = c :: t := by
    cases r with
    | nil => cases hr
    | cons c t => exact ⟨c, t, rfl⟩
  rw [siteUrl_href]
  show (if startsWith (siteOrigin ++ c :: t) siteOrigin then
    match (siteOrigin ++ c :: t).drop siteOrigin.length with
    | [] => some (siteUrl [unit '/'])
    | c :: r => if NormalPath (c :: r) then some (siteUrl (c :: r)) else none
    else none) = _
  rw [if_pos (by simp [startsWith, List.isPrefixOf_iff_prefix]), List.drop_left]
  show (if _ then _ else _) = _
  rw [if_pos hr]

theorem sitePlatform_laws : UrlLaws sitePlatform where
  normal h := by
    obtain ⟨r, hr, rfl⟩ := site_of_httpUrl h
    exact hr
  reparse h := by
    obtain ⟨r, hr, rfl⟩ := site_of_httpUrl h
    exact site_reparse hr
  setPathname_normal {u s} h hs := by
    have hne : s ≠ [] := by
      rintro rfl
      cases hs
    show (if s = [] then _ else if NormalPath s then _ else _ : Url).pathname = s
    rw [if_neg hne, if_pos hs]
    rfl
  setPathname_nil h := rfl
  setPathname_self h := by
    obtain ⟨r, hr, rfl⟩ := site_of_httpUrl h
    have hne : r ≠ [] := by
      rintro rfl
      cases hr
    show (if r = [] then _ else if NormalPath r then _ else _ : Url) = _
    rw [if_neg hne, if_pos hr]
    rfl
  setPathname_frame {u} s h := by
    show _ ∧ _ ∧ _ ∧ _ ∧ _
    have hfields : ∀ q, (Url.refresh { u with pathname := q }).protocol = u.protocol ∧
        (Url.refresh { u with pathname := q }).username = u.username ∧
        (Url.refresh { u with pathname := q }).password = u.password ∧
        (Url.refresh { u with pathname := q }).search = u.search ∧
        (Url.refresh { u with pathname := q }).hash = u.hash := fun q => ⟨rfl, rfl, rfl, rfl, rfl⟩
    simp only [sitePlatform]
    split_ifs
    · exact hfields _
    · exact hfields _
    · exact ⟨rfl, rfl, rfl, rfl, rfl⟩
  base_normal {s u} _ h := by
    have h' : (if NormalPath s && !startsWith s (js "//") then
        some (Url.plain (js "http:") (js "profile.local") s)
      else if s = js "/.//x" then some (.plain (js "http:") (js "profile.local") (js "//x"))
      else none) = some u := h
    split_ifs at h' with h1 h2
    · cases h'
      exact (Bool.and_eq_true _ _ ▸ h1).1
    · cases h'
      decide
  base_fixed {s} hn hs := by
    refine ⟨.plain (js "http:") (js "profile.local") s, ?_, ?_, rfl, rfl, rfl⟩
    · show (if _ then _ else _) = _
      rw [if_pos (by rw [hn, hs]; rfl)]
    · show js "http:" ++ js "//" ++ js "profile.local" = PROFILE_BASE
      decide

/-- A profile for `GET` below one path of the site. -/
def sampleInput (path : JsString) : Json :=
  .obj [(js "protocol", .str PROXY_PROFILE_PROTOCOL), (js "version", .num (JsNumber.ofNat 1)),
    (js "base_url", .str siteOrigin), (js "allowed_methods", .arr [.str (js "get")]),
    (js "allowed_paths", .arr [.str path])]

def samplePrepared (path hash : JsString) : PreparedProxyProfileV1 where
  profile := sampleProfile path
  profile_hash := hash
  headers := [(js "x-cache-ttl", js "300"), (js "x-direct", js "true")]

theorem prepare_again_sample :
    let P := samplePrepared (js "/x") (hex (beBytes 32
      0x875469f8fb25190ed439bc0f981e195a21200c820cf079d04419647b7b88dbb8))
    prepareProxyProfileRequestV1 sitePlatform (sampleInput (js "/x")) (js "https://api.example.com/x")
      (js "get") none = .ok P ∧
    prepareProxyProfileRequestV1 sitePlatform (profileJson P.profile) (js "https://api.example.com/x")
      (js "get") (some (headersJson P.headers)) = .ok P := by
  intro P
  have h : prepareProxyProfileRequestV1 sitePlatform (sampleInput (js "/x"))
      (js "https://api.example.com/x") (js "get") none = .ok P := by decide +kernel
  refine ⟨h, ((prepare_again_iff sitePlatform sitePlatform_asciiCase sitePlatform_laws).2 _ _ _ _ _
    h).mpr ?_⟩
  rw [pathsReusable_iff (prepare_eq_ok.mp h).1]
  decide

theorem prepare_fails_again :
    let P := samplePrepared (js "//x") (hex (beBytes 32
      0xb35d0f03436630f62ed1257c321bdb495f4b4cda6f2c716ae3351ecf7e745a77))
    prepareProxyProfileRequestV1 sitePlatform (sampleInput (js "/.//x")) (js "https://api.example.com//x")
      (js "get") none = .ok P ∧
    prepareProxyProfileRequestV1 sitePlatform (profileJson P.profile) (js "https://api.example.com//x")
      (js "get") (some (headersJson P.headers)) = .error (.thrown (js
        "proxy profile allowed_paths entry must be an origin-relative path beginning with /")) ∧
    normalizeProxyProfileV1 sitePlatform (profileJson P.profile) ≠ .ok P.profile := by
  decide +kernel

end ConsensusNode.Runtime
