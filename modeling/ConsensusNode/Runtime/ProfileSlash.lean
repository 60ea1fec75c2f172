import ConsensusNode.Runtime.ProfileScope

/-! # A slash at the end of an allowed path

The base path of a profile loses the slashes at its end, an allowed path keeps them, and the prefix test
puts one more behind it. So an allowed path written with a slash at its end lets through other targets than
the same path without it.

* `slash_kept_iff`: which targets below an allowed path are still accepted. -/

namespace ConsensusNode.Runtime

open Js

variable {p : Platform}

/-! ### Normal paths in two parts -/

/-- Both sides of an inner slash are normal. -/
theorem normalPath_split {s r : JsString} (hs : s ≠ []) (h : NormalPath (s ++ unit '/' :: r) = true) :
    NormalPath s = true ∧ NormalPath (unit '/' :: r) = true := by
  obtain ⟨c, t, rfl⟩ := List.exists_cons_of_ne_nil hs
  rw [List.cons_append, normalPath_cons] at h
  obtain ⟨hc, hunits, hsegments⟩ := h
  rw [List.splitOn_append_cons_self] at hsegments
  constructor
  · exact normalPath_cons.mpr ⟨hc, fun x hx => hunits x (List.mem_append_left _ hx),
      fun x hx => hsegments x (List.mem_append_left _ hx)⟩
  · exact normalPath_cons.mpr ⟨rfl, fun x hx => hunits x (List.mem_append_right _ (List.mem_cons_of_mem _ hx)),
      fun x hx => hsegments x (List.mem_append_right _ hx)⟩

theorem normalPath_slash {s : JsString} (h : NormalPath s = true) : NormalPath (s ++ [unit '/']) = true := by
  have hs : s ≠ [] := by
    rintro rfl
    cases h
  obtain ⟨c, t, rfl⟩ := List.exists_cons_of_ne_nil hs
  obtain ⟨hc, hunits, hsegments⟩ := normalPath_cons.mp h
  rw [List.cons_append]
  refine normalPath_cons.mpr ⟨hc, fun x hx => ?_, fun x hx => ?_⟩
  · rcases List.mem_append.mp hx with hx | hx
    · exact hunits x hx
    · rw [List.mem_singleton.mp hx]
      decide
  · rw [List.splitOn_append_cons_self] at hx
    rcases List.mem_append.mp hx with hx | hx
    · exact hsegments x hx
    · have hnil : x = [] := by simpa using hx
      rw [hnil]
      decide

/-! ### The path behind the base -/

/-- What is left of an accepted target behind the base path is a normal path. -/
theorem normalPath_relative {base target : Url} (hn : NormalPath target.pathname = true)
    (hpath : basePathOf base = [] ∨ target.pathname = basePathOf base ∨
      startsWith target.pathname (basePathOf base ++ [unit '/']) = true) :
    NormalPath (relativePathOf base target) = true := by
  unfold relativePathOf
  split_ifs with hrest
  · decide
  · rcases hpath with hnil | heq | hstart
    · rwa [hnil, List.length_nil, List.drop_zero]
    · rw [heq, List.drop_length] at hrest
      exact absurd rfl hrest
    · obtain ⟨r, hr⟩ := startsWith_eq_true.mp hstart
      rw [List.append_assoc, List.singleton_append] at hr
      by_cases hnil : basePathOf base = []
      · rwa [hnil, List.length_nil, List.drop_zero]
      · rw [hr, List.drop_left]
        rw [hr] at hn
        exact (normalPath_split hnil hn).2

/-! ### The entries -/

def ENTRY_FIELD : JsString := js "proxy profile allowed_paths entry"

/-- The test of one allowed path. -/
theorem pathAllowed_singleton {a relative : JsString} : pathAllowed [a] relative = true ↔
    a = [unit '/'] ∨ relative = a ∨ startsWith relative (a ++ [unit '/']) = true := by
  simp [pathAllowed, or_assoc]

theorem pathAllowed_iff {allowed : List JsString} {relative : JsString} :
    pathAllowed allowed relative = true ↔ ∃ a ∈ allowed, pathAllowed [a] relative = true := by
  simp [pathAllowed]

/-- Below `a/`, the entry `a/` allows what goes on with a second slash. -/
theorem pathAllowed_slash {a r : JsString} {c : UInt16} (ha : a ≠ []) :
    pathAllowed [a ++ [unit '/']] (a ++ unit '/' :: c :: r) = true ↔ c = unit '/' := by
  rw [pathAllowed_singleton]
  constructor
  · rintro (h | h | h)
    · have hlen := congrArg List.length h
      rw [List.length_append, List.length_singleton] at hlen
      exact absurd (List.eq_nil_of_length_eq_zero (by omega)) ha
    · have hlen := congrArg List.length h
      rw [List.length_append, List.length_append, List.length_cons, List.length_cons,
        List.length_singleton] at hlen
      omega
    · obtain ⟨t, ht⟩ := startsWith_eq_true.mp h
      rw [List.append_assoc, List.append_assoc] at ht
      have htail := List.append_cancel_left ht
      exact (List.cons.inj (List.cons.inj htail).2).1
  · rintro rfl
    refine .inr (.inr (startsWith_eq_true.mpr ⟨r, ?_⟩))
    rw [List.append_assoc, List.append_assoc]
    rfl

/-- The list allows what one of its entries allows. -/
theorem pathAllowed_entries {value : Option Json} {ps : List JsString} {xs : List Json}
    (hvalue : value = some (.arr xs)) (h : normalizePaths p value = .ok ps) {relative : JsString} :
    pathAllowed ps relative = true ↔
      ∃ x ∈ xs, ∃ b, normalizePath p x ENTRY_FIELD = .ok b ∧ pathAllowed [b] relative = true := by
  obtain ⟨ys, qs, hys, -, -, rfl, hall⟩ := normalizePaths_eq_ok h
  cases hvalue.symm.trans hys
  rw [pathAllowed_iff]
  constructor
  · rintro ⟨b, hb, hallowed⟩
    rw [(sortText_perm _).mem_iff, List.mem_dedup] at hb
    obtain ⟨x, hx, hxb⟩ := forall₂_mem_right hall b hb
    exact ⟨x, hx, b, hxb, hallowed⟩
  · rintro ⟨x, hx, b, hxb, hallowed⟩
    obtain ⟨b', hb', hxb'⟩ := forall₂_mem_left hall x hx
    cases hxb.symm.trans hxb'
    refine ⟨b, ?_, hallowed⟩
    rwa [(sortText_perm _).mem_iff, List.mem_dedup]

/-- A list of paths is accepted if its length and each of its entries are. -/
theorem normalizePaths_isOk {xs : List Json} : (∃ ps, normalizePaths p (some (.arr xs)) = .ok ps) ↔
    xs.length ≠ 0 ∧ xs.length ≤ MAX_PATHS ∧ ∀ x ∈ xs, ∃ b, normalizePath p x ENTRY_FIELD = .ok b := by
  constructor
  · rintro ⟨ps, h⟩
    obtain ⟨ys, qs, hys, h0, hmax, -, hall⟩ := normalizePaths_eq_ok h
    cases hys
    refine ⟨h0, hmax, fun x hx => ?_⟩
    obtain ⟨b, -, hb⟩ := forall₂_mem_left hall x hx
    exact ⟨b, hb⟩
  · rintro ⟨h0, hmax, hall⟩
    have hqs : ∃ qs, xs.mapM (fun x => normalizePath p x ENTRY_FIELD) = .ok qs := by
      clear h0 hmax
      induction xs with
      | nil => exact ⟨[], rfl⟩
      | cons x xs ih =>
        obtain ⟨b, hb⟩ := hall x List.mem_cons_self
        obtain ⟨qs, hqs⟩ := ih fun y hy => hall y (List.mem_cons_of_mem _ hy)
        refine ⟨b :: qs, mapM_eq_ok.mpr (.cons hb (mapM_eq_ok.mp hqs))⟩
    obtain ⟨qs, hqs⟩ := hqs
    refine ⟨sortText qs.dedup, ?_⟩
    unfold normalizePaths
    dsimp only
    rw [if_neg (by omega)]
    exact bind_eq_ok.mpr ⟨qs, hqs, rfl⟩

/-! ### The profile with another entry -/

/-- The profile with these allowed paths. -/
def withPaths (value : List (JsString × Json)) (paths : List Json) : List (JsString × Json) :=
  setField value (js "allowed_paths") (.arr paths)

theorem lookup_withPaths (value : List (JsString × Json)) (paths : List Json) (k : JsString) :
    (withPaths value paths).lookup k =
      if k = js "allowed_paths" then some (.arr paths) else value.lookup k := lookup_setField ..

theorem checkShape_withPaths {value : List (JsString × Json)} (h : checkShape value = .ok ())
    (paths : List Json) : checkShape (withPaths value paths) = .ok () := by
  obtain ⟨hkeys, hprotocol, hversion⟩ := checkShape_eq_ok.mp h
  refine checkShape_eq_ok.mpr ⟨fun k hk => ?_, ?_, ?_⟩
  · rcases mem_keys_setField hk with rfl | hk
    · decide
    · exact hkeys k hk
  · rw [lookup_withPaths, if_neg (by decide)]
    exact hprotocol
  · rw [lookup_withPaths, if_neg (by decide)]
    exact hversion

/-- With other paths the rest of a normalized profile stays as it is. -/
theorem normalize_withPaths {value : List (JsString × Json)} {f g : ProxyExecutionProfileV1} {paths : List Json}
    (h : normalizeProxyProfileV1 p (.obj value) = .ok f) :
    normalizeProxyProfileV1 p (.obj (withPaths value paths)) = .ok g ↔
      ∃ ps, normalizePaths p (some (.arr paths)) = .ok ps ∧ g = { f with allowed_paths := ps } := by
  obtain ⟨value', hvalue', hshape, hb, hms, hps, ht, hv, hr, hd, he, hdir⟩ := normalize_eq_ok.mp h
  cases hvalue'
  have hother : ∀ k, k ≠ js "allowed_paths" → (withPaths value paths).lookup k = value.lookup k := by
    intro k hk
    rw [lookup_withPaths, if_neg hk]
  constructor
  · intro hg
    obtain ⟨value', hvalue', -, hb', hms', hps', ht', hv', hr', hd', he', hdir'⟩ := normalize_eq_ok.mp hg
    cases hvalue'
    rw [hother _ (by decide)] at hb' hms' ht' hv' hr' hd' he' hdir'
    rw [lookup_withPaths, if_pos rfl] at hps'
    refine ⟨g.allowed_paths, hps', ?_⟩
    have e1 := Except.ok.inj (hb.symm.trans hb')
    have e2 := Except.ok.inj (hms.symm.trans hms')
    have e3 := Except.ok.inj (ht.symm.trans ht')
    have e4 := Except.ok.inj (hv.symm.trans hv')
    have e5 := Except.ok.inj (hr.symm.trans hr')
    have e6 := Except.ok.inj (hd.symm.trans hd')
    have e7 := Except.ok.inj (he.symm.trans he')
    have e8 := Except.ok.inj (hdir.symm.trans hdir')
    rw [e1, e2, e3, e4, e5, e6, e7, e8]
  · rintro ⟨ps, hps', rfl⟩
    refine normalize_eq_ok.mpr ⟨_, rfl, checkShape_withPaths hshape paths, ?_, ?_, ?_, ?_, ?_, ?_, ?_, ?_, ?_⟩
    · rw [hother _ (by decide)]; exact hb
    · rw [hother _ (by decide)]; exact hms
    · rw [lookup_withPaths, if_pos rfl]; exact hps'
    · rw [hother _ (by decide)]; exact ht
    · rw [hother _ (by decide)]; exact hv
    · rw [hother _ (by decide)]; exact hr
    · rw [hother _ (by decide)]; exact hd
    · rw [hother _ (by decide)]; exact he
    · rw [hother _ (by decide)]; exact hdir

/-- **A slash behind an allowed path.** For every profile and every entry `a` of its `allowed_paths` but
`/`: let a target strictly below `a` be accepted. With `a/` in the place of `a` it is still accepted if and
only if another slash follows, or another entry allows it. -/
theorem slash_kept_iff (p : Platform) (hu : UrlLaws p) (value : List (JsString × Json)) (pre post : List Json)
    (a : JsString) (hentries : value.lookup (js "allowed_paths") = some (.arr (pre ++ .str a :: post)))
    (hroot : a ≠ [unit '/']) (targetUrl method : JsString) (profile : ProxyExecutionProfileV1)
    (h : assertProxyProfileRequestV1 p (.obj value) targetUrl method = .ok profile)
    (target base : Url) (htarget : p.parseUrl targetUrl = some target)
    (hbase : p.parseUrl profile.base_url = some base) (c : UInt16) (r : JsString)
    (hbelow : relativePathOf base target = a ++ unit '/' :: c :: r) :
    (∃ profile', assertProxyProfileRequestV1 p
        (.obj (withPaths value (pre ++ .str (a ++ [unit '/']) :: post))) targetUrl method = .ok profile') ↔
      c = unit '/' ∨ ∃ x ∈ pre ++ post, ∃ b, normalizePath p x ENTRY_FIELD = .ok b ∧
        pathAllowed [b] (relativePathOf base target) = true := by
  obtain ⟨f, hf, u, hcheck, hret⟩ := by
    simpa only [assertProxyProfileRequestV1, bind_eq_ok] using h
  cases hret
  obtain ⟨target', base', ht', hb', hhttp, hplain, horigin, hpath, -, hmethod⟩ := checkTarget_eq_ok.mp hcheck
  cases htarget.symm.trans ht'
  cases hbase.symm.trans hb'
  obtain ⟨value', hvalue', -, -, -, hps, -⟩ := normalize_eq_ok.mp hf
  cases hvalue'
  rw [hentries] at hps
  -- the entry is a normal path, and so is the one with a slash
  obtain ⟨h0, hmax, hall⟩ := normalizePaths_isOk.mp ⟨_, hps⟩
  obtain ⟨b, hab⟩ := hall (.str a) (List.mem_append_right _ List.mem_cons_self)
  have ha : a ≠ [] := by
    rintro rfl
    cases hab
  have hrelative := normalPath_relative (hu.normal (.parsed htarget hhttp)) hpath
  rw [hbelow] at hrelative
  have hn : NormalPath a = true := (normalPath_split ha hrelative).1
  have hslash : normalizePath p (.str (a ++ [unit '/'])) ENTRY_FIELD = .ok (a ++ [unit '/']) := by
    refine (normalizePath_again hu (normalPath_slash hn) _).mpr ?_
    have hfront := normalizePath_front hab
    rcases a with _ | ⟨d, _ | ⟨e, s⟩⟩
    · exact absurd rfl ha
    · obtain ⟨hd, -⟩ := normalPath_cons.mp hn
      exact absurd (by rw [hd]) hroot
    · exact hfront
  obtain ⟨ps', hps'⟩ : ∃ ps', normalizePaths p (some (.arr (pre ++ .str (a ++ [unit '/']) :: post))) = .ok ps' := by
    refine normalizePaths_isOk.mpr ⟨?_, ?_, fun x hx => ?_⟩
    · simp
    · simpa using hmax
    · rcases List.mem_append.mp hx with hx | hx
      · exact hall x (List.mem_append_left _ hx)
      · rcases List.mem_cons.mp hx with rfl | hx
        · exact ⟨_, hslash⟩
        · exact hall x (List.mem_append_right _ (List.mem_cons_of_mem _ hx))
  -- so only the test of the path can fail
  have haccepted : (∃ profile', assertProxyProfileRequestV1 p
      (.obj (withPaths value (pre ++ .str (a ++ [unit '/']) :: post))) targetUrl method = .ok profile') ↔
      pathAllowed ps' (relativePathOf base target) = true := by
    simp only [assertProxyProfileRequestV1, bind_eq_ok]
    constructor
    · rintro ⟨_, g, hg, _, hcheck', -⟩
      obtain ⟨ps, hps, rfl⟩ := (normalize_withPaths hf).mp hg
      cases hps'.symm.trans hps
      obtain ⟨target', base', ht', hb', -, -, -, -, hallowed, -⟩ := checkTarget_eq_ok.mp hcheck'
      cases htarget.symm.trans ht'
      cases hbase.symm.trans hb'
      exact hallowed
    · intro hallowed
      exact ⟨_, _, (normalize_withPaths hf).mpr ⟨ps', hps', rfl⟩, (), checkTarget_eq_ok.mpr
        ⟨target, base, htarget, hbase, hhttp, hplain, horigin, hpath, hallowed, hmethod⟩, rfl⟩
  rw [haccepted, pathAllowed_entries rfl hps']
  constructor
  · rintro ⟨x, hx, d, hxd, hallowed⟩
    rcases List.mem_append.mp hx with hx | hx
    · exact .inr ⟨x, List.mem_append_left _ hx, d, hxd, hallowed⟩
    · rcases List.mem_cons.mp hx with rfl | hx
      · cases hslash.symm.trans hxd
        rw [hbelow] at hallowed
        exact .inl ((pathAllowed_slash ha).mp hallowed)
      · exact .inr ⟨x, List.mem_append_right _ hx, d, hxd, hallowed⟩
  · rintro (hc | ⟨x, hx, d, hxd, hallowed⟩)
    · refine ⟨_, List.mem_append_right _ List.mem_cons_self, _, hslash, ?_⟩
      rw [hbelow]
      exact (pathAllowed_slash ha).mpr hc
    · refine ⟨x, ?_, d, hxd, hallowed⟩
      rcases List.mem_append.mp hx with hx | hx
      · exact List.mem_append_left _ hx
      · exact List.mem_append_right _ (List.mem_cons_of_mem _ hx)

namespace Sample

/-- The fields of `productsInput`: `GET` below `/products` of the base `/v1`. -/
def productsFields : List (JsString × Json) :=
  [(js "protocol", .str PROXY_PROFILE_PROTOCOL), (js "version", .num (JsNumber.ofNat 1)),
    (js "base_url", .str (js "https://api.example.com/v1//")), (js "allowed_methods", .arr [.str (js "get")]),
    (js "allowed_paths", .arr [.str (js "/products")])]

/-- Written with a slash, the path does not let a product through any more. -/
theorem slash_revokes :
    assertProxyProfileRequestV1 sitePlatform (.obj productsFields) (js "https://api.example.com/v1/products/1")
      (js "get") = .ok productsProfile ∧
    assertProxyProfileRequestV1 sitePlatform (.obj (withPaths productsFields [.str (js "/products/")]))
      (js "https://api.example.com/v1/products/1") (js "get") =
      .error (.thrown (js "proxy profile target path is not allowed")) := by
  decide

/-- Behind two slashes it does. -/
theorem slash_kept : ∃ profile,
    assertProxyProfileRequestV1 sitePlatform (.obj (withPaths productsFields [.str (js "/products/")]))
      (js "https://api.example.com/v1/products//1") (js "get") = .ok profile := by
  have h : assertProxyProfileRequestV1 sitePlatform (.obj productsFields)
      (js "https://api.example.com/v1/products//1") (js "get") = .ok productsProfile := by decide
  have htarget : sitePlatform.parseUrl (js "https://api.example.com/v1/products//1") =
      some (siteUrl (js "/v1/products//1")) := by decide
  have hbase : sitePlatform.parseUrl productsProfile.base_url = some (siteUrl (js "/v1")) := by decide
  exact (slash_kept_iff sitePlatform sitePlatform_laws productsFields [] [] (js "/products") rfl (by decide) _ _ _
    h _ _ htarget hbase (unit '/') (js "1") (by decide)).mpr (.inl rfl)

end Sample

end ConsensusNode.Runtime
