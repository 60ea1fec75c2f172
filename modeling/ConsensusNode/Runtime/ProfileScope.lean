import ConsensusNode.Runtime.ProfileIdem

/-! # What a profile lets through

`assertProxyProfileRequestV1` compares paths as texts, with the base path cut off and a slash put behind
every prefix. Segment by segment this is containment: the segments of the base path come first, then those of
an allowed path.

* `request_in_scope`: where the target of an accepted request lies. -/

namespace ConsensusNode.Runtime

open Js

variable {p : Platform}

/-! ### Segments -/

/-- What stands between the slashes of a path; the root has no segments. -/
def segments (path : JsString) : List JsString :=
  if path = [unit '/'] then [] else path.tail.splitOn (unit '/')

theorem segments_root : segments [unit '/'] = [] := rfl

theorem segments_below {a r : JsString} (ha : a ≠ []) (hroot : a ≠ [unit '/']) :
    segments (a ++ unit '/' :: r) = segments a ++ r.splitOn (unit '/') := by
  obtain ⟨c, s, rfl⟩ := List.exists_cons_of_ne_nil ha
  have hlong : (c :: s) ++ unit '/' :: r ≠ [unit '/'] := by simp
  unfold segments
  rw [if_neg hlong, if_neg hroot]
  exact List.splitOn_append_cons_self ..

theorem segments_slash {r : JsString} (hr : r ≠ []) : segments (unit '/' :: r) = r.splitOn (unit '/') := by
  have hlong : unit '/' :: r ≠ [unit '/'] := by simpa using hr
  unfold segments
  rw [if_neg hlong]
  rfl

theorem startsWith_eq_true {s a : JsString} : startsWith s a = true ↔ ∃ r, s = a ++ r := by
  unfold startsWith
  rw [List.isPrefixOf_iff_prefix]
  constructor
  · rintro ⟨r, rfl⟩
    exact ⟨r, rfl⟩
  · rintro ⟨r, rfl⟩
    exact ⟨r, rfl⟩

/-- A path that is the other or goes on behind a slash has all its segments. -/
theorem segments_of_below {a s : JsString} (ha : startsWith a [unit '/'] = true) (hroot : a ≠ [unit '/'])
    (h : s = a ∨ startsWith s (a ++ [unit '/']) = true) : segments a <+: segments s := by
  have hne : a ≠ [] := by
    rintro rfl
    cases ha
  rcases h with rfl | h
  · exact List.prefix_rfl
  · obtain ⟨r, rfl⟩ := startsWith_eq_true.mp h
    rw [List.append_assoc, List.singleton_append, segments_below hne hroot]
    exact List.prefix_append ..

/-! ### The allowed paths -/

theorem allowed_of_pathAllowed {allowed : List JsString} (ha : ∀ a ∈ allowed, startsWith a [unit '/'] = true)
    {relative : JsString} (h : pathAllowed allowed relative = true) :
    ∃ a ∈ allowed, a = [unit '/'] ∨ segments a <+: segments relative := by
  obtain ⟨a, hmem, hmatch⟩ := List.any_eq_true.mp h
  by_cases hroot : a = [unit '/']
  · exact ⟨a, hmem, .inl hroot⟩
  · simp only [Bool.or_eq_true, beq_iff_eq, hroot, false_or] at hmatch
    exact ⟨a, hmem, .inr (segments_of_below (ha a hmem) hroot hmatch)⟩

/-- The entries of a normalized profile start with a slash. -/
theorem allowed_paths_slash (hu : UrlLaws p) {v : Option Json} {ps : List JsString}
    (h : normalizePaths p v = .ok ps) : ∀ a ∈ ps, startsWith a [unit '/'] = true := by
  obtain ⟨xs, qs, -, -, -, rfl, hall⟩ := normalizePaths_eq_ok h
  intro a ha
  rw [(sortText_perm _).mem_iff, List.mem_dedup] at ha
  obtain ⟨x, -, hx⟩ := forall₂_mem_right hall a ha
  obtain ⟨t, u, -, ht, hparse, rfl⟩ := normalizePath_eq_ok hx
  exact normalPath_head (hu.base_normal ht hparse)

/-! ### The base path -/

theorem getLast_stripSlashes (s : JsString) : (stripSlashes s).getLast? ≠ some (unit '/') := by
  intro h
  obtain ⟨t, ht⟩ := List.getLast?_eq_some_iff.mp h
  have hstrip := stripSlashes_concat t (unit '/')
  rw [if_pos rfl, ← ht, stripSlashes_idem] at hstrip
  have hle : (stripSlashes t).length ≤ t.length := (List.rdropWhile_prefix _ _).length_le
  rw [← hstrip, ht, List.length_append] at hle
  simp at hle

/-- The base of a normalized profile has no slash at the end of its path, apart from the root. -/
theorem parse_base_url (hu : UrlLaws p) {v : Option Json} {b : JsString} (h : normalizeBase p v = .ok b) :
    ∃ base, p.parseUrl b = some base ∧ startsWith base.pathname [unit '/'] = true ∧
      (base.pathname ≠ [unit '/'] → base.pathname.getLast? ≠ some (unit '/')) := by
  obtain ⟨u, hh, -, -, -, -, -, rfl⟩ := normalizeBase_eq_ok h
  generalize hq : (if u.pathname = [unit '/'] then [unit '/'] else stripSlashes u.pathname) = q
  have hh' : HttpUrl p (p.setPathname u q) := .setPathname q hh
  have hfix := basePath_fixed hu hh hq.symm
  refine ⟨_, hu.reparse hh', normalPath_head (hu.normal hh'), fun hroot => ?_⟩
  rw [if_neg hroot] at hfix
  rw [← hfix]
  exact getLast_stripSlashes _

/-- `basePath` of the source. -/
def basePathOf (base : Url) : JsString :=
  if base.pathname = [unit '/'] then []
  else if base.pathname.getLast? = some (unit '/') then base.pathname.dropLast else base.pathname

/-- The path behind the base path. -/
def relativePathOf (base target : Url) : JsString :=
  if target.pathname.drop (basePathOf base).length = [] then [unit '/']
  else target.pathname.drop (basePathOf base).length

/-- **An accepted target.** -/
theorem checkTarget_eq_ok {f : ProxyExecutionProfileV1} {url method : JsString} {u : Unit} :
    checkTarget p f url method = .ok u ↔ ∃ target base,
      p.parseUrl url = some target ∧ p.parseUrl f.base_url = some base ∧ isHttp target.protocol = true ∧
      (target.username = [] ∧ target.password = [] ∧ target.hash = []) ∧ target.origin = base.origin ∧
      (basePathOf base = [] ∨ target.pathname = basePathOf base ∨
        startsWith target.pathname (basePathOf base ++ [unit '/']) = true) ∧
      pathAllowed f.allowed_paths (relativePathOf base target) = true ∧
      p.toUpperCase method ∈ f.allowed_methods := by
  unfold checkTarget
  rcases htarget : p.parseUrl url with _ | target
  · simp [bind, Except.bind]
  · rcases hbase : p.parseUrl f.base_url with _ | base
    · simp [bind, Except.bind]
    · constructor
      · intro h
        obtain ⟨_, hhttp, h⟩ := bind_eq_ok.mp (show (require _ _ >>= fun _ => _) = .ok u from h)
        obtain ⟨_, hplain, h⟩ := bind_eq_ok.mp h
        obtain ⟨_, horigin, h⟩ := bind_eq_ok.mp h
        obtain ⟨_, hpath, h⟩ := bind_eq_ok.mp h
        obtain ⟨_, hallowed, hmethod⟩ := bind_eq_ok.mp h
        simp only [require_eq_ok, Bool.and_eq_true, List.isEmpty_iff] at hplain
        simp only [require_eq_ok, Bool.or_eq_true, List.isEmpty_iff, beq_iff_eq, or_assoc] at hpath
        exact ⟨target, base, rfl, rfl, require_eq_ok.mp hhttp, ⟨hplain.1.1, hplain.1.2, hplain.2⟩,
          eq_of_beq (require_eq_ok.mp horigin), hpath, require_eq_ok.mp hallowed,
          by simpa using require_eq_ok.mp hmethod⟩
      · rintro ⟨_, _, ht, hb, hhttp, ⟨huser, hpass, hhash⟩, horigin, hpath, hallowed, hmethod⟩
        cases ht
        cases hb
        show (require _ _ >>= fun _ => _) = .ok u
        refine bind_eq_ok.mpr ⟨(), require_eq_ok.mpr hhttp, bind_eq_ok.mpr ⟨(), require_eq_ok.mpr ?_,
          bind_eq_ok.mpr ⟨(), require_eq_ok.mpr (beq_iff_eq.mpr horigin), bind_eq_ok.mpr
            ⟨(), require_eq_ok.mpr ?_, bind_eq_ok.mpr ⟨(), require_eq_ok.mpr hallowed, require_eq_ok.mpr ?_⟩⟩⟩⟩⟩
        · rw [huser, hpass, hhash]
          rfl
        · simp only [Bool.or_eq_true, List.isEmpty_iff, beq_iff_eq, or_assoc]
          exact hpath
        · simpa using hmethod

/-- **Below the base path.** -/
theorem below_base {base target : Url} {allowed : List JsString} (hslash : startsWith base.pathname [unit '/'] = true)
    (hlast : base.pathname ≠ [unit '/'] → base.pathname.getLast? ≠ some (unit '/'))
    (htarget : startsWith target.pathname [unit '/'] = true)
    (hpath : basePathOf base = [] ∨ target.pathname = basePathOf base ∨
      startsWith target.pathname (basePathOf base ++ [unit '/']) = true)
    (hallowed : ∃ a ∈ allowed, a = [unit '/'] ∨ segments a <+: segments (relativePathOf base target)) :
    ∃ rest, segments target.pathname = segments base.pathname ++ rest ∧
      (∃ a ∈ allowed, a = [unit '/'] ∨ segments a <+: rest) ∧
      (base.pathname ≠ [unit '/'] → ∀ c s, target.pathname = base.pathname ++ c :: s → c = unit '/') := by
  by_cases hroot : base.pathname = [unit '/']
  · have hbase : basePathOf base = [] := if_pos hroot
    have hne : target.pathname ≠ [] := by
      intro hnil
      rw [hnil] at htarget
      cases htarget
    have hrel : relativePathOf base target = target.pathname := by
      unfold relativePathOf
      rw [hbase, List.length_nil, List.drop_zero, if_neg hne]
    rw [hrel] at hallowed
    exact ⟨segments target.pathname, by rw [hroot, segments_root, List.nil_append], hallowed, fun h => absurd hroot h⟩
  · have hbase : basePathOf base = base.pathname := by
      unfold basePathOf
      rw [if_neg hroot, if_neg (hlast hroot)]
    have hne : base.pathname ≠ [] := by
      intro hnil
      rw [hnil] at hslash
      cases hslash
    rw [hbase] at hpath
    rcases hpath with hnil | heq | hstart
    · exact absurd hnil hne
    · have hrel : relativePathOf base target = [unit '/'] := by
        unfold relativePathOf
        rw [hbase, heq, List.drop_length, if_pos rfl]
      rw [hrel, segments_root] at hallowed
      refine ⟨[], by rw [heq, List.append_nil], hallowed, fun _ c s hs => ?_⟩
      have hlen := congrArg List.length hs
      rw [heq, List.length_append, List.length_cons] at hlen
      omega
    · obtain ⟨r, hr⟩ := startsWith_eq_true.mp hstart
      rw [List.append_assoc, List.singleton_append] at hr
      have hrel : relativePathOf base target = unit '/' :: r := by
        unfold relativePathOf
        rw [hbase, hr, List.drop_left, if_neg (by simp)]
      have hprefix : segments (unit '/' :: r) <+: r.splitOn (unit '/') := by
        by_cases hnil : r = []
        · rw [hnil, segments_root]
          exact List.nil_prefix
        · rw [segments_slash hnil]
      rw [hrel] at hallowed
      obtain ⟨a, ha, hin⟩ := hallowed
      refine ⟨r.splitOn (unit '/'), by rw [hr, segments_below hne hroot],
        ⟨a, ha, hin.imp_right fun hsegments => hsegments.trans hprefix⟩, fun _ c s hs => ?_⟩
      rw [hr] at hs
      exact (List.cons.inj (List.append_cancel_left hs)).1.symm

/-- **An accepted request is in scope.** The target has the origin of the base and no credentials or fragment.
The segments of its path are those of the base path and a rest, which starts with the segments of an allowed
path (all of them are below the root); and what follows the text of a base path that is not the root is
nothing or a slash. The method is an allowed one. -/
theorem request_in_scope (p : Platform) (hu : UrlLaws p) (input : Json) (targetUrl method : JsString)
    (profile : ProxyExecutionProfileV1)
    (h : assertProxyProfileRequestV1 p input targetUrl method = .ok profile) :
    normalizeProxyProfileV1 p input = .ok profile ∧
    ∃ target base rest, p.parseUrl targetUrl = some target ∧ p.parseUrl profile.base_url = some base ∧
      (target.protocol = js "http:" ∨ target.protocol = js "https:") ∧
      target.username = [] ∧ target.password = [] ∧ target.hash = [] ∧ target.origin = base.origin ∧
      segments target.pathname = segments base.pathname ++ rest ∧
      (∃ a ∈ profile.allowed_paths, a = [unit '/'] ∨ segments a <+: rest) ∧
      (base.pathname ≠ [unit '/'] → ∀ c s, target.pathname = base.pathname ++ c :: s → c = unit '/') ∧
      p.toUpperCase method ∈ profile.allowed_methods := by
  obtain ⟨f, hf, u, hcheck, hret⟩ := by
    simpa only [assertProxyProfileRequestV1, bind_eq_ok] using h
  cases hret
  obtain ⟨value, -, -, hb, -, hps, -⟩ := normalize_eq_ok.mp hf
  obtain ⟨target, base, htarget, hbase, hhttp, ⟨huser, hpass, hhash⟩, horigin, hpath, hallowed, hmethod⟩ :=
    checkTarget_eq_ok.mp hcheck
  obtain ⟨base', hbase', hslash, hlast⟩ := parse_base_url hu hb
  cases hbase.symm.trans hbase'
  have hprotocol : target.protocol = js "http:" ∨ target.protocol = js "https:" := by
    simpa [isHttp] using hhttp
  obtain ⟨rest, hrest, hscope, hboundary⟩ : ∃ rest, segments target.pathname = segments base.pathname ++ rest ∧
      (∃ a ∈ profile.allowed_paths, a = [unit '/'] ∨ segments a <+: rest) ∧
      (base.pathname ≠ [unit '/'] → ∀ c s, target.pathname = base.pathname ++ c :: s → c = unit '/') :=
    below_base hslash hlast (normalPath_head (hu.normal (.parsed htarget hhttp))) hpath
      (allowed_of_pathAllowed (allowed_paths_slash hu hps) hallowed)
  exact ⟨hf, target, base, rest, htarget, hbase, hprotocol, huser, hpass, hhash, horigin, hrest, hscope, hboundary,
    hmethod⟩

namespace Sample

/-- A profile for `GET` below `/products` of the base `/v1`, written with slashes at the end. -/
def productsInput : Json :=
  .obj [(js "protocol", .str PROXY_PROFILE_PROTOCOL), (js "version", .num (JsNumber.ofNat 1)),
    (js "base_url", .str (js "https://api.example.com/v1//")), (js "allowed_methods", .arr [.str (js "get")]),
    (js "allowed_paths", .arr [.str (js "/products")])]

def productsProfile : ProxyExecutionProfileV1 :=
  { sampleProfile (js "/products") with base_url := js "https://api.example.com/v1" }

theorem product_in_scope :
    assertProxyProfileRequestV1 sitePlatform productsInput (js "https://api.example.com/v1/products/1") (js "get") =
      .ok productsProfile ∧
    ∃ target base rest, sitePlatform.parseUrl (js "https://api.example.com/v1/products/1") = some target ∧
      sitePlatform.parseUrl productsProfile.base_url = some base ∧
      (target.protocol = js "http:" ∨ target.protocol = js "https:") ∧
      target.username = [] ∧ target.password = [] ∧ target.hash = [] ∧ target.origin = base.origin ∧
      segments target.pathname = segments base.pathname ++ rest ∧
      (∃ a ∈ productsProfile.allowed_paths, a = [unit '/'] ∨ segments a <+: rest) ∧
      (base.pathname ≠ [unit '/'] → ∀ c s, target.pathname = base.pathname ++ c :: s → c = unit '/') ∧
      sitePlatform.toUpperCase (js "get") ∈ productsProfile.allowed_methods := by
  have h : assertProxyProfileRequestV1 sitePlatform productsInput (js "https://api.example.com/v1/products/1")
      (js "get") = .ok productsProfile := by decide
  exact ⟨h, (request_in_scope sitePlatform sitePlatform_laws _ _ _ _ h).2⟩

end Sample

end ConsensusNode.Runtime
