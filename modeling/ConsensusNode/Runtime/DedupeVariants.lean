import ConsensusNode.Js.KeyOrder
import ConsensusNode.Runtime.DedupeBinding
import ConsensusNode.Runtime.ProfileV1

/-! # Requests with the same dedupe key

What the URL class does is an assumption: `Whatwg p κ` says that a URL object of the platform is a record of
scheme, credentials, host, port, path, query and fragment, that the parser returns lower-case schemes, and
what the setters do for the arguments `canonicalizeUrl` gives them. `κ` is the type of a query.

* `canonicalizeUrl_variant`: targets that differ in the case of the host, the default port, the order of the
  query pairs and the fragment have one canonical form. (A scheme in another case, the host of an http URL in
  another case and a default port are gone once the text is parsed.)
* `cleaned_of_spaceEdit`: white space at both ends, and how much of it stands inside, does not matter.
* `dedupe_variant`: no sequence of such edits of URL, method, headers and body changes the key. -/

namespace ConsensusNode.Runtime

open Js

/-! ### URL objects -/

/-- The record behind a URL object; the scheme with its colon. -/
structure UrlRecord (κ : Type) where
  protocol : JsString
  username : JsString
  password : JsString
  host : Option JsString
  port : Option JsString
  path : JsString
  query : κ
  fragment : Option JsString

/-- **The URL class.** -/
structure Whatwg (p : Platform) (κ : Type) where
  /-- The objects that parsing and setting return. -/
  Valid : Url → Prop
  record : Url → UrlRecord κ
  /-- The name-value pairs of a query. -/
  pairs : κ → List (JsString × JsString)
  noQuery : κ
  /-- The host that setting the empty host name leaves in a URL without host, from scheme and path. -/
  emptyHost : JsString → JsString → Option JsString
  /-- A URL object is its record. -/
  ext : ∀ {u v}, Valid u → Valid v → record u = record v → u = v
  protocol : ∀ {u}, Valid u → u.protocol = (record u).protocol
  hostname : ∀ {u}, Valid u → u.hostname = (record u).host.getD []
  port : ∀ {u}, Valid u → u.port = (record u).port.getD []
  params : ∀ {u}, Valid u → u.params = pairs (record u).query
  parse : ∀ {raw u}, p.parseUrl raw = some u → Valid u
  /-- Schemes are lower case, so setting the lower-case scheme changes nothing. -/
  setProtocol : ∀ {u}, Valid u → Valid (p.setProtocol u (p.toLowerCase u.protocol)) ∧
    record (p.setProtocol u (p.toLowerCase u.protocol)) = record u
  setHash : ∀ {u}, Valid u → Valid (p.setHash u []) ∧
    record (p.setHash u []) = { record u with fragment := none }
  setHostname : ∀ {u}, Valid u → Valid (p.setHostname u (p.toLowerCase u.hostname)) ∧
    record (p.setHostname u (p.toLowerCase u.hostname)) = { record u with
      host := match (record u).host with
        | some h => some (p.toLowerCase h)
        | none => emptyHost (record u).protocol (record u).path }
  setPort : ∀ {u}, Valid u → Valid (p.setPort u []) ∧
    record (p.setPort u []) = { record u with port := none }
  setSearch : ∀ {u}, Valid u → Valid (p.setSearch u []) ∧
    record (p.setSearch u []) = { record u with query := noQuery }

/-- The port without a default port. -/
def effectivePort (protocol : JsString) (port : Option JsString) : Option JsString :=
  if (protocol = js "https:" ∧ port = some (js "443")) ∨ (protocol = js "http:" ∧ port = some (js "80"))
  then none else port

/-- The hosts are equal up to case. -/
def SameHost (p : Platform) : Option JsString → Option JsString → Prop
  | some h, some h' => p.toLowerCase h = p.toLowerCase h'
  | none, none => True
  | _, _ => False

section Url

variable {p : Platform} {κ : Type} (W : Whatwg p κ)

/-- **Two URLs that differ** at most in the case of the host, a default port, the order of the query pairs
and the fragment. -/
structure UrlVariant (r r' : UrlRecord κ) : Prop where
  protocol : r.protocol = r'.protocol
  username : r.username = r'.username
  password : r.password = r'.password
  host : SameHost p r.host r'.host
  port : effectivePort r.protocol r.port = effectivePort r'.protocol r'.port
  path : r.path = r'.path
  query : (W.pairs r.query).Perm (W.pairs r'.query)

/-- The two texts parse to such URLs, or both to none. -/
def SameTarget (raw raw' : JsString) : Prop :=
  match p.parseUrl raw, p.parseUrl raw' with
  | some u, some u' => UrlVariant W (W.record u) (W.record u')
  | none, none => True
  | _, _ => False

/-! ### Sorted pairs -/

theorem text_trichotomy (a b : JsString) : a < b ∨ a = b ∨ b < a := by
  by_cases h : a < b
  · exact .inl h
  · by_cases h' : b < a
    · exact .inr (.inr h')
    · exact .inr (.inl (List.le_antisymm (List.not_lt.mp h') (List.not_lt.mp h)))

instance : Std.Total ParamLe where
  total a b := by
    unfold ParamLe
    rcases text_trichotomy a.1 b.1 with h | h | h
    · exact .inl (.inl h)
    · rcases List.le_total a.2 b.2 with h' | h'
      · exact .inl (.inr ⟨h, h'⟩)
      · exact .inr (.inr ⟨h.symm, h'⟩)
    · exact .inr (.inl h)

instance : IsTrans (JsString × JsString) ParamLe where
  trans a b c := by
    unfold ParamLe
    rintro (h | ⟨h, h'⟩) (g | ⟨g, g'⟩)
    · exact .inl (List.lt_trans h g)
    · exact .inl (g ▸ h)
    · exact .inl (h ▸ g)
    · exact .inr ⟨h.trans g, List.le_trans h' g'⟩

theorem ParamLe.antisymm {a b : JsString × JsString} (h : ParamLe a b) (h' : ParamLe b a) : a = b := by
  unfold ParamLe at h h'
  rcases h with h | ⟨h, g⟩
  · rcases h' with h' | ⟨h', -⟩
    · exact absurd h' (List.lt_asymm h)
    · exact absurd (h' ▸ h) (List.lt_irrefl _)
  · rcases h' with h' | ⟨-, g'⟩
    · exact absurd (h ▸ h') (List.lt_irrefl _)
    · exact Prod.ext h (List.le_antisymm g g')

/-- Sorting forgets the order of the pairs. -/
theorem sortParams_congr {l l' : List (JsString × JsString)} (h : l.Perm l') :
    l.insertionSort ParamLe = l'.insertionSort ParamLe := by
  have hperm : (l.insertionSort ParamLe).Perm (l'.insertionSort ParamLe) :=
    (List.perm_insertionSort _ l).trans (h.trans (List.perm_insertionSort _ l').symm)
  exact hperm.eq_of_pairwise (fun a b _ _ => ParamLe.antisymm) (List.pairwise_insertionSort _ l)
    (List.pairwise_insertionSort _ l')

/-! ### Canonical URLs -/

/-- `canonicalizeUrl` before the query is written again. -/
def clearedUrl (p : Platform) (u : Url) : Url :=
  let u := p.setHash u []
  let u := p.setProtocol u (p.toLowerCase u.protocol)
  let u := p.setHostname u (p.toLowerCase u.hostname)
  if (u.protocol = js "https:" ∧ u.port = js "443") ∨ (u.protocol = js "http:" ∧ u.port = js "80")
  then p.setPort u [] else u

theorem canonicalizeUrl_eq (raw : JsString) : canonicalizeUrl p raw =
    match p.parseUrl raw with
    | none => .error .native
    | some u => .ok (((clearedUrl p u).params.insertionSort ParamLe).foldl
        (fun u kv => p.appendParam u kv.1 kv.2) (p.setSearch (clearedUrl p u) [])).href := rfl

/-- The record of the URL without fragment and default port and with a lower-case host. -/
def clearedRecord (r : UrlRecord κ) : UrlRecord κ :=
  { r with
    fragment := none
    host := match r.host with
      | some h => some (p.toLowerCase h)
      | none => W.emptyHost r.protocol r.path
    port := effectivePort r.protocol r.port }

theorem record_clearedUrl {u : Url} (hu : W.Valid u) :
    W.Valid (clearedUrl p u) ∧ W.record (clearedUrl p u) = clearedRecord W (W.record u) := by
  obtain ⟨h1, r1⟩ := W.setHash hu
  obtain ⟨h2, r2⟩ := W.setProtocol h1
  obtain ⟨h3, r3⟩ := W.setHostname h2
  rw [r2, r1] at r3
  unfold clearedUrl
  dsimp only
  have hproto := W.protocol h3
  have hport := W.port h3
  rw [r3] at hproto hport
  dsimp only at hproto hport
  -- the getters show the default port exactly when the record has it
  have hdefault : ∀ s : JsString, s ≠ [] → (((W.record u).port.getD [] = s) ↔
      (W.record u).port = some s) := by
    intro s hs
    cases (W.record u).port with
    | none => simp [Ne.symm hs]
    | some t => simp
  simp only [hproto, hport, hdefault (js "443") (by decide), hdefault (js "80") (by decide)]
  unfold clearedRecord effectivePort
  split_ifs with hif
  · obtain ⟨h4, r4⟩ := W.setPort h3
    refine ⟨h4, ?_⟩
    rw [r4, r3]
  · exact ⟨h3, r3⟩

theorem clearedRecord_variant {r r' : UrlRecord κ} (h : UrlVariant W r r') :
    clearedRecord W r' = { clearedRecord W r with query := r'.query } := by
  obtain ⟨hp, hu, hpw, hh, hport, hpath, -⟩ := h
  rcases r with ⟨a, b, c, host, port, path, q, f⟩
  rcases r' with ⟨a', b', c', host', port', path', q', f'⟩
  dsimp only at hp hu hpw hh hport hpath
  subst hp hu hpw hpath
  unfold clearedRecord
  dsimp only
  rw [hport]
  cases host with
  | none =>
    cases host' with
    | none => rfl
    | some h' => exact absurd hh id
  | some h =>
    cases host' with
    | none => exact absurd hh id
    | some h' =>
      have hlower : p.toLowerCase h = p.toLowerCase h' := hh
      dsimp only
      rw [hlower]

/-- **One canonical form.** -/
theorem canonicalizeUrl_variant {raw raw' : JsString} (h : SameTarget W raw raw') :
    canonicalizeUrl p raw = canonicalizeUrl p raw' := by
  rw [canonicalizeUrl_eq, canonicalizeUrl_eq]
  unfold SameTarget at h
  split at h
  · rename_i u u' hu hu'
    rw [hu, hu']
    dsimp only
    obtain ⟨v, r⟩ := record_clearedUrl W (W.parse hu)
    obtain ⟨v', r'⟩ := record_clearedUrl W (W.parse hu')
    rw [clearedRecord_variant W h] at r'
    have hparams : (clearedUrl p u).params.insertionSort ParamLe =
        (clearedUrl p u').params.insertionSort ParamLe := by
      refine sortParams_congr ?_
      rw [W.params v, W.params v', r, r']
      exact h.query
    have hcleared : p.setSearch (clearedUrl p u) [] = p.setSearch (clearedUrl p u') [] := by
      obtain ⟨s, t⟩ := W.setSearch v
      obtain ⟨s', t'⟩ := W.setSearch v'
      refine W.ext s s' ?_
      rw [t, t', r, r']
    rw [hparams, hcleared]
  · rename_i hu hu'
    rw [hu, hu']
  · exact absurd h id

end Url

/-! ### White space -/

/-- White space added at the ends, or a run of it in the place of one. -/
inductive SpaceEdit : JsString → JsString → Prop
  | surround (a v b : JsString) (ha : ∀ c ∈ a, isSpace c = true) (hb : ∀ c ∈ b, isSpace c = true) :
      SpaceEdit v (a ++ v ++ b)
  | inside (x y w : JsString) (c : UInt16) (hc : isSpace c = true) (hw : ∀ c ∈ w, isSpace c = true)
      (hne : w ≠ []) : SpaceEdit (x ++ c :: y) (x ++ w ++ y)

theorem trimStart_append_space {a v : JsString} (ha : ∀ c ∈ a, isSpace c = true) :
    trimStart (a ++ v) = trimStart v := by
  unfold trimStart
  rw [List.dropWhile_append_of_pos ha]

theorem trimStart_append {x y : JsString} (hx : ∃ c ∈ x, isSpace c = false) :
    trimStart (x ++ y) = trimStart x ++ y := by
  unfold trimStart
  induction x with
  | nil =>
    obtain ⟨c, hc, -⟩ := hx
    cases hc
  | cons d x ih =>
    rw [List.cons_append, List.dropWhile_cons, List.dropWhile_cons]
    split_ifs with hd
    · refine ih ?_
      obtain ⟨c, hc, hs⟩ := hx
      rcases List.mem_cons.mp hc with rfl | hc
      · rw [hd] at hs
        cases hs
      · exact ⟨c, hc, hs⟩
    · rfl

theorem trimEnd_eq (s : JsString) : trimEnd s = (trimStart s.reverse).reverse := rfl

theorem trimEnd_append_space {v b : JsString} (hb : ∀ c ∈ b, isSpace c = true) :
    trimEnd (v ++ b) = trimEnd v := by
  rw [trimEnd_eq, trimEnd_eq, List.reverse_append, trimStart_append_space fun c hc => hb c (by simpa using hc)]

theorem trimEnd_append {x y : JsString} (hy : ∃ c ∈ y, isSpace c = false) :
    trimEnd (x ++ y) = x ++ trimEnd y := by
  have hy' : ∃ c ∈ y.reverse, isSpace c = false := by
    obtain ⟨c, hc, hs⟩ := hy
    exact ⟨c, by simpa using hc, hs⟩
  rw [trimEnd_eq, trimEnd_eq, List.reverse_append, trimStart_append hy', List.reverse_append,
    List.reverse_reverse]

theorem trimStart_space {x : JsString} (hx : ∀ c ∈ x, isSpace c = true) : trimStart x = [] := by
  have h := trimStart_append_space (v := []) hx
  rw [List.append_nil] at h
  exact h

/-- All white space, or some other unit. -/
theorem space_or_not (x : JsString) : (∀ c ∈ x, isSpace c = true) ∨ ∃ c ∈ x, isSpace c = false := by
  by_cases h : ∃ c ∈ x, isSpace c = false
  · exact .inr h
  · refine .inl fun c hc => ?_
    by_contra hs
    exact h ⟨c, hc, by simpa using hs⟩

theorem trim_surround {a v b : JsString} (ha : ∀ c ∈ a, isSpace c = true)
    (hb : ∀ c ∈ b, isSpace c = true) : trim (a ++ v ++ b) = trim v := by
  unfold trim
  rw [List.append_assoc, trimStart_append_space ha]
  rcases space_or_not v with hv | hv
  · rw [trimStart_append_space hv, trimStart_space hb, trimStart_space hv]
  · rw [trimStart_append hv, trimEnd_append_space hb]

theorem collapseSpace_space {c c' : UInt16} (hc : isSpace c = true) (hc' : isSpace c' = true)
    (y : JsString) : collapseSpace (c :: y) = collapseSpace (c' :: y) := by
  cases y with
  | nil => simp [collapseSpace, hc, hc']
  | cons d y => simp [collapseSpace, hc, hc']

theorem collapseSpace_run {c : UInt16} (hc : isSpace c = true) (y : JsString) : ∀ {w : JsString},
    (∀ d ∈ w, isSpace d = true) → w ≠ [] → collapseSpace (w ++ y) = collapseSpace (c :: y)
  | [], _, hne => absurd rfl hne
  | [d], hw, _ => collapseSpace_space (hw d (by simp)) hc y
  | d :: d' :: w, hw, _ => by
    have hd : isSpace d = true := hw d (by simp)
    have hd' : isSpace d' = true := hw d' (by simp)
    have ih := collapseSpace_run hc y (fun e he => hw e (List.mem_cons_of_mem _ he))
      (List.cons_ne_nil d' w)
    rw [← ih]
    simp [collapseSpace, hd, hd']

theorem collapseSpace_inside {c : UInt16} (hc : isSpace c = true) {w : JsString}
    (hw : ∀ d ∈ w, isSpace d = true) (hne : w ≠ []) (y : JsString) : ∀ x : JsString,
    collapseSpace (x ++ (w ++ y)) = collapseSpace (x ++ c :: y)
  | [] => collapseSpace_run hc y hw hne
  | [d] => by
    have ih := collapseSpace_run hc y hw hne
    obtain ⟨e, w, rfl⟩ := List.exists_cons_of_ne_nil hne
    have he : isSpace e = true := hw e (by simp)
    rw [List.cons_append] at ih
    simp only [List.cons_append, List.nil_append, collapseSpace, hc, he, if_true]
    rw [ih]
  | d :: d' :: x => by
    have ih := collapseSpace_inside hc hw hne y (d' :: x)
    rw [List.cons_append] at ih
    simp only [List.cons_append, collapseSpace] at ih ⊢
    rw [ih]

/-- **White space does not matter** to a cleaned value. -/
theorem cleaned_of_spaceEdit {v v' : JsString} (h : SpaceEdit v v') : cleaned v' = cleaned v := by
  unfold cleaned
  rcases h with ⟨a, v, b, ha, hb⟩ | ⟨x, y, w, c, hc, hw, hne⟩
  · rw [trim_surround ha hb]
  · have hcy : ∀ {d}, d ∈ [c] → isSpace d = true := by
      intro d hd
      rw [List.mem_singleton.mp hd]
      exact hc
    rcases space_or_not x with hx | hx
    · -- the run is at the beginning
      have h1 : trimStart (x ++ w ++ y) = trimStart y := by
        rw [List.append_assoc, trimStart_append_space hx, trimStart_append_space hw]
      have h2 : trimStart (x ++ c :: y) = trimStart y := by
        rw [trimStart_append_space hx]
        exact trimStart_append_space (a := [c]) fun d hd => hcy hd
      unfold trim
      rw [h1, h2]
    · have h1 : trimStart (x ++ w ++ y) = trimStart x ++ (w ++ y) := by
        rw [List.append_assoc, trimStart_append hx]
      have h2 : trimStart (x ++ c :: y) = trimStart x ++ c :: y := trimStart_append hx
      unfold trim
      rw [h1, h2]
      rcases space_or_not y with hy | hy
      · -- the run is at the end
        have h3 : ∀ d ∈ w ++ y, isSpace d = true := by
          intro d hd
          rcases List.mem_append.mp hd with hd | hd
          · exact hw d hd
          · exact hy d hd
        have h4 : ∀ d ∈ c :: y, isSpace d = true := by
          intro d hd
          rcases List.mem_cons.mp hd with rfl | hd
          · exact hc
          · exact hy d hd
        rw [trimEnd_append_space h3, trimEnd_append_space h4]
      · have h3 : trimEnd (trimStart x ++ (w ++ y)) = trimStart x ++ (w ++ trimEnd y) := by
          rw [← List.append_assoc, trimEnd_append hy, List.append_assoc]
        have h4 : trimEnd (trimStart x ++ c :: y) = trimStart x ++ c :: trimEnd y := by
          have := trimEnd_append (x := trimStart x ++ [c]) hy
          simpa using this
        rw [h3, h4]
        exact collapseSpace_inside hc hw hne _ _

/-! ### Headers -/

section Headers

variable (p : Platform)

/-- The names that count. -/
def SEMANTIC_HEADERS : List JsString := ALLOW_HEADERS ++ HASH_HEADERS

/-- **An edit of the headers.** -/
inductive HeaderEdit : List (JsString × JsString) → List (JsString × JsString) → Prop
  | perm {es es' : List (JsString × JsString)} (h : es.Perm es')
      (hn : (es.map fun h => p.toLowerCase h.1).Nodup) : HeaderEdit es es'
  | rename (a b : List (JsString × JsString)) (n n' v : JsString)
      (h : p.toLowerCase n = p.toLowerCase n') : HeaderEdit (a ++ (n, v) :: b) (a ++ (n', v) :: b)
  | add (a b : List (JsString × JsString)) (n v : JsString) (h : p.toLowerCase n ∉ SEMANTIC_HEADERS) :
      HeaderEdit (a ++ b) (a ++ (n, v) :: b)
  | remove (a b : List (JsString × JsString)) (n v : JsString) (h : p.toLowerCase n ∉ SEMANTIC_HEADERS) :
      HeaderEdit (a ++ (n, v) :: b) (a ++ b)
  | space (a b : List (JsString × JsString)) (n v v' : JsString) (h : p.toLowerCase n ∈ ALLOW_HEADERS)
      (hv : SpaceEdit v v') : HeaderEdit (a ++ (n, v) :: b) (a ++ (n, v') :: b)

/-- What the headers say under a name, in their order. -/
def semanticValues (n : JsString) (es : List (JsString × JsString)) : List JsString :=
  (es.filter fun h => decide (p.toLowerCase h.1 = n)).map fun h => semanticText p n h.2

variable {p}

theorem semanticValues_append (n : JsString) (a b : List (JsString × JsString)) :
    semanticValues p n (a ++ b) = semanticValues p n a ++ semanticValues p n b := by
  unfold semanticValues
  rw [List.filter_append, List.map_append]

theorem semanticValues_cons (n : JsString) (h : JsString × JsString) (b : List (JsString × JsString)) :
    semanticValues p n (h :: b) = (if p.toLowerCase h.1 = n then [semanticText p n h.2] else []) ++
      semanticValues p n b := by
  unfold semanticValues
  rw [List.filter_cons]
  split_ifs with h1 h2 h2
  · rfl
  · exact absurd (of_decide_eq_true h1) h2
  · exact absurd (decide_eq_true h2) h1
  · rfl

theorem semanticValues_edit {es es' : List (JsString × JsString)} (h : HeaderEdit p es es') {n : JsString}
    (hn : n ∈ SEMANTIC_HEADERS) : semanticValues p n es = semanticValues p n es' := by
  rcases h with ⟨hperm, hnodup⟩ | ⟨a, b, m, m', v, hm⟩ | ⟨a, b, m, v, hm⟩ | ⟨a, b, m, v, hm⟩ |
    ⟨a, b, m, v, v', hm, hv⟩
  · -- at most one header has the name
    have hfilter := hperm.filter fun h => decide (p.toLowerCase h.1 = n)
    have hlen : (es.filter fun h => decide (p.toLowerCase h.1 = n)).length ≤ 1 := by
      have hcount : (es.filter fun h => decide (p.toLowerCase h.1 = n)).length =
          (es.map fun h => p.toLowerCase h.1).count n := by
        rw [List.count_eq_countP, List.countP_map, List.countP_eq_length_filter]
        congr 1
        refine List.filter_congr fun x _ => ?_
        exact Bool.eq_iff_iff.mpr (by simp)
      rw [hcount]
      exact List.nodup_iff_count_le_one.mp hnodup n
    have heq : (es.filter fun h => decide (p.toLowerCase h.1 = n)) =
        es'.filter fun h => decide (p.toLowerCase h.1 = n) := by
      rcases hcase : es.filter fun h => decide (p.toLowerCase h.1 = n) with _ | ⟨x, _ | ⟨y, l⟩⟩
      · rw [hcase] at hfilter
        rw [hcase]
        exact hfilter.nil_eq
      · rw [hcase] at hfilter
        rw [hcase]
        exact List.singleton_perm.mp hfilter
      · rw [hcase] at hlen
        simp at hlen
    unfold semanticValues
    rw [heq]
  · simp only [semanticValues_append, semanticValues_cons, hm]
  · have hne : p.toLowerCase m ≠ n := fun he => hm (he ▸ hn)
    simp [semanticValues_append, semanticValues_cons, hne]
  · have hne : p.toLowerCase m ≠ n := fun he => hm (he ▸ hn)
    simp [semanticValues_append, semanticValues_cons, hne]
  · have hsem : p.toLowerCase m = n → semanticText p n v = semanticText p n v' := by
      intro he
      unfold semanticText
      rw [if_pos (he ▸ hm), if_pos (he ▸ hm), cleaned_of_spaceEdit hv]
    simp only [semanticValues_append, semanticValues_cons]
    split_ifs with he
    · rw [hsem he]
    · rfl

/-- The loop over headers with string values does not throw; the last value of a name stays. -/
theorem collect_strings : ∀ (es : List (JsString × JsString)) (r : List (JsString × JsString)),
    ∃ r', (es.map fun h => (h.1, Json.str h.2)).foldlM (collectHeader p) r = .ok r' ∧
      ∀ n ∈ SEMANTIC_HEADERS, r'.lookup n = (semanticValues p n es).getLast?.or (r.lookup n)
  | [], r => ⟨r, rfl, fun _ _ => rfl⟩
  | h :: es, r => by
    have hone : ∃ r₁, collectHeader p r (h.1, .str h.2) = .ok r₁ := by
      unfold collectHeader
      dsimp only
      split_ifs
      · exact ⟨_, rfl⟩
      · exact ⟨_, rfl⟩
      · exact ⟨_, rfl⟩
    obtain ⟨r₁, h₁⟩ := hone
    obtain ⟨r', hr', hlook⟩ := collect_strings es r₁
    refine ⟨r', ?_, fun n hn => ?_⟩
    · rw [List.map_cons, List.foldlM_cons, bind_eq_ok]
      exact ⟨r₁, h₁, hr'⟩
    · obtain ⟨hhit, hmiss⟩ := collectHeader_eq_ok hn h₁
      rw [hlook n hn, semanticValues_cons]
      by_cases hl : p.toLowerCase h.1 = n
      · obtain ⟨v, hv, hr₁⟩ := hhit hl
        cases hv
        rw [if_pos hl, hr₁, List.singleton_append, List.getLast?_cons]
        cases (semanticValues p n es).getLast? <;> rfl
      · rw [if_neg hl, hmiss hl, List.nil_append]

theorem orderedHeaders_congr {r r' : List (JsString × JsString)}
    (h : ∀ n ∈ SEMANTIC_HEADERS, r.lookup n = r'.lookup n) : orderedHeaders r = orderedHeaders r' := by
  unfold orderedHeaders
  refine List.filterMap_congr fun n hn => ?_
  have hmem : n ∈ SEMANTIC_HEADERS := by
    have hall : ∀ m ∈ [js "accept", js "authorization", js "content-type", js "cookie"],
        m ∈ SEMANTIC_HEADERS := by decide
    exact hall n hn
  rw [h n hmem]

/-- The canonical form of headers with string values, from the last value of each name. -/
theorem canonicalizeSemanticHeaders_strings (es : List (JsString × JsString)) :
    ∃ r, canonicalizeSemanticHeaders p (headersJson es) = .ok (orderedHeaders r) ∧
      ∀ n ∈ SEMANTIC_HEADERS, r.lookup n = (semanticValues p n es).getLast? := by
  obtain ⟨r, hr, hlook⟩ := collect_strings (p := p) es []
  refine ⟨r, ?_, fun n hn => ?_⟩
  · unfold canonicalizeSemanticHeaders headersJson objectEntries
    show (List.foldlM (collectHeader p) [] _ >>= fun result => pure (orderedHeaders result)) = _
    rw [hr]
    rfl
  · rw [hlook n hn]
    exact Option.or_none

/-- Headers that say the same under every name that counts have the same canonical form. -/
theorem canonicalizeSemanticHeaders_congr {es es' : List (JsString × JsString)}
    (h : ∀ n ∈ SEMANTIC_HEADERS, semanticValues p n es = semanticValues p n es') :
    canonicalizeSemanticHeaders p (headersJson es) = canonicalizeSemanticHeaders p (headersJson es') := by
  obtain ⟨r, hr, hlook⟩ := canonicalizeSemanticHeaders_strings (p := p) es
  obtain ⟨r', hr', hlook'⟩ := canonicalizeSemanticHeaders_strings (p := p) es'
  have hordered : orderedHeaders r = orderedHeaders r' := by
    refine orderedHeaders_congr fun n hn => ?_
    rw [hlook n hn, hlook' n hn, h n hn]
  rw [hr, hr', hordered]

theorem canonicalizeSemanticHeaders_edit {es es' : List (JsString × JsString)} (h : HeaderEdit p es es') :
    canonicalizeSemanticHeaders p (headersJson es) = canonicalizeSemanticHeaders p (headersJson es') :=
  canonicalizeSemanticHeaders_congr fun _ hn => semanticValues_edit h hn

end Headers

/-! ### Requests -/

/-- **An edit of a request** that keeps its meaning. -/
inductive RequestEdit {p : Platform} {κ : Type} (W : Whatwg p κ) : DedupeParams → DedupeParams → Prop
  | target (d : DedupeParams) (raw : JsString) (h : SameTarget W d.target_url raw) :
      RequestEdit W d { d with target_url := raw }
  | method (d : DedupeParams) (m : JsString) (h : p.toUpperCase d.method = p.toUpperCase m) :
      RequestEdit W d { d with method := m }
  | headers (d : DedupeParams) (es es' : List (JsString × JsString)) (hd : d.headers = some (headersJson es))
      (h : HeaderEdit p es es') : RequestEdit W d { d with headers := some (headersJson es') }
  | addHeaders (d : DedupeParams) (h : d.headers = none) :
      RequestEdit W d { d with headers := some (headersJson []) }
  | dropHeaders (d : DedupeParams) (h : d.headers = some (headersJson [])) :
      RequestEdit W d { d with headers := none }
  | body (d : DedupeParams) (v w : Json) (hd : d.body = some (.value v)) (hv : v.Wf) (h : v.Same w) :
      RequestEdit W d { d with body := some (.value w) }

theorem generateDedupeKey_edit {p : Platform} {κ : Type} {W : Whatwg p κ} {d e : DedupeParams}
    (h : RequestEdit W d e) : generateDedupeKey p d = generateDedupeKey p e := by
  unfold generateDedupeKey
  cases h with
  | target raw h => rw [canonicalizeUrl_variant W h]
  | method m h => rw [h]
  | headers es es' hd h => rw [hd, Option.getD_some, Option.getD_some, canonicalizeSemanticHeaders_edit h]
  | addHeaders h =>
    rw [h]
    rfl
  | dropHeaders h =>
    rw [h]
    rfl
  | body v w hd hv h =>
    have hbody : computeBodyHash p d.body = computeBodyHash p (some (.value w)) := by
      rw [hd]
      show sha256HexText p (stringify (deepSort v)) = sha256HexText p (stringify (deepSort w))
      rw [deepSort_eq_of_same h hv]
    rw [hbody]

/-- **Edits do not change the key.** -/
theorem dedupe_variant {p : Platform} {κ : Type} {W : Whatwg p κ} {r r' : DedupeParams}
    (h : Relation.ReflTransGen (RequestEdit W) r r') : generateDedupeKey p r' = generateDedupeKey p r := by
  induction h with
  | refl => rfl
  | tail _ hstep ih => rw [← ih, generateDedupeKey_edit hstep]

/-! ### Edits of a sample request -/

namespace Sample

/-- The objects a table platform returns. -/
structure TableUrl (u : Url) : Prop where
  refreshed : u.refresh = u
  lower : asciiLower u.protocol = u.protocol

instance (u : Url) : Decidable (TableUrl u) :=
  decidable_of_iff (u.refresh = u ∧ asciiLower u.protocol = u.protocol)
    ⟨fun h => ⟨h.1, h.2⟩, fun h => ⟨h.1, h.2⟩⟩

/-- Absent if empty. -/
def nonEmpty (s : JsString) : Option JsString := if s = [] then none else some s

theorem nonEmpty_getD (s : JsString) : (nonEmpty s).getD [] = s := by
  unfold nonEmpty
  split_ifs with h
  · exact h.symm
  · rfl

theorem nonEmpty_injective {s t : JsString} (h : nonEmpty s = nonEmpty t) : s = t := by
  rw [← nonEmpty_getD s, h, nonEmpty_getD]

def tableRecord (u : Url) : UrlRecord (JsString × List (JsString × JsString)) where
  protocol := u.protocol
  username := u.username
  password := u.password
  host := some u.hostname
  port := nonEmpty u.port
  path := u.pathname
  query := (u.search, u.params)
  fragment := nonEmpty u.hash

theorem tableRecord_ext {u v : Url} (hu : TableUrl u) (hv : TableUrl v) (h : tableRecord u = tableRecord v) :
    u = v := by
  unfold tableRecord at h
  simp only [UrlRecord.mk.injEq, Option.some.injEq, Prod.mk.injEq] at h
  obtain ⟨h1, h2, h3, h4, h5, h6, ⟨h7, h8⟩, h9⟩ := h
  rw [← hu.refreshed, ← hv.refreshed]
  unfold Url.refresh
  rw [h1, h2, h3, h4, nonEmpty_injective h5, h6, h7, h8, nonEmpty_injective h9]

/-- The URL class of a table platform. -/
def tableWhatwg (t : Tables) (ht : ∀ e ∈ t.urls, TableUrl e.2) :
    Whatwg t.platform (JsString × List (JsString × JsString)) where
  Valid := TableUrl
  record := tableRecord
  pairs := Prod.snd
  noQuery := ([], [])
  emptyHost _ _ := none
  ext := tableRecord_ext
  protocol _ := rfl
  hostname _ := rfl
  port _ := (nonEmpty_getD _).symm
  params _ := rfl
  parse {raw u} h := by
    obtain ⟨l₁, l₂, heq, -⟩ := List.lookup_eq_some_iff.mp (show t.urls.lookup raw = some u from h)
    exact ht (raw, u) (by rw [heq]; simp)
  setProtocol {u} hu := by
    have hlower : t.platform.toLowerCase u.protocol = u.protocol := hu.lower
    rw [hlower]
    exact ⟨⟨rfl, hu.lower⟩, rfl⟩
  setHash hu := ⟨⟨rfl, hu.lower⟩, rfl⟩
  setHostname hu := ⟨⟨rfl, hu.lower⟩, rfl⟩
  setPort hu := ⟨⟨rfl, hu.lower⟩, rfl⟩
  setSearch hu := ⟨⟨rfl, hu.lower⟩, rfl⟩

def searchUrl (params : List (JsString × JsString)) (hash : JsString) : Url :=
  Url.refresh { Url.plain (js "https:") (js "api.example.com") (js "/v1") with
    search := Url.query params, params, hash }

def variantTables : Tables where
  urls := [(js "https://api.example.com/v1?b=2&a=1#top",
      searchUrl [(js "b", js "2"), (js "a", js "1")] (js "#top")),
    (js "HTTPS://API.example.com:443/v1?a=1&b=2", searchUrl [(js "a", js "1"), (js "b", js "2")] [])]

def whatwg : Whatwg variantTables.platform (JsString × List (JsString × JsString)) :=
  tableWhatwg variantTables (by decide)

def rawRequest : DedupeParams where
  target_url := js "https://api.example.com/v1?b=2&a=1#top"
  method := js "post"
  headers := some (headersJson [(js "Accept", js "a b"), (js "X-Trace", js "1")])
  body := some (.value (.obj [(js "k", .null), (js "a", .bool true)]))
  profile_hash := none

def editedRequest : DedupeParams where
  target_url := js "HTTPS://API.example.com:443/v1?a=1&b=2"
  method := js "POST"
  headers := some (headersJson [(js "Accept", js "a \t b")])
  body := some (.value (.obj [(js "a", .bool true), (js "k", .null)]))
  profile_hash := none

theorem sameTarget : SameTarget whatwg (js "https://api.example.com/v1?b=2&a=1#top")
    (js "HTTPS://API.example.com:443/v1?a=1&b=2") := by
  have h1 : variantTables.platform.parseUrl (js "https://api.example.com/v1?b=2&a=1#top") =
    some (searchUrl [(js "b", js "2"), (js "a", js "1")] (js "#top")) := by decide
  have h2 : variantTables.platform.parseUrl (js "HTTPS://API.example.com:443/v1?a=1&b=2") =
    some (searchUrl [(js "a", js "1"), (js "b", js "2")] []) := by decide
  unfold SameTarget
  rw [h1, h2]
  exact ⟨rfl, rfl, rfl, rfl, rfl, rfl, .swap ..⟩

theorem edited_same_key : generateDedupeKey variantTables.platform editedRequest =
    generateDedupeKey variantTables.platform rawRequest := by
  have h1 := RequestEdit.target rawRequest (js "HTTPS://API.example.com:443/v1?a=1&b=2") sameTarget
  have h2 := RequestEdit.method (W := whatwg)
    { rawRequest with target_url := js "HTTPS://API.example.com:443/v1?a=1&b=2" } (js "POST")
    (by decide)
  have h3 := RequestEdit.headers (W := whatwg)
    { editedRequest with headers := rawRequest.headers, body := rawRequest.body } _ _ rfl
    (.remove [(js "Accept", js "a b")] [] (js "X-Trace") (js "1") (by decide))
  have h4 := RequestEdit.headers (W := whatwg)
    { editedRequest with headers := some (headersJson [(js "Accept", js "a b")]), body := rawRequest.body } _ _
    rfl (.space [] [] (js "Accept") _ _ (by decide)
      (.inside (js "a") (js "b") (js " \t ") 32 (by decide) (by decide) (by decide)))
  have h5 := RequestEdit.body (W := whatwg) { editedRequest with body := rawRequest.body } _
    (.obj [(js "a", .bool true), (js "k", .null)]) rfl ⟨by decide, trivial, trivial, trivial⟩
    (.obj (.swap ..))
  exact dedupe_variant (.tail (.tail (.tail (.tail (.single h1) h2) h3) h4) h5)

end Sample

end ConsensusNode.Runtime
