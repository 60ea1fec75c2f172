import ConsensusNode.Lib.Run
import ConsensusNode.Runtime.ProfileIdem
import ConsensusNode.Runtime.ProxyServe

/-! # Isolation of the profile cache

The cache key of a request is a digest of a digest: the dedupe key binds the method, the canonical URL
and the digest of the profile, and behind a line break all forwarded headers follow. Without collisions
the key therefore determines all four (`cacheKey_inj`), and what a call finds under its key was stored by
a call with the same four (`cached_answer_isolated`). -/

namespace ConsensusNode.Runtime

open Js Lib Lib.Run

/-! ### What a text of a profile determines -/

/-- Equal sorted texts have equal fields, up to the order of keys and infinite numbers inside them. -/
theorem stableStringify_lookup {fs gs : List (JsString × Json)} (hf : (fs.map Prod.fst).Nodup)
    (hg : (gs.map Prod.fst).Nodup) (h : stableStringify (.obj fs) = stableStringify (.obj gs))
    (k : JsString) : (fs.lookup k).map (finitize ∘ deepSort) = (gs.lookup k).map (finitize ∘ deepSort) := by
  have hfin := congrArg (Json.field? k) (stringify_injective h)
  rw [field?_finitize, field?_finitize, lookup_deepSort hf, lookup_deepSort hg, Option.map_map,
    Option.map_map] at hfin
  exact hfin

/-- The value is written as it is. -/
def IsPlainJson (v : Json) : Prop := finitize (deepSort v) = v

theorem deepSortList_strs : ∀ l : List JsString, deepSortList (l.map .str) = l.map .str
  | [] => rfl
  | s :: l => by rw [List.map_cons, deepSortList, deepSortList_strs l]; rfl

theorem finitizeList_strs : ∀ l : List JsString, finitizeList (l.map .str) = l.map .str
  | [] => rfl
  | s :: l => by rw [List.map_cons, finitizeList, finitizeList_strs l]; rfl

theorem isPlainJson_strs (l : List JsString) : IsPlainJson (.arr (l.map .str)) := by
  unfold IsPlainJson
  rw [deepSort, deepSortList_strs, finitize, finitizeList_strs]

theorem normalizeCacheTtl_finite {v : Option Json} {x : JsNumber} (h : normalizeCacheTtl v = .ok x) :
    IsPlainJson (.num x) := by
  have hint : x.isInteger = true := by
    unfold normalizeCacheTtl at h
    split at h
    · cases h; rfl
    · obtain ⟨y, -, h⟩ := bind_eq_ok.mp h
      split at h
      · split_ifs at h with hc
        cases h
        simp only [Bool.and_eq_true] at hc
        exact hc.1.1
      · cases h
  cases x with
  | fin q hq => rfl
  | posInf => cases hint
  | negInf => cases hint

theorem isPlainJson_optionalField {k : JsString} {v : Option JsString} {e : JsString × Json}
    (h : e ∈ optionalField k v) : IsPlainJson e.2 := by
  cases v with
  | none => cases h
  | some s =>
    rw [List.mem_singleton.mp h]
    rfl

theorem isPlainJson_profileFields {f : ProxyExecutionProfileV1} (ht : IsPlainJson (.num f.cache_ttl))
    {e : JsString × Json} (h : e ∈ profileFields f) : IsPlainJson e.2 := by
  simp only [profileFields, List.mem_append, List.mem_cons, List.not_mem_nil, or_false] at h
  rcases h with (((h | h) | h) | h) | h
  · rcases h with rfl | rfl | rfl | rfl | rfl | rfl | rfl
    · rfl
    · rfl
    · rfl
    · exact isPlainJson_strs _
    · exact isPlainJson_strs _
    · exact ht
    · rfl
  · exact isPlainJson_optionalField h
  · exact isPlainJson_optionalField h
  · exact isPlainJson_optionalField h
  · rw [h]; rfl

theorem lookup_plain {fs : List (JsString × Json)} (h : ∀ e ∈ fs, IsPlainJson e.2) (k : JsString) :
    (fs.lookup k).map (finitize ∘ deepSort) = fs.lookup k := by
  cases hl : fs.lookup k with
  | none => rfl
  | some v =>
    obtain ⟨k', hmem⟩ := OrdMap.mem_of_lookup hl
    exact congrArg some (h _ hmem)

theorem profileFields_inj {f g : ProxyExecutionProfileV1}
    (h : ∀ k, (profileFields f).lookup k = (profileFields g).lookup k) : f = g := by
  obtain ⟨f6, f7, f8, f9⟩ := lookup_profile f
  obtain ⟨g6, g7, g8, g9⟩ := lookup_profile g
  have h1 : some (Json.str f.base_url) = some (.str g.base_url) := h (js "base_url")
  have h2 : some (Json.arr (f.allowed_methods.map .str)) = some (.arr (g.allowed_methods.map .str)) :=
    h (js "allowed_methods")
  have h3 : some (Json.arr (f.allowed_paths.map .str)) = some (.arr (g.allowed_paths.map .str)) :=
    h (js "allowed_paths")
  have h4 : some (Json.num f.cache_ttl) = some (.num g.cache_ttl) := h (js "cache_ttl")
  have h5 : some (Json.bool f.verbose) = some (.bool g.verbose) := h (js "verbose")
  have h6 := f6.symm.trans ((h _).trans g6)
  have h7 := f7.symm.trans ((h _).trans g7)
  have h8 := f8.symm.trans ((h _).trans g8)
  have h9 := f9.symm.trans ((h _).trans g9)
  have hinj : Function.Injective Json.str := fun a b hab => by cases hab; rfl
  simp only [Option.some.injEq, Json.str.injEq, Json.arr.injEq, Json.num.injEq, Json.bool.injEq,
    (List.map_injective_iff.mpr hinj).eq_iff] at h1 h2 h3 h4 h5 h9
  have h6 := Option.map_injective hinj h6
  have h7 := Option.map_injective hinj h7
  have h8 := Option.map_injective hinj h8
  cases f
  cases g
  simp_all

variable {p : Platform}

/-- **The digest of a normalized profile determines the profile.** -/
theorem hashNormalizedProfile_inj (hp : p.CollisionFree) {f g : ProxyExecutionProfileV1} {u v : Json}
    (hf : normalizeProxyProfileV1 p u = .ok f) (hg : normalizeProxyProfileV1 p v = .ok g)
    (h : hashNormalizedProfile p f = hashNormalizedProfile p g) : f = g := by
  have htext : stableStringify (profileJson f) = stableStringify (profileJson g) :=
    sha256HexText_inj hp (wellFormed_stringify _) (wellFormed_stringify _) h
  have nodup : ∀ f, ((profileFields f).map Prod.fst).Nodup := fun f =>
    (profileFields_keys f).nodup (by decide)
  obtain ⟨_, -, -, -, -, -, hft, -⟩ := normalize_eq_ok.mp hf
  obtain ⟨_, -, -, -, -, -, hgt, -⟩ := normalize_eq_ok.mp hg
  refine profileFields_inj fun k => ?_
  have hk := stableStringify_lookup (nodup f) (nodup g) htext k
  rwa [lookup_plain fun e he => isPlainJson_profileFields (normalizeCacheTtl_finite hft) he,
    lookup_plain fun e he => isPlainJson_profileFields (normalizeCacheTtl_finite hgt) he] at hk

/-! ### What the key determines -/

/-- Every value of the list is a string. -/
def StringValues (l : List (JsString × Json)) : Prop := ∀ e ∈ l, ∃ s, e.2 = .str s

theorem isPlainJson_pairs : ∀ {l : List (JsString × Json)}, StringValues l →
    IsPlainJson (pairsJson l)
  | [], _ => rfl
  | e :: l, h => by
    obtain ⟨s, hs⟩ := h e (by simp)
    have ih := isPlainJson_pairs (l := l) fun e he => h e (by simp [he])
    unfold IsPlainJson pairsJson at ih ⊢
    rw [deepSort, finitize, Json.arr.injEq] at ih
    rw [List.map_cons, deepSort, deepSortList, finitize, finitizeList, ih, hs]
    rfl

theorem pairsJson_injective : Function.Injective pairsJson := by
  intro l l' h
  unfold pairsJson at h
  refine List.map_injective_iff.mpr (fun e e' he => ?_) (Json.arr.inj h)
  simp only [Json.arr.injEq, List.cons.injEq, Json.str.injEq, and_true] at he
  exact Prod.ext he.1 he.2

theorem pairs_inj {l l' : List (JsString × Json)} (hl : StringValues l) (hl' : StringValues l')
    (h : stableStringify (pairsJson l) = stableStringify (pairsJson l')) : l = l' := by
  have hfin : finitize (deepSort (pairsJson l)) = finitize (deepSort (pairsJson l')) :=
    stringify_injective h
  rw [isPlainJson_pairs hl, isPlainJson_pairs hl'] at hfin
  exact pairsJson_injective hfin

/-- Two texts are cut at the same place by a separator that the front parts do not contain. -/
theorem append_sep_inj {sep : UInt16} : ∀ {a a' b b' : JsString}, sep ∉ a → sep ∉ a' →
    a ++ sep :: b = a' ++ sep :: b' → a = a' ∧ b = b'
  | [], [], _, _, _, _, h => ⟨rfl, (List.cons.inj h).2⟩
  | [], c :: a', _, _, _, h', h => absurd (by rw [(List.cons.inj h).1]; simp) h'
  | c :: a, [], _, _, h', _, h => absurd (by rw [(List.cons.inj h).1]; simp) h'
  | c :: a, c' :: a', _, _, ha, ha', h => by
    obtain ⟨rfl, htail⟩ := List.cons.inj h
    obtain ⟨rfl, hb⟩ := append_sep_inj (fun m => ha (by simp [m])) (fun m => ha' (by simp [m])) htail
    exact ⟨rfl, hb⟩

theorem newline_not_mem_hex (b : Bytes) : unit '\n' ∉ hex b := by
  intro h
  unfold hex at h
  obtain ⟨x, -, hx⟩ := List.mem_flatMap.mp h
  have hall : ∀ d : Fin 16, unit '\n' ≠ hexDigit d.val := by decide
  simp only [List.mem_cons, List.not_mem_nil, or_false] at hx
  rcases hx with hx | hx
  · exact hall ⟨x.toNat / 16, by have := x.toNat_lt; omega⟩ hx
  · exact hall ⟨x.toNat % 16, by omega⟩ hx

theorem profileCacheKey_inj (hp : p.CollisionFree) {b b' : Bytes} {l l' : List (JsString × Json)}
    (hl : StringValues l) (hl' : StringValues l')
    (h : profileCacheKey p (hex b) l = profileCacheKey p (hex b') l') : hex b = hex b' ∧ l = l' := by
  have wf : ∀ (b : Bytes) (v : Json), WellFormed (hex b ++ unit '\n' :: stableStringify v) :=
    fun b v => (wellFormed_of_plain (plain_hex b)).append
      (wellFormed_cons (by unfold Plain; decide) (wellFormed_stringify _))
  have htext := sha256HexText_inj hp (wf _ _) (wf _ _) h
  obtain ⟨hkey, hrest⟩ := append_sep_inj (newline_not_mem_hex b) (newline_not_mem_hex b') htext
  exact ⟨hkey, pairs_inj hl hl' hrest⟩

theorem stringValues_forwarded {hs : List (JsString × JsString)} {l : List (JsString × Json)}
    (h : forwardedHeaderEntries p (headersJson hs) = .ok l) : StringValues l := by
  obtain ⟨entries, he, h⟩ := bind_eq_ok.mp h
  obtain ⟨deny, -, h⟩ := bind_eq_ok.mp h
  cases h
  cases he
  intro e he
  have hmem := List.mem_of_mem_filter ((List.perm_insertionSort _ _).mem_iff.mp he)
  simp only [List.map_map, List.mem_map, Function.comp] at hmem
  obtain ⟨h, -, rfl⟩ := hmem
  exact ⟨h.2, rfl⟩

theorem prepareRequest_eq_some {r : ProxyServeRequest} {q : PreparedProxyProfileV1}
    (h : prepareRequest p r = .ok (some q)) : ∃ input,
      prepareProxyProfileRequestV1 p input r.target_url (upperMethod p r) r.headers = .ok q := by
  unfold prepareRequest at h
  split at h
  · rename_i input _
    split_ifs at h with ht
    · refine ⟨input, ?_⟩
      cases hq : prepareProxyProfileRequestV1 p input r.target_url (upperMethod p r) r.headers with
      | error e => rw [hq] at h; cases h
      | ok q' =>
        rw [hq] at h
        cases h
        rfl
    · cases h
  · cases h

/-- A plan with a cache key has a profile and a cacheable method, and its key is built from them. -/
theorem planRequest_cacheKey {r : ProxyServeRequest} {plan : ProxyPlan} {k : JsString}
    (h : planRequest p r = .ok plan) (hk : plan.cacheKey = some k) : ∃ input q key,
      prepareProxyProfileRequestV1 p input r.target_url (upperMethod p r) r.headers = .ok q ∧
      plan.profile = some q.profile ∧ plan.method = upperMethod p r ∧
      plan.method ∈ CACHEABLE_METHODS ∧ StringValues plan.forwarded ∧
      generateDedupeKey p {
        target_url := r.target_url, method := plan.method, headers := some (headersJson q.headers),
        body := r.body, profile_hash := some q.profile_hash } = .ok key ∧
      k = profileCacheKey p key plan.forwarded := by
  unfold planRequest at h
  obtain ⟨prepared, hprep, h⟩ := bind_eq_ok.mp h
  obtain ⟨forwarded, hfwd, h⟩ := bind_eq_ok.mp h
  obtain ⟨cacheKey, hkey, h⟩ := bind_eq_ok.mp h
  cases h
  dsimp only at hk
  subst hk
  cases prepared with
  | none => cases hkey
  | some q =>
    unfold requestCacheKey at hkey
    dsimp only at hkey
    split_ifs at hkey with hc
    · obtain ⟨key, hded, hkey⟩ := bind_eq_ok.mp hkey
      cases hkey
      simp only [Bool.and_eq_true, List.contains_iff_mem] at hc
      obtain ⟨input, hq⟩ := prepareRequest_eq_some hprep
      exact ⟨input, q, key, hq, rfl, rfl, hc.2, stringValues_forwarded hfwd, hded, rfl⟩
    · cases hkey

theorem upper_cacheable (ha : p.AsciiCase) {m : JsString} (h : m ∈ CACHEABLE_METHODS) :
    p.toUpperCase m = m :=
  asciiUpper_methods ha ((by decide : CACHEABLE_METHODS ⊆ METHOD_ORDER) h)

/-- What two calls have in common that share a cache entry. -/
structure SameRequest (p : Platform) (r₁ r₂ : ProxyServeRequest) (plan₁ plan₂ : ProxyPlan) : Prop where
  method : upperMethod p r₁ = upperMethod p r₂
  cacheable : upperMethod p r₂ = js "GET" ∨ upperMethod p r₂ = js "HEAD"
  profile : plan₁.profile = plan₂.profile
  hasProfile : plan₂.profile.isSome
  url : canonicalizeUrl p r₁.target_url = canonicalizeUrl p r₂.target_url
  forwarded : plan₁.forwarded = plan₂.forwarded

/-- **Equal keys, equal requests.** -/
theorem cacheKey_inj (hp : p.CollisionFree) (ha : p.AsciiCase) {r₁ r₂ : ProxyServeRequest}
    {plan₁ plan₂ : ProxyPlan} {k : JsString} (h₁ : planRequest p r₁ = .ok plan₁)
    (h₂ : planRequest p r₂ = .ok plan₂) (hk₁ : plan₁.cacheKey = some k)
    (hk₂ : plan₂.cacheKey = some k) : SameRequest p r₁ r₂ plan₁ plan₂ := by
  obtain ⟨u₁, q₁, key₁, hq₁, hf₁, hm₁, hc₁, hs₁, hd₁, rfl⟩ := planRequest_cacheKey h₁ hk₁
  obtain ⟨u₂, q₂, key₂, hq₂, hf₂, hm₂, hc₂, hs₂, hd₂, hk⟩ := planRequest_cacheKey h₂ hk₂
  obtain ⟨_, _, -, -, rfl⟩ := generateDedupeKey_eq_ok hd₁
  obtain ⟨_, _, -, -, rfl⟩ := generateDedupeKey_eq_ok hd₂
  obtain ⟨hkey, hfwd⟩ := profileCacheKey_inj hp hs₁ hs₂ hk
  rw [← show sha256HexText p _ = sha256HexText p _ from hkey] at hd₂
  obtain ⟨hmethod, hurl, hhash⟩ := generateDedupeKey_inj hp hd₁ hd₂
  obtain ⟨-, -, hhash'⟩ := generateDedupeKey_inj hp hd₂ hd₁
  dsimp only at hmethod hurl hhash hhash'
  rw [upper_cacheable ha hc₁, upper_cacheable ha hc₂] at hmethod
  -- an empty hash is left out of the key, but both requests have one
  have hprofile : q₁.profile_hash = q₂.profile_hash := by
    by_cases h1 : q₁.profile_hash = []
    · by_cases h2 : q₂.profile_hash = []
      · rw [h1, h2]
      · simpa using hhash' _ h2 rfl
    · simpa using (hhash _ h1 rfl).symm
  obtain ⟨hn₁, -, _, -, hh₁, -⟩ := prepare_eq_ok.mp hq₁
  obtain ⟨hn₂, -, _, -, hh₂, -⟩ := prepare_eq_ok.mp hq₂
  rw [hh₁, hh₂] at hprofile
  refine ⟨by rw [← hm₁, ← hm₂, hmethod], ?_, ?_, by rw [hf₂]; rfl, hurl, hfwd⟩
  · rw [hm₂] at hc₂
    simpa [CACHEABLE_METHODS] using hc₂
  · rw [hf₁, hf₂, hashNormalizedProfile_inj hp hn₁ hn₂ hprofile]

/-! ### Where the state of a run comes from -/

/-- The call passed the check and then fetched. -/
def Fetched (id : ℕ) (past : List ProxyRecord) : Prop :=
  ∃ res up, [.passed id res, .fetched id up].Sublist past

/-- A call with this key passed the check, fetched and then stored this value. -/
def Origin (p : Platform) (calls : OrdMap ℕ ProxyServeRequest) (past : List ProxyRecord) (key : JsString)
    (value : ProxyResult) : Prop :=
  ∃ id r plan res up, calls.get? id = some r ∧ planRequest p r = .ok plan ∧ plan.cacheKey = some key ∧
    [.passed id res, .fetched id up, .stored id value].Sublist past

def StageOk (p : Platform) (s : ProxyServer) (id : ℕ) : ProxyStage → Prop
  | .checking r plan => s.calls.get? id = some r ∧ planRequest p r = .ok plan
  | .fetching r plan => s.calls.get? id = some r ∧ planRequest p r = .ok plan ∧ Fetched id s.history

/-- An answer is the call's own, or one that was stored under the call's key. -/
def ServedOk (p : Platform) (calls : OrdMap ℕ ProxyServeRequest) (past : List ProxyRecord) (id : ℕ)
    (result : ProxyResult) : Prop :=
  ∃ r plan, calls.get? id = some r ∧ planRequest p r = .ok plan ∧
    ((result.cached = false ∧ Fetched id past) ∨
      ∃ key value, plan.cacheKey = some key ∧ Origin p calls past key value ∧
        result = { value with cached := true })

structure ServerInv (p : Platform) (s : ProxyServer) : Prop where
  stage : ∀ id st, s.pending.get? id = some st → StageOk p s id st
  entry : ∀ key e, s.cache.get? key = some e → Origin p s.calls s.history key e.value
  answer : ∀ pre id result, pre ++ [.answered id result] <+: s.history →
    ServedOk p s.calls pre id result

/-- No call is forgotten, and the history only grows. -/
structure Extends (s s' : ProxyServer) : Prop where
  calls : ∀ {id r}, s.calls.get? id = some r → s'.calls.get? id = some r
  history : s.history <+: s'.history

theorem Fetched.mono {id : ℕ} {past past' : List ProxyRecord} (h : Fetched id past)
    (hp : past <+: past') : Fetched id past' := by
  obtain ⟨res, up, hs⟩ := h
  exact ⟨res, up, hs.trans hp.sublist⟩

theorem Origin.mono {s s' : ProxyServer} {key : JsString} {value : ProxyResult}
    (h : Origin p s.calls s.history key value) (he : Extends s s') :
    Origin p s'.calls s'.history key value := by
  obtain ⟨id, r, plan, res, up, hr, hplan, hk, hs⟩ := h
  exact ⟨id, r, plan, res, up, he.calls hr, hplan, hk, hs.trans he.history.sublist⟩

theorem StageOk.mono {s s' : ProxyServer} {id : ℕ} {st : ProxyStage} (h : StageOk p s id st)
    (he : Extends s s') : StageOk p s' id st := by
  cases st with
  | checking r plan => exact ⟨he.calls h.1, h.2⟩
  | fetching r plan => exact ⟨he.calls h.1, h.2.1, h.2.2.mono he.history⟩

theorem ServedOk.mono {s s' : ProxyServer} {pre : List ProxyRecord} {id : ℕ} {result : ProxyResult}
    (h : ServedOk p s.calls pre id result) (he : Extends s s') : ServedOk p s'.calls pre id result := by
  obtain ⟨r, plan, hr, hplan, hres⟩ := h
  refine ⟨r, plan, he.calls hr, hplan, hres.imp_right ?_⟩
  rintro ⟨key, value, hk, ⟨id', r', plan', res, up, hr', h'⟩, hval⟩
  exact ⟨key, value, hk, ⟨id', r', plan', res, up, he.calls hr', h'⟩, hval⟩

/-- An extension keeps the invariant if what is new in it meets the conditions. -/
theorem ServerInv.extend {s s' : ProxyServer} (hi : ServerInv p s) (he : Extends s s')
    (hstage : ∀ id st, s'.pending.get? id = some st → s.pending.get? id = some st ∨ StageOk p s' id st)
    (hentry : ∀ key e, s'.cache.get? key = some e →
      s.cache.get? key = some e ∨ Origin p s'.calls s'.history key e.value)
    (hanswer : ∀ pre id result, pre ++ [.answered id result] <+: s'.history →
      pre ++ [.answered id result] <+: s.history ∨ ServedOk p s'.calls pre id result) :
    ServerInv p s' where
  stage id st h := (hstage id st h).elim (fun h => (hi.stage id st h).mono he) fun h => h
  entry key e h := (hentry key e h).elim (fun h => (hi.entry key e h).mono he) fun h => h
  answer pre id result h := (hanswer pre id result h).elim
    (fun h => (hi.answer pre id result h).mono he) fun h => h

theorem answered_prefix_concat {past pre : List ProxyRecord} {x : ProxyRecord} {id : ℕ}
    {result : ProxyResult} (h : pre ++ [.answered id result] <+: past ++ [x]) :
    pre ++ [.answered id result] <+: past ∨ pre = past ∧ x = .answered id result := by
  rcases List.prefix_concat_iff.mp h with h | h
  · obtain ⟨h1, h2⟩ := List.append_inj' h rfl
    exact .inr ⟨h1, (List.cons.inj h2).1.symm⟩
  · exact .inl h

/-! ### The steps -/

theorem pending_set {α : Type} {m : OrdMap ℕ α} {id id' : ℕ} {st st' : α}
    (h : (m.set id st).get? id' = some st') : m.get? id' = some st' ∨ id' = id ∧ st' = st := by
  rw [OrdMap.get?_set] at h
  split_ifs at h with hid
  · exact .inr ⟨hid, (Option.some.inj h).symm⟩
  · exact .inl h

theorem get?_of_delete {κ α : Type} [DecidableEq κ] {m : OrdMap κ α} {k k' : κ} {v : α}
    (h : (m.delete k).get? k' = some v) : m.get? k' = some v := by
  rw [OrdMap.get?_delete] at h
  split_ifs at h
  exact h

theorem ServerInv.reject {s : ProxyServer} (hi : ServerInv p s) (id : ℕ) :
    ServerInv p (s.reject id) := by
  have he : Extends s (s.reject id) := ⟨fun h => h, List.prefix_append _ _⟩
  refine hi.extend he (fun id' st h => .inl (get?_of_delete h)) (fun key e h => .inl h) ?_
  intro pre id' result hpre
  rcases answered_prefix_concat hpre with h | ⟨-, h⟩
  · exact .inl h
  · cases h

theorem ServerInv.register {s : ProxyServer} (hi : ServerInv p s) {id : ℕ} (h : s.calls.has id = false)
    (r : ProxyServeRequest) : ServerInv p { s with calls := s.calls.set id r } := by
  have he : Extends s { s with calls := s.calls.set id r } := by
    refine ⟨fun {id' r'} h' => ?_, List.prefix_refl _⟩
    rw [OrdMap.get?_set]
    split_ifs with hid
    · rw [hid, OrdMap.not_has_iff.mp h] at h'
      cases h'
    · exact h'
  exact hi.extend he (fun id' st h => .inl h) (fun key e h => .inl h) fun pre id' result h => .inl h

theorem cachedProfileResult_some {cache cache' : ProfileCache} {key : JsString} {now : ℕ}
    {result : ProxyResult} (h : cachedProfileResult cache key now = (some result, cache')) :
    cache' = cache ∧ ∃ e, cache.get? key = some e ∧ result = { e.value with cached := true } := by
  unfold cachedProfileResult at h
  split at h
  · cases h
  · rename_i e he
    split_ifs at h
    · cases h
    · cases h
      exact ⟨rfl, e, he, rfl⟩

theorem cachedProfileResult_cache {cache cache' : ProfileCache} {key : JsString} {now : ℕ}
    {result : Option ProxyResult} (h : cachedProfileResult cache key now = (result, cache'))
    {k : JsString} {e : ProfileCacheEntry} (hk : cache'.get? k = some e) : cache.get? k = some e := by
  unfold cachedProfileResult at h
  split at h
  · cases h; exact hk
  · split_ifs at h
    · cases h; exact get?_of_delete hk
    · cases h; exact hk

theorem ServerInv.wait {s : ProxyServer} (hi : ServerInv p s) {id : ℕ} {r : ProxyServeRequest}
    {plan : ProxyPlan} (hr : s.calls.get? id = some r) (hplan : planRequest p r = .ok plan)
    {cache : ProfileCache} (hcache : ∀ {k e}, cache.get? k = some e → s.cache.get? k = some e) :
    ServerInv p { s with cache, pending := s.pending.set id (.checking r plan) } := by
  refine hi.extend ⟨fun h => h, List.prefix_refl _⟩ (fun id' st h => ?_) (fun key e h => .inl (hcache h))
    fun pre id' result h => .inl h
  rcases pending_set h with h | ⟨rfl, rfl⟩
  · exact .inl h
  · exact .inr ⟨hr, hplan⟩

theorem ServerInv.start {s : ProxyServer} (hi : ServerInv p s) {id : ℕ} {r : ProxyServeRequest}
    {plan : ProxyPlan} (hr : s.calls.get? id = some r) (hplan : planRequest p r = .ok plan) (now : ℕ) :
    ServerInv p (s.start id r plan now) := by
  unfold ProxyServer.start
  split
  · rename_i c k hk
    split
    · rename_i result cache hres
      obtain ⟨rfl, e, he, rfl⟩ := cachedProfileResult_some hres
      refine hi.extend ⟨fun h => h, List.prefix_append _ _⟩ (fun id' st h => .inl h)
        (fun key e h => .inl h) ?_
      intro pre id' result hpre
      rcases answered_prefix_concat hpre with h | ⟨rfl, h⟩
      · exact .inl h
      · cases h
        exact .inr ⟨r, plan, hr, hplan, .inr ⟨c :: k, e.value, hk, hi.entry _ _ he, rfl⟩⟩
    · rename_i cache hres
      exact hi.wait hr hplan (cachedProfileResult_cache hres)
  · exact hi.wait hr hplan fun h => h

theorem ServerInv.continueFetch {s : ProxyServer} (hi : ServerInv p s) {id : ℕ} {r : ProxyServeRequest}
    {plan : ProxyPlan} (hs : s.pending.get? id = some (.checking r plan)) (res : SafeResolution) :
    ServerInv p (s.continueFetch p id r plan res) := by
  obtain ⟨hr, hplan⟩ := hi.stage id _ hs
  have hpass : ServerInv p { s with history := s.history ++ [.passed id res] } := by
    refine hi.extend ⟨fun h => h, List.prefix_append _ _⟩ (fun id' st h => .inl h)
      (fun key e h => .inl h) ?_
    intro pre id' result hpre
    rcases answered_prefix_concat hpre with h | ⟨-, h⟩
    · exact .inl h
    · cases h
  unfold ProxyServer.continueFetch
  dsimp only
  split
  · exact hpass.reject id
  · rename_i up _
    refine hpass.extend ⟨fun h => h, List.prefix_append _ _⟩ (fun id' st h => ?_)
      (fun key e h => .inl h) ?_
    · rcases pending_set h with h | ⟨rfl, rfl⟩
      · exact .inl h
      · refine .inr ⟨hr, hplan, res, up, ?_⟩
        rw [List.append_assoc]
        exact List.sublist_append_right _ _
    · intro pre id' result hpre
      rcases answered_prefix_concat hpre with h | ⟨-, h⟩
      · exact .inl h
      · cases h

theorem storeUnder_eq_some {plan : ProxyPlan} {result : ProxyResult} {key : JsString} {ttl : ℕ}
    (h : storeUnder plan result = some (key, ttl)) : plan.cacheKey = some key := by
  unfold storeUnder at h
  split at h
  · rename_i hk _
    split_ifs at h
    cases h
    exact hk
  · cases h

theorem get?_evictOldest {cache : ProfileCache} {k : JsString} {e : ProfileCacheEntry}
    (h : (evictOldest cache).get? k = some e) : cache.get? k = some e := by
  unfold evictOldest at h
  split_ifs at h
  · split at h
    · exact get?_of_delete h
    · exact h
  · exact h

theorem ServerInv.store {s : ProxyServer} (hi : ServerInv p s) {id : ℕ} {r : ProxyServeRequest}
    {plan : ProxyPlan} (hs : s.pending.get? id = some (.fetching r plan)) {result : ProxyResult}
    (hresult : result.cached = false) {key : JsString} (hk : plan.cacheKey = some key) (ttl now : ℕ) :
    ServerInv p { s with
      cache := storeProfileResult s.cache key result ttl now
      history := s.history ++ [.stored id result] } := by
  obtain ⟨hr, hplan, res, up, hsub⟩ := hi.stage id _ hs
  refine hi.extend ⟨fun h => h, List.prefix_append _ _⟩ (fun id' st h => .inl h) ?_ ?_
  · intro key' e h
    unfold storeProfileResult at h
    dsimp only at h
    rw [OrdMap.get?_set] at h
    split_ifs at h with hkey
    · cases h
      subst hkey
      refine .inr ⟨id, r, plan, res, up, hr, hplan, hk, ?_⟩
      have hval : { result with cached := false } = result := by rw [← hresult]
      dsimp only
      rw [hval]
      exact hsub.append (List.Sublist.refl [ProxyRecord.stored id result])
    · exact .inl (get?_evictOldest h)
  · intro pre id' result' hpre
    rcases answered_prefix_concat hpre with h | ⟨-, h⟩
    · exact .inl h
    · cases h

theorem ServerInv.settle {s : ProxyServer} (hi : ServerInv p s) {id : ℕ} {r : ProxyServeRequest}
    {plan : ProxyPlan} (hs : s.pending.get? id = some (.fetching r plan)) {result : ProxyResult}
    (hresult : result.cached = false) :
    ServerInv p { s with
      pending := s.pending.delete id
      history := s.history ++ [.answered id result] } := by
  obtain ⟨hr, hplan, hf⟩ := hi.stage id _ hs
  refine hi.extend ⟨fun h => h, List.prefix_append _ _⟩ (fun id' st h => .inl (get?_of_delete h))
    (fun key e h => .inl h) ?_
  intro pre id' result' hpre
  rcases answered_prefix_concat hpre with h | ⟨rfl, h⟩
  · exact .inl h
  · cases h
    exact .inr ⟨r, plan, hr, hplan, .inl ⟨hresult, hf⟩⟩

theorem ServerInv.finish {s : ProxyServer} (hi : ServerInv p s) {id : ℕ} {r : ProxyServeRequest}
    {plan : ProxyPlan} (hs : s.pending.get? id = some (.fetching r plan)) (resp : UpstreamResponse)
    (now : ℕ) : ServerInv p (s.finish id plan resp now) := by
  unfold ProxyServer.finish
  dsimp only
  split
  · rename_i key ttl hstore
    have hfresh : (ProxyResult.ofResponse plan resp).cached = false := rfl
    exact (hi.store hs hfresh (storeUnder_eq_some hstore) ttl now).settle hs rfl
  · exact hi.settle hs rfl

theorem ServerInv.step {s : ProxyServer} (hi : ServerInv p s) (e : ProxyEvent) :
    ServerInv p (s.step p e) := by
  cases e with
  | call id r now =>
    unfold ProxyServer.step
    dsimp only
    cases hcall : s.calls.has id with
    | true => exact hi
    | false =>
      have hreg := hi.register hcall r
      rw [if_neg (by simp)]
      split
      · exact hreg.reject id
      · rename_i plan hplan
        exact hreg.start (OrdMap.get?_set_self _ _ _) hplan now
  | checked id res =>
    unfold ProxyServer.step
    dsimp only
    split
    · exact hi.continueFetch (by assumption) _
    · exact hi.reject id
    · exact hi
  | responded id resp now =>
    unfold ProxyServer.step
    dsimp only
    split
    · exact hi.finish (by assumption) _ now
    · exact hi.reject id
    · exact hi
  | clear =>
    refine hi.extend ⟨fun h => h, List.prefix_refl _⟩ (fun id' st h => .inl h) (fun key e h => ?_)
      fun pre id' result h => .inl h
    cases h

/-- The process after a run. -/
def serverAfter (p : Platform) (events : List ProxyEvent) : ProxyServer :=
  run (ProxyServer.step p) {} events

theorem serverInv_run (p : Platform) (events : List ProxyEvent) :
    ServerInv p (serverAfter p events) := by
  refine run_induct (J := fun _ s => ServerInv p s) (C := fun _ _ _ => True) ?_
    (fun pre e hi _ => hi.step e) (fun _ _ _ _ => trivial)
  refine ⟨fun id st h => ?_, fun key e h => ?_, fun pre id result h => ?_⟩
  · cases h
  · cases h
  · exact absurd (List.prefix_nil.mp h) (by simp)

/-- Where an answer comes from. One from the cache was stored before by a call that passed the SSRF check
and fetched it, with the same method (`GET` or `HEAD`), profile, canonical URL and forwarded headers. Any
other answer comes after the call's own check and fetch, and so does every answer to another method. -/
def IsolatedAnswer (p : Platform) (s : ProxyServer) (past : List ProxyRecord) (id : ℕ)
    (result : ProxyResult) : Prop :=
  ∃ r plan, s.calls.get? id = some r ∧ planRequest p r = .ok plan ∧
    (result.cached = true → ∃ id₁ r₁ plan₁ res up value,
      s.calls.get? id₁ = some r₁ ∧ planRequest p r₁ = .ok plan₁ ∧
      [.passed id₁ res, .fetched id₁ up, .stored id₁ value].Sublist past ∧
      result.status = value.status ∧ result.headers = value.headers ∧ result.body = value.body ∧
      SameRequest p r₁ r plan₁ plan) ∧
    (result.cached = false → Fetched id past) ∧
    (upperMethod p r ≠ js "GET" → upperMethod p r ≠ js "HEAD" → Fetched id past)

/-- **Cache isolation**, for every answer in every run. -/
theorem cached_answer_isolated (p : Platform) (hp : p.CollisionFree) (ha : p.AsciiCase)
    (events : List ProxyEvent) (past : List ProxyRecord) (id : ℕ) (result : ProxyResult)
    (hans : past ++ [.answered id result] <+: (serverAfter p events).history) :
    IsolatedAnswer p (serverAfter p events) past id result := by
  obtain ⟨r, plan, hr, hplan, hcase⟩ := (serverInv_run p events).answer past id result hans
  refine ⟨r, plan, hr, hplan, ?_⟩
  rcases hcase with ⟨hc, hf⟩ | ⟨key, value, hk, ⟨id₁, r₁, plan₁, res, up, hr₁, hplan₁, hk₁, hsub⟩, rfl⟩
  · exact ⟨fun hc' => absurd (hc'.symm.trans hc) (by decide), fun _ => hf, fun _ _ => hf⟩
  · have hsame := cacheKey_inj hp ha hplan₁ hplan hk₁ hk
    refine ⟨fun _ => ⟨id₁, r₁, plan₁, res, up, value, hr₁, hplan₁, hsub, rfl, rfl, rfl, hsame⟩,
      fun hc => absurd hc (by simp), fun hg hh => ?_⟩
    rcases hsame.cacheable with h | h
    · exact absurd h hg
    · exact absurd h hh

/-! ### A run with a hit -/

/-- The digests of the profile, of the canonical request and of the cache key. -/
def hitTables : Tables where
  digests :=
    let profileHash := beBytes 32 0x875469f8fb25190ed439bc0f981e195a21200c820cf079d04419647b7b88dbb8
    let dedupeKey := beBytes 32 0xfd0a3642b954e507d4c9af8a15bbd49a2ebf7075af29d8c2246949ef7ae6e43f
    [(utf8 (stringify (stableValue (profileJson (sampleProfile (js "/x"))))), profileHash),
      (utf8 (stableStringify (.obj (canonicalRequest (js "GET") (siteUrl (js "/x")).href []
        (js "no-body") (some (hex profileHash))))), dedupeKey),
      (utf8 (hex dedupeKey ++ unit '\n' ::
        stableStringify (.arr [.arr [.str (js "x-tenant-id"), .str (js "7")]])),
        beBytes 32 0x5ce6fe3f851f79aedae5413f4f179afb09a88b98e47dce72e8b14dd07489dfac)]

def hitPlatform : Platform where
  __ := sitePlatform
  sha256 := hitTables.digest

theorem hitPlatform_collisionFree : hitPlatform.CollisionFree :=
  hitTables.digest_injective (by decide +kernel) (by decide +kernel)

def hitRequest : ProxyServeRequest where
  target_url := js "https://api.example.com/x"
  headers := some (.obj [(js "X-Tenant-Id", .str (js "7"))])
  profile := some (sampleInput (js "/x"))

/-- A call that fetches, and the same call again. -/
def hitRun : List ProxyEvent :=
  [.call 0 hitRequest 0, .checked 0 (some ⟨js "93.184.216.34", 4, js "api.example.com", false⟩),
    .responded 0 (some ⟨200, js "OK", [(js "etag", js "a")], [104, 105]⟩) 5, .call 1 hitRequest 10]

def hitResult : ProxyResult where
  status := 200
  statusText := js "OK"
  headers := [(js "etag", js "a")]
  body := [104, 105]
  cached := true
  profile_hash := some (hex (beBytes 32
    0x875469f8fb25190ed439bc0f981e195a21200c820cf079d04419647b7b88dbb8))

theorem hitRun_isolated : ∃ past,
    past ++ [.answered 1 hitResult] = (serverAfter hitPlatform hitRun).history ∧
    IsolatedAnswer hitPlatform (serverAfter hitPlatform hitRun) past 1 hitResult := by
  have hlast : (serverAfter hitPlatform hitRun).history.dropLast ++ [.answered 1 hitResult] =
      (serverAfter hitPlatform hitRun).history := by decide +kernel
  refine ⟨_, hlast, cached_answer_isolated hitPlatform hitPlatform_collisionFree
    ⟨fun _ _ => rfl, fun _ _ => rfl⟩ hitRun _ 1 hitResult ?_⟩
  rw [hlast]

end ConsensusNode.Runtime
