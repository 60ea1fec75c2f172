import ConsensusNode.Platform
import ConsensusNode.Js.Canonical

/-! # Dedupe keys

`runtime/dedupe.ts`: the request a ticket is bound to, in a canonical form, hashed. The URL is rewritten
by the platform's own setters, of the headers only four names count (two of them as digests), and the
body is hashed. The headers of a request may be any value the wire carried: whatever the code does with
a value that is no string, it does here.

* `generateDedupeKey_inj`: without collisions of SHA-256 the key determines the upper-cased method, the
  canonical URL and the profile hash. -/

namespace ConsensusNode.Runtime

open Js

variable (p : Platform)

/-- A body that is neither `null` nor `undefined`; `value` is an object, an array or a primitive. -/
inductive RequestBody where
  | text (s : JsString)
  | buffer (b : Bytes)
  | value (v : Json)
deriving DecidableEq

structure DedupeParams where
  target_url : JsString
  method : JsString
  headers : Option Json
  body : Option RequestBody
  profile_hash : Option JsString

def ALLOW_HEADERS : List JsString := [js "accept", js "content-type"]

def HASH_HEADERS : List JsString := [js "authorization", js "cookie"]

/-- Pairs by name, then by value. -/
def ParamLe (a b : JsString × JsString) : Prop := a.1 < b.1 ∨ (a.1 = b.1 ∧ a.2 ≤ b.2)

instance : DecidableRel ParamLe := fun a b => by unfold ParamLe; infer_instance

def canonicalizeUrl (raw : JsString) : Except JsError JsString :=
  match p.parseUrl raw with
  | none => .error .native
  | some u =>
    let u := p.setHash u []
    let u := p.setProtocol u (p.toLowerCase u.protocol)
    let u := p.setHostname u (p.toLowerCase u.hostname)
    let u := if (u.protocol = js "https:" ∧ u.port = js "443") ∨
        (u.protocol = js "http:" ∧ u.port = js "80") then p.setPort u [] else u
    let params := u.params.insertionSort ParamLe
    let u := p.setSearch u []
    .ok (params.foldl (fun u kv => p.appendParam u kv.1 kv.2) u).href

/-- One header of the loop: an allowed value is trimmed and collapsed, a credential is hashed. -/
def collectHeader (result : List (JsString × JsString)) (h : JsString × Json) :
    Except JsError (List (JsString × JsString)) :=
  let lower := p.toLowerCase h.1
  if lower ∈ ALLOW_HEADERS then
    match h.2 with
    | .str v => .ok (setField result lower (collapseSpace (trim v)))
    | _ => .error .native
  else if lower ∈ HASH_HEADERS then
    match h.2 with
    | .str v => .ok (setField result lower (sha256HexText p v))
    | _ => .error .native
  else .ok result

/-- The names that are emitted, in their fixed order. -/
def orderedHeaders (result : List (JsString × JsString)) : List (JsString × JsString) :=
  [js "accept", js "authorization", js "content-type", js "cookie"].filterMap fun n =>
    match result.lookup n with
    | some v => if v = [] then none else some (n, v)
    | none => none

def canonicalizeSemanticHeaders (headers : Json) : Except JsError (List (JsString × JsString)) := do
  let entries ← objectEntries headers
  let result ← entries.foldlM (collectHeader p) []
  return orderedHeaders result

def computeBodyHash : Option RequestBody → JsString
  | none => js "no-body"
  | some (.buffer b) => sha256Hex p b
  | some (.text s) => sha256HexText p s
  | some (.value v) => sha256HexText p (stableStringify v)

/-- The canonical request; an absent or empty profile hash is left out. -/
def canonicalRequest (method url : JsString) (headers : List (JsString × JsString))
    (bodyHash : JsString) (profileHash : Option JsString) : List (JsString × Json) :=
  [(js "v", .num (JsNumber.ofNat 1)), (js "scope", .str (js "global")), (js "method", .str method),
    (js "url", .str url), (js "headers", .obj (headers.map fun h => (h.1, .str h.2))),
    (js "body_hash", .str bodyHash)] ++
  match profileHash with
  | some (c :: s) => [(js "profile_hash", .str (c :: s))]
  | _ => []

def generateDedupeKey (d : DedupeParams) : Except JsError JsString := do
  let semanticHeaders ← canonicalizeSemanticHeaders p (d.headers.getD (.obj []))
  let url ← canonicalizeUrl p d.target_url
  return sha256HexText p (stableStringify (.obj (canonicalRequest (p.toUpperCase d.method) url
    semanticHeaders (computeBodyHash p d.body) d.profile_hash)))

/-! ### The key determines the request -/

variable {p}

theorem sha256HexText_inj (hp : p.CollisionFree) {s t : JsString} (hs : WellFormed s)
    (ht : WellFormed t) (h : sha256HexText p s = sha256HexText p t) : s = t :=
  utf8_injective hs ht (hp (hex_injective _ _ h))

theorem generateDedupeKey_eq_ok {d : DedupeParams} {key : JsString}
    (h : generateDedupeKey p d = .ok key) : ∃ headers url,
      canonicalizeSemanticHeaders p (d.headers.getD (.obj [])) = .ok headers ∧
      canonicalizeUrl p d.target_url = .ok url ∧
      key = sha256HexText p (stableStringify (.obj (canonicalRequest (p.toUpperCase d.method) url
        headers (computeBodyHash p d.body) d.profile_hash))) := by
  unfold generateDedupeKey at h
  cases hh : canonicalizeSemanticHeaders p (d.headers.getD (.obj [])) with
  | error e => rw [hh] at h; cases h
  | ok headers =>
    cases hu : canonicalizeUrl p d.target_url with
    | error e => rw [hh, hu] at h; cases h
    | ok url =>
      rw [hh, hu] at h
      cases h
      exact ⟨headers, url, rfl, rfl, rfl⟩

theorem nodup_canonicalRequest (m u : JsString) (hs : List (JsString × JsString)) (b : JsString)
    (ph : Option JsString) : ((canonicalRequest m u hs b ph).map Prod.fst).Nodup := by
  unfold canonicalRequest
  split
  · show [js "v", js "scope", js "method", js "url", js "headers", js "body_hash",
      js "profile_hash"].Nodup
    decide
  · show [js "v", js "scope", js "method", js "url", js "headers", js "body_hash"].Nodup
    decide

/-- **The key binds method, URL and profile hash.** -/
theorem generateDedupeKey_inj (hp : p.CollisionFree) {d e : DedupeParams} {key : JsString}
    (hd : generateDedupeKey p d = .ok key) (he : generateDedupeKey p e = .ok key) :
    p.toUpperCase d.method = p.toUpperCase e.method ∧
    canonicalizeUrl p d.target_url = canonicalizeUrl p e.target_url ∧
    ∀ h, h ≠ [] → (d.profile_hash = some h → e.profile_hash = some h) := by
  obtain ⟨hs, u, -, hu, hk⟩ := generateDedupeKey_eq_ok hd
  obtain ⟨hs', u', -, hu', hk'⟩ := generateDedupeKey_eq_ok he
  have htext := sha256HexText_inj hp (wellFormed_stringify _) (wellFormed_stringify _) (hk.symm.trans hk')
  have field : ∀ {k s : JsString}, _ → _ := fun {k s} =>
    stableStringify_field (nodup_canonicalRequest _ _ _ _ _) (nodup_canonicalRequest _ _ _ _ _) htext
      (k := k) (s := s)
  have hm := field (k := js "method") (s := p.toUpperCase d.method) rfl
  have hurl := field (k := js "url") (s := u) rfl
  refine ⟨?_, ?_, ?_⟩
  · have : some (Json.str (p.toUpperCase e.method)) = some (.str (p.toUpperCase d.method)) := hm
    simpa using this.symm
  · have : some (Json.str u') = some (.str u) := hurl
    simp only [Option.some.injEq, Json.str.injEq] at this
    rw [hu, hu', this]
  · intro h hne hh
    obtain ⟨c, t, rfl⟩ := List.exists_cons_of_ne_nil hne
    have hph := field (k := js "profile_hash") (s := c :: t) (by rw [hh]; rfl)
    cases hx : e.profile_hash with
    | none =>
      rw [hx] at hph
      have : (none : Option Json) = some (.str (c :: t)) := hph
      cases this
    | some x =>
      rw [hx] at hph
      cases x with
      | nil =>
        have : (none : Option Json) = some (.str (c :: t)) := hph
        cases this
      | cons c' t' =>
        have : some (Json.str (c' :: t')) = some (.str (c :: t)) := hph
        simpa using this

end ConsensusNode.Runtime
